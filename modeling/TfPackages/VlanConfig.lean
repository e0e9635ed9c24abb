import TfPackages.VlanPorts

/-! # The VLAN commands

`config_vlan.lua` reads the `bridge-vlan` sections of the network configuration,
carries out one command on them and leaves the changes in place.  A VLAN has one
section, and the section's name plays no other role than to find it, so sections
are addressed by their VLAN here.

The commands work on `bridgeVlanList`, the sections as they were when the command
started.  A Lua error ends a command; the changes it has made so far stay.

VLANs and ports are whole numbers of fewer than fifteen digits: these Lua prints in
full, so that they are natural numbers here.
-/
namespace TfPackages.Vlan

/-- A `bridge-vlan` section.  Without ports it has no option `ports`. -/
structure Section where
  vlan : Nat
  ports : List LanPort
  descr : Option String
  state : Option String
deriving DecidableEq, Repr

/-- `network.lan.device`. -/
inductive LanDevice where
  | missing
  /-- A name without a VLAN behind a dot. -/
  | plain
  /-- `switch.N`. -/
  | vlan (n : Nat)
deriving DecidableEq, Repr

/-- The part of the network configuration the commands use. -/
structure Config where
  sections : List Section
  lanDevice : LanDevice
  vlan_nodup : (sections.map Section.vlan).Nodup

/-! ## Changes to the configuration -/

theorem map_vlan_map {l : List Section} {f : Section → Section} (hf : ∀ s, (f s).vlan = s.vlan) :
    (l.map f).map Section.vlan = l.map Section.vlan := by
  rw [List.map_map]
  exact List.map_congr_left fun s _ => hf s

/-- Every section is changed, but not its VLAN. -/
def Config.mapSections (c : Config) (f : Section → Section) (hf : ∀ s, (f s).vlan = s.vlan) :
    Config where
  sections := c.sections.map f
  lanDevice := c.lanDevice
  vlan_nodup := by
    rw [map_vlan_map hf]
    exact c.vlan_nodup

/-- `uci:set_list("network", id, "ports", ports)`. -/
def Config.setPorts (c : Config) (vlan : Nat) (ports : List LanPort) : Config :=
  c.mapSections (fun s => if s.vlan = vlan then { s with ports } else s) fun s => by
    split <;> rfl

/-- `uci:set("network", id, param, value)` for the options `descr` and `state`. -/
def Config.setParam (c : Config) (vlan : Nat) (f : Section → Section)
    (hf : ∀ s, (f s).vlan = s.vlan) : Config :=
  c.mapSections (fun s => if s.vlan = vlan then f s else s) fun s => by
    split
    · exact hf s
    · rfl

/-- The sections that satisfy `p`. -/
def Config.filter (c : Config) (p : Section → Bool) : Config where
  sections := c.sections.filter p
  lanDevice := c.lanDevice
  vlan_nodup := c.vlan_nodup.sublist (List.filter_sublist.map _)

/-- `uci:delete("network", id)`. -/
def Config.delete (c : Config) (vlan : Nat) : Config := c.filter (·.vlan ≠ vlan)

/-- `uci:add("network", "bridge-vlan")` with the options `device` and `vlan`.  It
is only called for a VLAN that has no section. -/
def Config.add (c : Config) (vlan : Nat) : Config :=
  if h : vlan ∈ c.sections.map Section.vlan then c
  else
    { sections := c.sections ++ [⟨vlan, [], none, none⟩]
      lanDevice := c.lanDevice
      vlan_nodup := by
        rw [List.map_append, List.nodup_append]
        refine ⟨c.vlan_nodup, by simp, ?_⟩
        rintro a ha b hb rfl
        obtain rfl : a = vlan := by simpa using hb
        exact h ha }

/-- What a command leaves behind. -/
structure Outcome where
  config : Config
  luaError : Bool

/-- `bridgeVlanList[key]`. -/
def bridgeVlan (bridgeVlanList : List Section) (key : Nat) : Option Section :=
  bridgeVlanList.find? (·.vlan = key)

/-- The port is outside the range, by the number that its name is read as.  A name
without a number would raise an error; there is none. -/
def outsideRange (portRange : Range) (p : LanPort) : Bool :=
  (getPort p.text).portNumber.any portRange.outside

/-! ## The commands -/

/-- The body of the loop of `vlan_delete`, over the rest of the range. -/
def deleteLoop (mainVlan : LanDevice) (bridgeVlanList : List Section) : List Nat → Config → Outcome
  | [], c => ⟨c, false⟩
  | key :: keys, c =>
    if mainVlan = .vlan key then deleteLoop mainVlan bridgeVlanList keys c
    else
      match bridgeVlan bridgeVlanList key with
      | none => ⟨c, true⟩
      | some _ => deleteLoop mainVlan bridgeVlanList keys (c.delete key)

/-- `vlan_delete`. -/
def vlanDelete (mainVlan : LanDevice) (bridgeVlanList : List Section) (vlanRange : Option Range)
    (c : Config) : Outcome :=
  match vlanRange with
  | none => ⟨c, false⟩
  | some r => deleteLoop mainVlan bridgeVlanList r.values c

/-- `vlan_add_notMemberPorts`. -/
def vlanAddNotMemberPorts (mainVlan : LanDevice) (bridgeVlanList : List Section)
    (vlanRange portRange : Option Range) (c : Config) : Outcome :=
  match vlanRange with
  | none => ⟨c, true⟩
  | some r =>
    match bridgeVlan bridgeVlanList r.first with
    | none => ⟨c, false⟩
    | some thisVlan =>
      match portRange with
      | none => ⟨c, false⟩
      | some portRange =>
        let portsForAdd := thisVlan.ports.filter (outsideRange portRange)
        if portsForAdd ≠ [] then ⟨c.setPorts r.first portsForAdd, false⟩
        else vlanDelete mainVlan bridgeVlanList vlanRange c

/-- `saveUntaggedPorts`: all ports of the VLAN itself, and the untagged ones of
the others. -/
def saveUntaggedPorts (key : Nat) (bridgeVlanList : List Section) : List (Nat × List Port) :=
  bridgeVlanList.map fun vlan =>
    (vlan.vlan, (vlan.ports.map fun p => getPort p.text).filter fun port =>
      !(port.state = .tagged && vlan.vlan ≠ key))

/-- The ports of the VLAN that are outside the range, with their names built
anew. -/
def keptPorts (key : Nat) (portRange : Range) (busy : List (Nat × List Port)) : List LanPort :=
  busy.flatMap fun (vlanId, l) =>
    if vlanId = key then
      l.filterMap fun port => do
        let portNum ← port.portNumber
        if portRange.outside portNum then some ⟨portNum, port.state = .tagged⟩ else none
    else []

/-- The ports of the range that are free to be untagged in the VLAN; under `add`
those that are tagged in it stay tagged. -/
def addedPorts (isAdd : Bool) (key : Nat) (portRange : Range) (busy : List (Nat × List Port)) :
    List LanPort :=
  portRange.values.filterMap fun p =>
    let portFlag := busy.any fun (vlanId, l) =>
      vlanId ≠ key && l.any fun port => port.portNumber = some p && port.state = .untagged
    let staysTagged := isAdd && busy.any fun (vlanId, l) =>
      vlanId = key && l.any fun port => port.portNumber = some p && port.state = .tagged
    if portFlag then none else some ⟨p, staysTagged⟩

/-- `vlan_add_untagged`. -/
def vlanAddUntagged (isAdd : Bool) (bridgeVlanList : List Section)
    (vlanRange portRange : Option Range) (c : Config) : Outcome :=
  match vlanRange with
  | none => ⟨c, true⟩
  | some r =>
    if r.flag = .span then ⟨c, false⟩
    else
      match portRange with
      | none => ⟨c, false⟩
      | some portRange =>
        let busy := saveUntaggedPorts r.first bridgeVlanList
        let c := match bridgeVlan bridgeVlanList r.first with
          | none => c.add r.first
          | some _ => c
        let lanList := keptPorts r.first portRange busy ++ addedPorts isAdd r.first portRange busy
        if lanList ≠ [] then ⟨c.setPorts r.first lanList, false⟩ else ⟨c, false⟩

/-- The name inserted for a port of the range: it is tagged, except under `add` if
it has been untagged in the VLAN. -/
def taggedName (isAdd : Bool) (ports : List LanPort) (p : Nat) : LanPort :=
  ⟨p, !(isAdd && ports.any fun q => getPort q.text = ⟨some p, .untagged⟩)⟩

/-- The body of the loop of `vlan_add_tagged`, over the rest of the VLANs.
`lanList` keeps what was inserted for the VLANs before.  A VLAN without a section
gets one, and then its ports are looked up, which is an error. -/
def addTaggedLoop (isAdd : Bool) (bridgeVlanList : List Section) (portRange : Range) :
    List Nat → List LanPort → Config → Outcome
  | [], _, c => ⟨c, false⟩
  | key :: keys, lanList, c =>
    match bridgeVlan bridgeVlanList key with
    | none => ⟨c.add key, true⟩
    | some vlan =>
      let lanList := lanList ++ portRange.values.map (taggedName isAdd vlan.ports) ++
        vlan.ports.filter (outsideRange portRange)
      addTaggedLoop isAdd bridgeVlanList portRange keys lanList (c.setPorts key lanList)

/-- `vlan_add_tagged`. -/
def vlanAddTagged (isAdd : Bool) (bridgeVlanList : List Section)
    (vlanRange portRange : Option Range) (c : Config) : Outcome :=
  match vlanRange, portRange with
  | some r, some portRange => addTaggedLoop isAdd bridgeVlanList portRange r.values [] c
  | _, _ => ⟨c, false⟩

/-- The options that `vlan_set_param` sets. -/
inductive Param where
  | descr
  | state
deriving DecidableEq, Repr

def Param.set (value : String) (s : Section) : Param → Section
  | .descr => { s with descr := some value }
  | .state => { s with state := some value }

theorem Param.vlan_set (param : Param) (value : String) (s : Section) :
    (param.set value s).vlan = s.vlan := by
  cases param <;> rfl

/-- The body of the loop of `vlan_set_param`, over the rest of the range. -/
def setParamLoop (param : Param) (value : String) (bridgeVlanList : List Section) :
    List Nat → Config → Outcome
  | [], c => ⟨c, false⟩
  | key :: keys, c =>
    match bridgeVlan bridgeVlanList key with
    | none => ⟨c, true⟩
    | some _ => setParamLoop param value bridgeVlanList keys
        (c.setParam key (param.set value) (param.vlan_set value))

/-- `vlan_set_param`. -/
def vlanSetParam (param : Param) (value : String) (bridgeVlanList : List Section)
    (vlanRange : Option Range) (c : Config) : Outcome :=
  match vlanRange with
  | none => ⟨c, false⟩
  | some r => setParamLoop param value bridgeVlanList r.values c

/-- `vlan_mngt`.  A VLAN in the list has ports. -/
def vlanMngt (bridgeVlanList : List Section) (vlanRange : Option Range) (c : Config) : Outcome :=
  match vlanRange with
  | none => ⟨c, true⟩
  | some r =>
    if r.flag = .span then ⟨c, false⟩
    else
      match bridgeVlan bridgeVlanList r.first with
      | none => ⟨c, false⟩
      | some _ => ⟨{ c with lanDevice := .vlan r.first }, false⟩

/-! ## One call of the script -/

/-- `taggedType_in`. -/
inductive TaggedType where
  | tagged
  | untagged
  | notMemb
deriving DecidableEq, Repr

/-- `cmd_in`, with what it takes from `taggedType_in`. -/
inductive Cmd where
  | add (t : TaggedType)
  | edit (t : TaggedType)
  | delete
  | name (value : String)
  | state (value : String)
  | mngtVlan
deriving DecidableEq, Repr

/-- The arguments of `config_vlan.lua`. -/
structure Args where
  vlanRange : RangeArg
  cmd : Cmd
  portList : RangeArg
deriving DecidableEq, Repr

/-- `getUciBridgeVlanList` deletes the sections without ports. -/
def Config.withPorts (c : Config) : Config := c.filter (·.ports ≠ [])

/-- `main`, for sections that all have ports. -/
def runCmd (c : Config) (args : Args) : Outcome :=
  let vlanRange := checkPortRange args.vlanRange
  let portRange := checkPortRange args.portList
  match args.cmd with
  | .add .untagged => vlanAddUntagged true c.sections vlanRange portRange c
  | .add .tagged => vlanAddTagged true c.sections vlanRange portRange c
  | .add .notMemb => ⟨c, false⟩
  | .edit .notMemb => vlanAddNotMemberPorts c.lanDevice c.sections vlanRange portRange c
  | .edit .untagged => vlanAddUntagged false c.sections vlanRange portRange c
  | .edit .tagged => vlanAddTagged false c.sections vlanRange portRange c
  | .delete => vlanDelete c.lanDevice c.sections vlanRange c
  | .name value => vlanSetParam .descr value c.sections vlanRange c
  | .state value => vlanSetParam .state value c.sections vlanRange c
  | .mngtVlan => vlanMngt c.sections vlanRange c

/-- `main`.  `getUciInterfaceLan` fails if there is no device to look at. -/
def main (c : Config) (args : Args) : Outcome :=
  if c.lanDevice = .missing then ⟨c.withPorts, true⟩ else runCmd c.withPorts args

/-- The configuration after one call of the script. -/
def configVlan (c : Config) (args : Args) : Config := (main c args).config

end TfPackages.Vlan
