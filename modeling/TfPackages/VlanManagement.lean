import Mathlib.Data.List.DropRight
import Mathlib.Data.List.Nodup
import TfPackages.Runs
import TfPackages.VlanConfig

/-! # The management VLAN

`network.lan.device` names the VLAN over which the device can be reached, and the
commands must not take its section or its ports away.  The configuration is kept
here as `uci` has it: sections have names, several of them may be for one VLAN,
and VLANs and ports are any texts.  The table that the commands work on has one
section for each VLAN, the last one with ports.

In the arguments VLANs and ports are Lua's numbers: floating-point numbers, printed
with fourteen digits.  `LuaNumber` has what the script does with them, and what is
asked of it holds of them whatever is rounded.  `getUciInterfaceLan` takes the
device apart at its dots, so a VLAN that is printed with one, like 1.5 or 1.5e+15,
is not protected once it is the management VLAN.  With a management VLAN that is
printed with digits only `Serves` is kept: a certain section for it stays in place,
perhaps with other ports.
-/
namespace TfPackages.Vlan

/-! ## Numbers -/

/-- What the script does with Lua's numbers. -/
class LuaNumber (N : Type) where
  /-- The number that digits with this value are read as. -/
  ofNat : Nat → N
  tonumber : List Char → Option N
  tostring : N → List Char
  eq : N → N → Bool
  lt : N → N → Bool
  /-- The values of `for p = first, last`, of a loop that ends. -/
  forLoop : N → N → List N
  /-- Neither an infinity nor a NaN. -/
  Finite : N → Prop
  tostring_one : tostring (ofNat 1) = Nat.toDigits 10 1
  /-- Digits are not read as a NaN. -/
  eq_digits : ∀ {n : Nat} {x : N}, tonumber (Nat.toDigits 10 n) = some x → eq x x = true
  /-- With a whole number between its ends a loop is not empty. -/
  forLoop_ne_nil : ∀ {first last : N} {n : Nat}, Finite first → Finite last →
    lt (ofNat n) first = false → lt last (ofNat n) = false → forLoop first last ≠ []
  finite_one : Finite (ofNat 1)

/-- `vlanId == mainVlanId`, where both may be `nil`. -/
def sameNumber {N : Type} [LuaNumber N] : Option N → Option N → Bool
  | some a, some b => LuaNumber.eq a b
  | none, none => true
  | _, _ => false

/-- The result of `checkPortRange`. -/
structure NumberRange (N : Type) where
  first : N
  last : N
  flag : RangeFlag

section Ranges
variable (N : Type) [LuaNumber N]

/-- The numbers of a range: what `tonumber` makes of its pieces between minus signs.
The insertion of `nil` does nothing. -/
def rangeNumbers (range : List Char) : List N :=
  ((range.splitOn '-').filter (· ≠ [])).filterMap LuaNumber.tonumber

/-- `checkPortRange`.  Without a number there is an error; with more than two the rest
is not looked at. -/
def checkNumbers (range : List Char) : Option (Option (NumberRange N)) :=
  if range = "all".toList then some (some ⟨LuaNumber.ofNat 1, LuaNumber.ofNat 1, .all⟩)
  else
    match rangeNumbers N range with
    | [] => none
    | first :: rest =>
      let last := rest.headD first
      some (if LuaNumber.lt last first then none
        else some ⟨first, last, if rest.isEmpty then .one else .span⟩)

end Ranges

/-- The values of `for p = first, last`. -/
def NumberRange.values {N : Type} [LuaNumber N] (r : NumberRange N) : List N :=
  LuaNumber.forLoop r.first r.last

/-- `portNumber < portRangeMin or portNumber > portRangeMax`. -/
def NumberRange.outside {N : Type} [LuaNumber N] (r : NumberRange N) (n : Nat) : Bool :=
  LuaNumber.lt (LuaNumber.ofNat n) r.first || LuaNumber.lt r.last (LuaNumber.ofNat n)

/-! ## The configuration -/

/-- A `bridge-vlan` section of `uci`.  Without ports it has no option `ports`; it may be
without its option `vlan`. -/
structure BridgeVlan where
  name : Nat
  vlan : Option (List Char)
  ports : List (List Char)
  descr : Option String
  state : Option String
deriving DecidableEq, Repr

/-- The network configuration.  The names of sections are different. -/
structure Uci where
  sections : List BridgeVlan
  /-- `network.lan.device`. -/
  device : Option (List Char)
  names_nodup : (sections.map BridgeVlan.name).Nodup

/-- The sections that satisfy `p`. -/
def Uci.filter (u : Uci) (p : BridgeVlan → Bool) : Uci where
  sections := u.sections.filter p
  device := u.device
  names_nodup := u.names_nodup.sublist (List.filter_sublist.map _)

/-- `uci:delete("network", name)`. -/
def Uci.delete (u : Uci) (name : Nat) : Uci := u.filter (·.name ≠ name)

/-- The section `name` is changed, but not its name. -/
def Uci.modify (u : Uci) (name : Nat) (f : BridgeVlan → BridgeVlan)
    (hf : ∀ s, (f s).name = s.name) : Uci where
  sections := u.sections.map fun s => if s.name = name then f s else s
  device := u.device
  names_nodup := by
    have hmap : (u.sections.map fun s => if s.name = name then f s else s).map BridgeVlan.name =
        u.sections.map BridgeVlan.name := by
      rw [List.map_map]
      refine List.map_congr_left fun s _ => ?_
      simp only [Function.comp_apply]
      split
      · exact hf s
      · rfl
    rw [hmap]
    exact u.names_nodup

/-- `uci:set_list("network", name, "ports", ports)`. -/
def Uci.setPorts (u : Uci) (name : Nat) (ports : List (List Char)) : Uci :=
  u.modify name (fun s => { s with ports }) fun _ => rfl

/-- A section with one of its options `descr` and `state` set. -/
def BridgeVlan.setParam (param : Param) (value : String) (s : BridgeVlan) : BridgeVlan :=
  match param with
  | .descr => { s with descr := some value }
  | .state => { s with state := some value }

/-- `uci:set("network", name, param, value)`. -/
def Uci.setParam (u : Uci) (name : Nat) (param : Param) (value : String) : Uci :=
  u.modify name (BridgeVlan.setParam param value) fun s => by cases param <;> rfl

/-- The name `uci:add` gives to a new section. -/
def Uci.newName (u : Uci) : Nat := (u.sections.map BridgeVlan.name).foldr max 0 + 1

theorem le_foldr_max {l : List Nat} {n : Nat} (h : n ∈ l) : n ≤ l.foldr max 0 := by
  induction l with
  | nil => simp at h
  | cons m l ih =>
    rw [List.foldr_cons]
    rcases List.mem_cons.mp h with rfl | h
    · exact le_max_left ..
    · exact (ih h).trans (le_max_right ..)

theorem Uci.newName_not_mem (u : Uci) : u.newName ∉ u.sections.map BridgeVlan.name := by
  intro h
  have := le_foldr_max h
  unfold Uci.newName at this
  omega

/-- `uci:add("network", "bridge-vlan")` with the options `device` and `vlan`. -/
def Uci.add (u : Uci) (vlan : List Char) : Uci where
  sections := u.sections ++ [⟨u.newName, some vlan, [], none, none⟩]
  device := u.device
  names_nodup := by
    rw [List.map_append, List.nodup_append]
    refine ⟨u.names_nodup, by simp, ?_⟩
    rintro a ha b hb rfl
    obtain rfl : a = u.newName := by simpa using hb
    exact u.newName_not_mem ha

/-! ## Reading the configuration -/

/-- The loop of `getUciBridgeVlanList`: a section without ports is deleted, and one with
ports but without a VLAN raises an error. -/
def listSections : List BridgeVlan → List BridgeVlan
  | [] => []
  | s :: l =>
    if s.ports = [] then listSections l
    else if s.vlan = none then s :: l
    else s :: listSections l

theorem listSections_sublist (l : List BridgeVlan) : (listSections l).Sublist l := by
  induction l with
  | nil => exact List.Sublist.slnil
  | cons s l ih =>
    rw [listSections]
    split_ifs
    · exact ih.cons s
    · exact List.Sublist.refl _
    · exact ih.cons_cons s

theorem mem_listSections {l : List BridgeVlan} {s : BridgeVlan} (hs : s ∈ l) (hne : s.ports ≠ []) :
    s ∈ listSections l := by
  induction l with
  | nil => exact hs
  | cons t l ih =>
    rw [listSections]
    rcases List.mem_cons.mp hs with rfl | hs
    · rw [if_neg hne]
      split <;> exact List.mem_cons_self
    · split_ifs
      · exact ih hs
      · exact List.mem_cons_of_mem _ hs
      · exact List.mem_cons_of_mem _ (ih hs)

/-- The loop raises an error. -/
def unlisted (l : List BridgeVlan) : Bool := l.any fun s => s.ports ≠ [] ∧ s.vlan = none

/-- Without an error only sections with ports are left. -/
theorem ports_ne_nil_of_mem_listSections {l : List BridgeVlan} (hok : unlisted l = false)
    {s : BridgeVlan} (hs : s ∈ listSections l) : s.ports ≠ [] := by
  induction l with
  | nil => cases hs
  | cons t l ih =>
    simp only [unlisted, List.any_cons, Bool.or_eq_false_iff, decide_eq_false_iff_not] at hok
    rw [listSections] at hs
    split_ifs at hs with hports hvlan
    · exact ih hok.2 hs
    · exact absurd ⟨hports, hvlan⟩ hok.1
    · rcases List.mem_cons.mp hs with rfl | hs
      · exact hports
      · exact ih hok.2 hs

/-- The configuration as `getUciBridgeVlanList` leaves it. -/
def Uci.listed (u : Uci) : Uci where
  sections := listSections u.sections
  device := u.device
  names_nodup := u.names_nodup.sublist ((listSections_sublist _).map _)

/-- `bridgeVlanList[key]`: of several sections the last one has been stored. -/
def tableEntry (sections : List BridgeVlan) (key : List Char) : Option BridgeVlan :=
  (sections.filter (·.vlan = some key)).getLast?

/-- The sections that `pairs(bridgeVlanList)` goes through. -/
def tableEntries (sections : List BridgeVlan) : List BridgeVlan :=
  sections.filter fun s => s.vlan.bind (tableEntry sections) = some s

/-- `getUciInterfaceLan`: the second piece of the device's name between dots. -/
def getUciInterfaceLan (device : List Char) : Option (List Char) :=
  ((device.splitOn '.').filter (· ≠ []))[1]?

/-- The name of the device for a VLAN. -/
def devName (vlan : List Char) : List Char := "switch.".toList ++ vlan

theorem dot_not_mem_toDigits (n : Nat) : '.' ∉ Nat.toDigits 10 n := by
  intro h
  exact absurd (isDigit_of_mem_toDigits h) (by decide)

/-- A VLAN that is printed with digits only is found in the name of its device. -/
theorem getUciInterfaceLan_devName (n : Nat) :
    getUciInterfaceLan (devName (Nat.toDigits 10 n)) = some (Nat.toDigits 10 n) := by
  have hne : Nat.toDigits 10 n ≠ [] := Nat.toDigits_ne_nil
  have hsplit : (devName (Nat.toDigits 10 n)).splitOn '.' =
      ["switch".toList, Nat.toDigits 10 n] := by
    rw [← List.splitOn_eq_singleton (dot_not_mem_toDigits n)]
    exact List.splitOn_append_cons_self_of_not_mem (show '.' ∉ "switch".toList by decide) _
  rw [getUciInterfaceLan, hsplit]
  simp [hne]

/-- Every port has a number that `printBrVlanInfo` can print. -/
def printable (sections : List BridgeVlan) : Bool :=
  (tableEntries sections).all fun s => s.ports.all fun p => (getPort p).portNumber.isSome

section Commands
variable {N : Type} [LuaNumber N]

/-- `tonumber(mainVlan.id)`. -/
def Uci.mainVlan (u : Uci) : Option N := (u.device.bind getUciInterfaceLan).bind LuaNumber.tonumber

/-- The port is outside the range, by the number its name is read as. -/
def textOutside (portRange : NumberRange N) (p : List Char) : Bool :=
  (getPort p).portNumber.any portRange.outside

/-! ## The commands -/

/-- `vlan_delete`. -/
def deleteKeys (mainVlan : Option N) (table : List BridgeVlan) : List N → Uci → Uci
  | [], u => u
  | key :: keys, u =>
    let key := LuaNumber.tostring key
    if sameNumber (LuaNumber.tonumber key) mainVlan then deleteKeys mainVlan table keys u
    else
      match tableEntry table key with
      | none => u
      | some vlan => deleteKeys mainVlan table keys (u.delete vlan.name)

/-- `vlan_add_notMemberPorts`. -/
def removePorts (mainVlan : Option N) (table : List BridgeVlan) (vlanRange : NumberRange N)
    (portRange : Option (NumberRange N)) (u : Uci) : Uci :=
  match tableEntry table (LuaNumber.tostring vlanRange.first), portRange with
  | some thisVlan, some portRange =>
    let portsForAdd := thisVlan.ports.filter (textOutside portRange)
    if portsForAdd ≠ [] then u.setPorts thisVlan.name portsForAdd
    else deleteKeys mainVlan table vlanRange.values u
  | _, _ => u

/-- `busyUntaggedPortList`: all ports of the VLAN itself, and the untagged ones of
the others. -/
def busyPorts (key : List Char) (table : List BridgeVlan) : List (List Char × List Port) :=
  (tableEntries table).filterMap fun vlan => vlan.vlan.map fun num =>
    (num, (vlan.ports.map getPort).filter fun port => !(port.state = .tagged && num ≠ key))

/-- `"lan" .. tostring(p)`, with `":t"` if the port is tagged. -/
def lanStr (p : N) (tagged : Bool) : List Char :=
  "lan".toList ++ LuaNumber.tostring p ++ if tagged then ":t".toList else []

/-- `port.portNumber == p`. -/
def Port.is (port : Port) (p : N) : Bool :=
  port.portNumber.any fun portNum => LuaNumber.eq (LuaNumber.ofNat portNum) p

/-- The ports of the VLAN that are outside the range, with their names built
anew. -/
def keptNames (key : List Char) (portRange : NumberRange N)
    (busy : List (List Char × List Port)) : List (List Char) :=
  busy.flatMap fun (vlanId, l) =>
    if vlanId = key then
      l.filterMap fun port => do
        let portNum ← port.portNumber
        if portRange.outside portNum then
          some (lanStr (LuaNumber.ofNat portNum : N) (port.state = .tagged))
        else none
    else []

/-- The ports of the range that are free to be untagged in the VLAN; under `add`
those that are tagged in it stay tagged. -/
def addedNames (isAdd : Bool) (key : List Char) (portRange : NumberRange N)
    (busy : List (List Char × List Port)) : List (List Char) :=
  portRange.values.filterMap fun p =>
    let portFlag := busy.any fun (vlanId, l) =>
      vlanId ≠ key && l.any fun port => port.is p && port.state = .untagged
    let staysTagged := isAdd && busy.any fun (vlanId, l) =>
      vlanId = key && l.any fun port => port.is p && port.state = .tagged
    if portFlag then none else some (lanStr p staysTagged)

/-- `vlan_add_untagged`. -/
def addUntagged (isAdd : Bool) (table : List BridgeVlan) (vlanRange : NumberRange N)
    (portRange : Option (NumberRange N)) (u : Uci) : Uci :=
  if vlanRange.flag = .span then u
  else
    match portRange with
    | none => u
    | some portRange =>
      let key := LuaNumber.tostring vlanRange.first
      let busy := busyPorts key table
      let lanList := keptNames key portRange busy ++ addedNames isAdd key portRange busy
      match tableEntry table key with
      | none => if lanList ≠ [] then (u.add key).setPorts u.newName lanList else u.add key
      | some vlan => if lanList ≠ [] then u.setPorts vlan.name lanList else u

/-- The names inserted for the ports of the range: they are tagged, except under
`add` if they have been untagged in the VLAN. -/
def taggedNames (isAdd : Bool) (portRange : NumberRange N) (ports : List (List Char)) :
    List (List Char) :=
  portRange.values.map fun p => lanStr p
    (!(isAdd && ports.any fun q => (getPort q).is p && (getPort q).state = .untagged))

/-- `vlan_add_tagged`, over the rest of the VLANs.  A VLAN without a section gets
one, and then its ports are looked up, which is an error. -/
def addTagged (isAdd : Bool) (table : List BridgeVlan) (portRange : NumberRange N) :
    List N → List (List Char) → Uci → Uci
  | [], _, u => u
  | key :: keys, lanList, u =>
    match tableEntry table (LuaNumber.tostring key) with
    | none => u.add (LuaNumber.tostring key)
    | some vlan =>
      let lanList := lanList ++ taggedNames isAdd portRange vlan.ports ++
        vlan.ports.filter (textOutside portRange)
      addTagged isAdd table portRange keys lanList (u.setPorts vlan.name lanList)

/-- `vlan_set_param`. -/
def setParams (param : Param) (value : String) (table : List BridgeVlan) : List N → Uci → Uci
  | [], u => u
  | key :: keys, u =>
    match tableEntry table (LuaNumber.tostring key) with
    | none => u
    | some vlan => setParams param value table keys (u.setParam vlan.name param value)

/-- `vlan_mngt`.  A VLAN in the table has ports. -/
def moveManagement (table : List BridgeVlan) (vlanRange : NumberRange N) (u : Uci) : Uci :=
  if vlanRange.flag = .span then u
  else
    match tableEntry table (LuaNumber.tostring vlanRange.first) with
    | none => u
    | some _ => { u with device := some (devName (LuaNumber.tostring vlanRange.first)) }

/-- The command of `main`, on sections that all have ports.  Without a VLAN range
there is an error or a message. -/
def runScript (u : Uci) (cmd : Cmd) (vlanRange portRange : Option (NumberRange N)) : Uci :=
  match vlanRange with
  | none => u
  | some vlanRange =>
    match cmd with
    | .add .untagged => addUntagged true u.sections vlanRange portRange u
    | .edit .untagged => addUntagged false u.sections vlanRange portRange u
    | .add .tagged =>
      match portRange with
      | none => u
      | some portRange => addTagged true u.sections portRange vlanRange.values [] u
    | .edit .tagged =>
      match portRange with
      | none => u
      | some portRange => addTagged false u.sections portRange vlanRange.values [] u
    | .add .notMemb => u
    | .edit .notMemb => removePorts u.mainVlan u.sections vlanRange portRange u
    | .delete => deleteKeys u.mainVlan u.sections vlanRange.values u
    | .name value => setParams .descr value u.sections vlanRange.values u
    | .state value => setParams .state value u.sections vlanRange.values u
    | .mngtVlan => moveManagement u.sections vlanRange u

end Commands

/-! ## One call of the script -/

/-- The arguments of the script. -/
structure ScriptArgs where
  vlanRange : Option (List Char)
  /-- `none` for another command, or one without the type or value it needs. -/
  cmd : Option Cmd
  portList : Option (List Char)
deriving DecidableEq, Repr

/-- `main`. -/
def script (N : Type) [LuaNumber N] (u : Uci) (args : ScriptArgs) : Uci :=
  let failed := unlisted u.sections
  let u := u.listed
  if failed ∨ u.device = none ∨ printable u.sections = false then u
  else
    match args.portList.bind (checkNumbers N), args.vlanRange.bind (checkNumbers N), args.cmd with
    | some portRange, some vlanRange, some cmd => runScript u cmd vlanRange portRange
    | _, _, _ => u

/-! ## The section of the management VLAN -/

/-- `network.lan.device` names a VLAN that has a section with ports. -/
def Uci.ManagedBy (u : Uci) (vlan : List Char) : Prop :=
  u.device = some (devName vlan) ∧ ∃ s ∈ u.sections, s.vlan = some vlan ∧ s.ports ≠ []

instance (u : Uci) (vlan : List Char) : Decidable (u.ManagedBy vlan) := by
  unfold Uci.ManagedBy
  infer_instance

/-- The section `name` is for the VLAN and has ports. -/
structure Serves (device : List Char) (name : Nat) (vlan : List Char) (u : Uci) : Prop where
  device : u.device = some device
  exists_section : ∃ s ∈ u.sections, s.name = name ∧ s.vlan = some vlan ∧ s.ports ≠ []

section Serves
variable {d : List Char} {name : Nat} {n : List Char} {u : Uci}

theorem Serves.filter (h : Serves d name n u) {p : BridgeVlan → Bool}
    (hp : ∀ s, s.name = name → s.ports ≠ [] → p s = true) : Serves d name n (u.filter p) := by
  obtain ⟨s, hs, hname, hvlan, hports⟩ := h.exists_section
  exact ⟨h.device, s, List.mem_filter.mpr ⟨hs, hp s hname hports⟩, hname, hvlan, hports⟩

theorem Serves.delete (h : Serves d name n u) {other : Nat} (hne : name ≠ other) :
    Serves d name n (u.delete other) := by
  refine h.filter fun s hname _ => ?_
  rw [hname]
  simpa using hne

/-- A change that takes away neither VLAN nor ports. -/
theorem Serves.modify (h : Serves d name n u) {other : Nat} {f : BridgeVlan → BridgeVlan}
    {hf : ∀ s, (f s).name = s.name}
    (hkeep : ∀ s, s.ports ≠ [] → (f s).vlan = s.vlan ∧ (f s).ports ≠ []) :
    Serves d name n (u.modify other f hf) := by
  obtain ⟨s, hs, hname, hvlan, hports⟩ := h.exists_section
  refine ⟨h.device, _, List.mem_map_of_mem hs, ?_⟩
  split
  · obtain ⟨hvlan', hports'⟩ := hkeep s hports
    exact ⟨by rw [hf, hname], by rw [hvlan', hvlan], hports'⟩
  · exact ⟨hname, hvlan, hports⟩

theorem Serves.setPorts (h : Serves d name n u) {other : Nat} {ports : List (List Char)}
    (hne : ports ≠ []) : Serves d name n (u.setPorts other ports) :=
  h.modify fun _ _ => ⟨rfl, hne⟩

theorem Serves.setParam (h : Serves d name n u) {other : Nat} {param : Param} {value : String} :
    Serves d name n (u.setParam other param value) := by
  refine h.modify fun s hports => ?_
  cases param <;> exact ⟨rfl, hports⟩

theorem Serves.add (h : Serves d name n u) {vlan : List Char} : Serves d name n (u.add vlan) := by
  obtain ⟨s, hs, hsection⟩ := h.exists_section
  exact ⟨h.device, s, List.mem_append_left _ hs, hsection⟩

/-! ## What the commands keep -/

theorem mem_of_tableEntry {table : List BridgeVlan} {key : List Char} {s : BridgeVlan}
    (h : tableEntry table key = some s) : s ∈ table ∧ s.vlan = some key := by
  have hmem := List.mem_of_mem_getLast? h
  rw [List.mem_filter] at hmem
  simpa using hmem

variable {N : Type} [LuaNumber N]

/-- The names of the table that are not for the VLAN `n` are not `name`. -/
theorem Serves.deleteKeys {table : List BridgeVlan}
    (hname : ∀ s ∈ table, s.name = name → s.vlan = some n) {mainVlan : Option N}
    (hmain : sameNumber (LuaNumber.tonumber n) mainVlan = true) {keys : List N}
    (h : Serves d name n u) : Serves d name n (deleteKeys mainVlan table keys u) := by
  induction keys generalizing u with
  | nil => exact h
  | cons key keys ih =>
    rw [Vlan.deleteKeys]
    split
    · exact ih h
    · rename_i hkey
      split
      · exact h
      · rename_i vlan hvlan
        obtain ⟨hmem, heq⟩ := mem_of_tableEntry hvlan
        refine ih (h.delete fun hsame => hkey ?_)
        have hkey' := heq.symm.trans (hname vlan hmem hsame.symm)
        rw [Option.some.inj hkey', hmain]

/-- The last port of the management VLAN cannot be removed. -/
theorem Serves.removePorts {table : List BridgeVlan}
    (hname : ∀ s ∈ table, s.name = name → s.vlan = some n) {mainVlan : Option N}
    (hmain : sameNumber (LuaNumber.tonumber n) mainVlan = true) {vlanRange : NumberRange N}
    {portRange : Option (NumberRange N)} (h : Serves d name n u) :
    Serves d name n (removePorts mainVlan table vlanRange portRange u) := by
  unfold Vlan.removePorts
  split
  · dsimp only
    split
    · rename_i hne
      exact h.setPorts hne
    · exact h.deleteKeys hname hmain
  · exact h

theorem Serves.addUntagged {isAdd : Bool} {table : List BridgeVlan} {vlanRange : NumberRange N}
    {portRange : Option (NumberRange N)} (h : Serves d name n u) :
    Serves d name n (addUntagged isAdd table vlanRange portRange u) := by
  unfold Vlan.addUntagged
  split
  · exact h
  · split
    · exact h
    · dsimp only
      split <;> split
      · rename_i hne
        exact h.add.setPorts hne
      · exact h.add
      · rename_i hne
        exact h.setPorts hne
      · exact h

/-- The ends of the range are numbers that can be compared. -/
def NumberRange.Finite (r : NumberRange N) : Prop :=
  LuaNumber.Finite r.first ∧ LuaNumber.Finite r.last

/-- A port is outside the range and stays, or the loop over the range writes a name. -/
theorem taggedNames_append_ne_nil {portRange : NumberRange N} (hrange : portRange.Finite)
    (isAdd : Bool) {ports : List (List Char)} (hne : ports ≠ [])
    (hnum : ∀ p ∈ ports, (getPort p).portNumber.isSome = true) :
    taggedNames isAdd portRange ports ++ ports.filter (textOutside portRange) ≠ [] := by
  obtain ⟨p, hp⟩ := List.exists_mem_of_ne_nil ports hne
  obtain ⟨num, hport⟩ := Option.isSome_iff_exists.mp (hnum p hp)
  by_cases hout : portRange.outside num = true
  · have hkept : p ∈ ports.filter (textOutside portRange) := by
      rw [List.mem_filter, textOutside, hport]
      exact ⟨hp, hout⟩
    exact List.ne_nil_of_mem (List.mem_append_right _ hkept)
  · rw [NumberRange.outside, Bool.or_eq_true, not_or, Bool.not_eq_true, Bool.not_eq_true] at hout
    have hloop := LuaNumber.forLoop_ne_nil hrange.1 hrange.2 hout.1 hout.2
    simp [taggedNames, NumberRange.values, hloop]

theorem Serves.addTagged {isAdd : Bool} {table : List BridgeVlan}
    (hports : ∀ key s, tableEntry table key = some s →
      s.ports ≠ [] ∧ ∀ p ∈ s.ports, (getPort p).portNumber.isSome = true)
    {portRange : NumberRange N} (hrange : portRange.Finite) {keys : List N}
    {lanList : List (List Char)} (h : Serves d name n u) :
    Serves d name n (addTagged isAdd table portRange keys lanList u) := by
  induction keys generalizing u lanList with
  | nil => exact h
  | cons key keys ih =>
    rw [Vlan.addTagged]
    split
    · exact h.add
    · rename_i vlan hvlan
      obtain ⟨hne, hnum⟩ := hports _ vlan hvlan
      refine ih (h.setPorts ?_)
      rw [List.append_assoc]
      exact List.append_ne_nil_of_right_ne_nil _ (taggedNames_append_ne_nil hrange isAdd hne hnum)

theorem Serves.setParams {param : Param} {value : String} {table : List BridgeVlan}
    {keys : List N} (h : Serves d name n u) :
    Serves d name n (setParams param value table keys u) := by
  induction keys generalizing u with
  | nil => exact h
  | cons key keys ih =>
    rw [Vlan.setParams]
    split
    · exact h
    · exact ih h.setParam

theorem Serves.managedBy (h : Serves (devName n) name n u) : u.ManagedBy n := by
  obtain ⟨s, hs, _, hvlan, hports⟩ := h.exists_section
  exact ⟨h.device, s, hs, hvlan, hports⟩

end Serves

/-! ## Runs -/

section Runs
variable {N : Type} [LuaNumber N]

/-- The ends of the ranges are numbers that can be compared, and a command that makes a
VLAN the management VLAN names one that is printed with digits only. -/
structure ScriptArgs.Plain (N : Type) [LuaNumber N] (args : ScriptArgs) : Prop where
  finite : ∀ range, args.vlanRange = some range ∨ args.portList = some range →
    ∀ x ∈ rangeNumbers N range, LuaNumber.Finite x
  digits : args.cmd = some .mngtVlan → ∀ range, args.vlanRange = some range →
    ∀ x ∈ rangeNumbers N range, ∃ n, LuaNumber.tostring x = Nat.toDigits 10 n

/-- A range begins and ends with one of its numbers, or it is `all`. -/
theorem checkNumbers_mem {range : List Char} {r : NumberRange N}
    (h : checkNumbers N range = some (some r)) :
    (r.first = LuaNumber.ofNat 1 ∧ r.last = LuaNumber.ofNat 1) ∨
      (r.first ∈ rangeNumbers N range ∧ r.last ∈ rangeNumbers N range) := by
  unfold checkNumbers at h
  split at h
  · cases h
    exact .inl ⟨rfl, rfl⟩
  · split at h
    · cases h
    · rename_i first rest hnum
      simp only [Option.some.injEq] at h
      split at h
      · cases h
      · cases h
        refine .inr ⟨by rw [hnum]; exact List.mem_cons_self, ?_⟩
        rw [hnum]
        cases rest with
        | nil => exact List.mem_cons_self
        | cons last rest => exact List.mem_cons_of_mem _ List.mem_cons_self

/-- What `vlan_mngt` does with the sections that have ports. -/
theorem managedBy_moveManagement {u : Uci} {n : Nat} {r : NumberRange N}
    (hu : u.ManagedBy (Nat.toDigits 10 n)) (hports : ∀ s ∈ u.sections, s.ports ≠ [])
    (hdigits : ∃ n, LuaNumber.tostring r.first = Nat.toDigits 10 n) :
    ∃ n, (moveManagement u.sections r u).ManagedBy (Nat.toDigits 10 n) := by
  rw [moveManagement]
  split
  · exact ⟨n, hu⟩
  · split
    · exact ⟨n, hu⟩
    · rename_i vlan hvlan
      obtain ⟨hmem, heq⟩ := mem_of_tableEntry hvlan
      obtain ⟨m, hm⟩ := hdigits
      exact ⟨m, by rw [hm], vlan, hmem, by rw [heq, hm], hports vlan hmem⟩

/-- `vlan_delete` takes the management VLAN for what it is. -/
theorem sameNumber_mainVlan {u : Uci} {n : Nat}
    (h : u.device = some (devName (Nat.toDigits 10 n))) :
    sameNumber (LuaNumber.tonumber (Nat.toDigits 10 n) : Option N) u.mainVlan = true := by
  have hmain : (u.mainVlan : Option N) = LuaNumber.tonumber (Nat.toDigits 10 n) := by
    rw [Uci.mainVlan, h, Option.bind_some, getUciInterfaceLan_devName, Option.bind_some]
  rw [hmain]
  cases hx : (LuaNumber.tonumber (Nat.toDigits 10 n) : Option N) with
  | none => rfl
  | some x => exact LuaNumber.eq_digits hx

/-- The commands leave a management VLAN that is printed with digits only with a section
and ports. -/
theorem managedBy_runScript {u : Uci} {n : Nat} (hu : u.ManagedBy (Nat.toDigits 10 n))
    (hports : ∀ s ∈ u.sections, s.ports ≠ []) (hprint : printable u.sections = true) {cmd : Cmd}
    {vlanRange portRange : Option (NumberRange N)} (hrange : ∀ r ∈ portRange, r.Finite)
    (hdigits : cmd = .mngtVlan → ∀ r ∈ vlanRange,
      ∃ n, LuaNumber.tostring r.first = Nat.toDigits 10 n) :
    ∃ n, (runScript u cmd vlanRange portRange).ManagedBy (Nat.toDigits 10 n) := by
  obtain ⟨hdevice, s, hs, hvlan, hne⟩ := id hu
  have hserves : Serves (devName (Nat.toDigits 10 n)) s.name (Nat.toDigits 10 n) u :=
    ⟨hdevice, s, hs, rfl, hvlan, hne⟩
  have hmain := sameNumber_mainVlan (N := N) hdevice
  -- No two sections have the same name, so no other VLAN's section is deleted as `s`.
  have hname : ∀ t ∈ u.sections, t.name = s.name → t.vlan = some (Nat.toDigits 10 n) := by
    intro t ht hsame
    rw [List.inj_on_of_nodup_map u.names_nodup ht hs hsame, hvlan]
  have htable : ∀ key t, tableEntry u.sections key = some t →
      t.ports ≠ [] ∧ ∀ p ∈ t.ports, (getPort p).portNumber.isSome = true := by
    intro key t ht
    obtain ⟨hmem, heq⟩ := mem_of_tableEntry ht
    have hentry : t ∈ tableEntries u.sections :=
      List.mem_filter.mpr ⟨hmem, by rw [heq, Option.bind_some]; simpa using ht⟩
    have hall := List.all_eq_true.mp hprint t hentry
    exact ⟨hports t hmem, fun p hp => List.all_eq_true.mp hall p hp⟩
  unfold runScript
  split
  · exact ⟨n, hu⟩
  rename_i vlanRange
  cases cmd with
  | add t =>
    cases t with
    | untagged => exact ⟨n, hserves.addUntagged.managedBy⟩
    | tagged =>
      cases portRange with
      | none => exact ⟨n, hu⟩
      | some portRange => exact ⟨n, (hserves.addTagged htable (hrange _ rfl)).managedBy⟩
    | notMemb => exact ⟨n, hu⟩
  | edit t =>
    cases t with
    | untagged => exact ⟨n, hserves.addUntagged.managedBy⟩
    | tagged =>
      cases portRange with
      | none => exact ⟨n, hu⟩
      | some portRange => exact ⟨n, (hserves.addTagged htable (hrange _ rfl)).managedBy⟩
    | notMemb => exact ⟨n, (hserves.removePorts hname hmain).managedBy⟩
  | delete => exact ⟨n, (hserves.deleteKeys hname hmain).managedBy⟩
  | name value => exact ⟨n, hserves.setParams.managedBy⟩
  | state value => exact ⟨n, hserves.setParams.managedBy⟩
  | mngtVlan => exact managedBy_moveManagement hu hports (hdigits rfl _ rfl)

theorem managedBy_script {u : Uci} {n : Nat} (hu : u.ManagedBy (Nat.toDigits 10 n))
    {args : ScriptArgs} (hargs : args.Plain N) :
    ∃ n, (script N u args).ManagedBy (Nat.toDigits 10 n) := by
  obtain ⟨hdevice, s, hs, hvlan, hne⟩ := hu
  -- Sections without ports are deleted first, which does not concern `s`.
  have hu' : u.listed.ManagedBy (Nat.toDigits 10 n) :=
    ⟨hdevice, s, mem_listSections hs hne, hvlan, hne⟩
  unfold script
  dsimp only
  split
  · exact ⟨n, hu'⟩
  rename_i hgo
  rw [not_or, not_or, Bool.not_eq_true, Bool.not_eq_false] at hgo
  obtain ⟨hlisted, -, hprint⟩ := hgo
  have hports : ∀ s ∈ u.listed.sections, s.ports ≠ [] :=
    fun _ hs => ports_ne_nil_of_mem_listSections hlisted hs
  split
  · rename_i portRange vlanRange cmd hport hvlans hcmd
    obtain ⟨portText, hportText, hportRange⟩ := Option.bind_eq_some_iff.mp hport
    obtain ⟨vlanText, hvlanText, hvlanRange⟩ := Option.bind_eq_some_iff.mp hvlans
    refine managedBy_runScript hu' hports hprint ?_ ?_
    · rintro r rfl
      rcases checkNumbers_mem hportRange with ⟨hfirst, hlast⟩ | ⟨hfirst, hlast⟩
      · exact ⟨hfirst ▸ LuaNumber.finite_one, hlast ▸ LuaNumber.finite_one⟩
      · have hfinite := hargs.finite portText (.inr hportText)
        exact ⟨hfinite _ hfirst, hfinite _ hlast⟩
    · rintro rfl r rfl
      rcases checkNumbers_mem hvlanRange with ⟨hfirst, -⟩ | ⟨hfirst, -⟩
      · exact ⟨1, by rw [hfirst, LuaNumber.tostring_one]⟩
      · exact hargs.digits hcmd vlanText hvlanText _ hfirst
  · exact ⟨n, hu'⟩

end Runs

/-- **The management VLAN is never lost**: from a configuration whose management VLAN is
written in digits and has a section with ports, every run of the script whose changes
of the management VLAN name such VLANs leaves it with a section and ports, whatever the
other arguments are and wherever a command stops with an error. -/
theorem management_vlan_kept (N : Type) [LuaNumber N] (u : Uci) (n : Nat)
    (cmds : List ScriptArgs) (hu : u.ManagedBy (Nat.toDigits 10 n))
    (hcmds : ∀ args ∈ cmds, args.Plain N) :
    Runs.Always (script N) (fun u => ∃ vlan, u.ManagedBy vlan) u cmds := by
  have hrun : Runs.Always (script N) (fun u => ∃ n, u.ManagedBy (Nat.toDigits 10 n)) u cmds :=
    Runs.always_of_meets (fun _ _ ⟨_, hu⟩ hargs => managedBy_script hu hargs) ⟨n, hu⟩
      (Runs.meets_of_forall fun args hargs _ => hcmds args hargs)
  exact hrun.mono fun u ⟨n, hu⟩ => ⟨Nat.toDigits 10 n, hu⟩

/-! ## Two runs -/

/-- Numbers with at most four digits behind the point, in ten-thousandths.  As long as
there are not more than ten before it, Lua's numbers behave like these. -/
structure FixedPoint where
  units : Nat
deriving DecidableEq, Repr

namespace FixedPoint

def ofNat (n : Nat) : FixedPoint := ⟨n * 10000⟩

/-- Digits, perhaps with a point and some more behind it. -/
def read (s : List Char) : Option FixedPoint :=
  match s.splitOn '.' with
  | [whole] =>
    if whole ≠ [] ∧ whole.all Char.isDigit then some (ofNat (tonumber whole)) else none
  | [whole, frac] =>
    if whole ≠ [] ∧ (whole ++ frac).all Char.isDigit ∧ frac.length ≤ 4 then
      some ⟨tonumber (whole ++ frac ++ List.replicate (4 - frac.length) '0')⟩
    else none
  | _ => none

def print (x : FixedPoint) : List Char :=
  Nat.toDigits 10 (x.units / 10000) ++
    if x.units % 10000 = 0 then []
    else '.' :: ((Nat.toDigits 10 (10000 + x.units % 10000)).drop 1).rdropWhile (· = '0')

def loop (first last : FixedPoint) : List FixedPoint :=
  (List.range' first.units ((last.units + 10000 - first.units) / 10000) 10000).map mk

theorem loop_ne_nil {first last : FixedPoint} {n : Nat} (hfirst : first.units ≤ n * 10000)
    (hlast : n * 10000 ≤ last.units) : loop first last ≠ [] := by
  have hlen : (last.units + 10000 - first.units) / 10000 ≠ 0 := by
    rw [Nat.div_ne_zero_iff]
    omega
  simp [loop, hlen]

end FixedPoint

instance : LuaNumber FixedPoint where
  ofNat := FixedPoint.ofNat
  tonumber := FixedPoint.read
  tostring := FixedPoint.print
  eq x y := x = y
  lt x y := x.units < y.units
  forLoop := FixedPoint.loop
  Finite _ := True
  tostring_one := rfl
  eq_digits _ := by simp
  forLoop_ne_nil _ _ hfirst hlast := by
    rw [decide_eq_false_iff_not, Nat.not_lt] at hfirst hlast
    exact FixedPoint.loop_ne_nil hfirst hlast
  finite_one := trivial

/-- One VLAN, which is the management VLAN. -/
def exampleUci : Uci where
  sections := [⟨1, some "1".toList, ["lan1".toList, "lan2".toList], none, none⟩]
  device := some "switch.1".toList
  names_nodup := by decide

/-- The arguments of a command. -/
def scriptArgs (vlanRange : String) (cmd : Cmd) (portList : String) : ScriptArgs :=
  ⟨some vlanRange.toList, some cmd, some portList.toList⟩

/-- All ports are taken away from the management VLAN, and then the VLAN itself; another
VLAN takes its place, and the same is tried again. -/
def removeAll : List ScriptArgs :=
  [scriptArgs "1" (.edit .notMemb) "1-8", scriptArgs "1" .delete "0",
    scriptArgs "2" (.add .untagged) "3", scriptArgs "2" .mngtVlan "0",
    scriptArgs "2" (.edit .notMemb) "1-8", scriptArgs "1-2" .delete "0"]

theorem management_vlan_kept_removeAll :
    exampleUci.ManagedBy (Nat.toDigits 10 1) ∧ (∀ args ∈ removeAll, args.Plain FixedPoint) ∧
      Runs.Always (script FixedPoint) (fun u => ∃ vlan, u.ManagedBy vlan) exampleUci
        removeAll := by
  have hu : exampleUci.ManagedBy (Nat.toDigits 10 1) := by decide
  have htwo : rangeNumbers FixedPoint "2".toList = [.ofNat 2] := by decide
  have hcmds : ∀ args ∈ removeAll, args.Plain FixedPoint := by
    intro args hargs
    refine ⟨fun _ _ _ _ => trivial, fun hcmd range hrange x hx => ?_⟩
    have hrange2 : range = "2".toList := by
      simp only [removeAll, List.mem_cons, List.not_mem_nil, or_false] at hargs
      rcases hargs with rfl | rfl | rfl | rfl | rfl | rfl <;> simp_all [scriptArgs]
    rw [hrange2, htwo, List.mem_singleton] at hx
    exact ⟨2, by rw [hx]; decide⟩
  exact ⟨hu, hcmds, management_vlan_kept FixedPoint exampleUci 1 removeAll hu hcmds⟩

/-- VLAN 1.5 is created, becomes the management VLAN and is deleted. -/
def deleteFraction : List ScriptArgs :=
  [scriptArgs "1.5" (.add .untagged) "3", scriptArgs "1.5" .mngtVlan "0",
    scriptArgs "1.5" .delete "0"]

/-- `vlan_delete` takes `switch.1.5` for VLAN 1. -/
theorem management_vlan_lost :
    ¬ ∀ (u : Uci) (n : Nat) (cmds : List ScriptArgs), u.ManagedBy (Nat.toDigits 10 n) →
      Runs.Always (script FixedPoint) (fun u => ∃ vlan, u.ManagedBy vlan) u cmds := by
  intro h
  obtain ⟨vlan, hdevice, s, hs, hvlan, -⟩ := (h exampleUci 1 deleteFraction (by decide)).last
  have hend : (Runs.exec (script FixedPoint) exampleUci deleteFraction).device =
      some (devName "1.5".toList) := by decide
  have hnone : ∀ s ∈ (Runs.exec (script FixedPoint) exampleUci deleteFraction).sections,
      s.vlan ≠ some "1.5".toList := by decide
  rw [hend] at hdevice
  have hfraction : "1.5".toList = vlan := List.append_cancel_left (Option.some.inj hdevice)
  exact hnone s hs (hvlan.trans (congrArg some hfraction.symm))

end TfPackages.Vlan
