import TfPackages.PoeReplies

/-! # The configuration of the PoE daemon

`config_load` fills the port table from two uci packages.  A `port` section of
package `poe` says which entry a port has, by its `id`; the `lan` sections of
package `port` say whether it is enabled, the first section for the first entry,
the second for the second.  The table is cleared before every load; `port_count`
is not, and only grows.

A load is a fold over the sections of the two packages.  `ports_configLoad`,
`portCount_le_iff` and `written_configLoad` say what the three parts of the
configuration become, and the results about sequences of loads use only these.

Where package `port` cannot be loaded, the pointer to package `poe` is unloaded a second
time; what libuci does then is left out, and the load is taken to go on.
-/
namespace TfPackages.Poe
open CStrings

/-- `struct uci_section`, with its string options. -/
structure Section where
  type : List UInt8
  name : List UInt8
  options : List (List UInt8 × List UInt8)
deriving DecidableEq, Repr

/-- `uci_lookup_option_string`. -/
def uciLookupOptionString (s : Section) (option : String) : Option (List UInt8) :=
  s.options.lookup (lit option)

/-- What the two packages hold at a load; `none` where `uci_load` fails. -/
structure Contents where
  poe : Option (List Section)
  port : Option (List Section)
deriving DecidableEq, Repr

/-- `struct port_config`. -/
structure PortConfig where
  name : List UInt8
  valid : Bool
  enable : Bool
  priority : UInt8
  powerUpMode : UInt8
  powerBudget : UInt8
deriving DecidableEq, Repr

/-- An entry after `memset`. -/
def PortConfig.zero : PortConfig where
  name := List.replicate 16 0
  valid := false
  enable := false
  priority := 0
  powerUpMode := 0
  powerBudget := 0

/-- `struct config`.  The two budgets are kept as the texts `strtof` reads. -/
structure Config where
  budgets : Option (Option (List UInt8) × Option (List UInt8))
  portCount : Nat
  ports : Vector PortConfig maxPort
  /-- The indices into `ports` written so far. -/
  written : List Nat
deriving DecidableEq, Repr

/-- The configuration a daemon starts with. -/
def Config.fresh : Config where
  budgets := none
  portCount := 0
  ports := Vector.replicate maxPort .zero
  written := []

/-- A write to `config.ports[i]`; outside the table no entry changes. -/
def Config.modifyPort (c : Config) (i : Nat) (f : PortConfig → PortConfig) : Config :=
  { c with
    ports := Vector.ofFn fun j => if j = i then f c.ports[j] else c.ports[j]
    written := c.written ++ [i] }

/-- `load_port_config` -/
def loadPortConfig (c : Config) (s : Section) : Config :=
  match uciLookupOptionString s "id", uciLookupOptionString s "name" with
  | some idStr, some name =>
    let id := strtoul idStr
    if id = 0 ∨ id > maxPort then c
    else
      let priority : UInt8 := match uciLookupOptionString s "priority" with
        | some priority => UInt8.ofNat (strtoul priority)
        | none => 0
      let c := { c with portCount := max c.portCount id }
      c.modifyPort (id - 1) fun p => { p with
        name := strncpy 16 name
        valid := true
        priority := if priority > 3 then 3 else priority
        enable := true
        powerUpMode :=
          if uciLookupOptionString s "poe_plus" = some (lit "1") then 3 else p.powerUpMode }
  | _, _ => c

/-- The flag `load_port_state_config` reads off a section. -/
def poeEnabled (s : Section) : Bool := uciLookupOptionString s "poe" = some (lit "enable")

/-- `load_port_state_config` -/
def loadPortStateConfig (c : Config) (s : Section) (port : Nat) : Config :=
  c.modifyPort port fun p => { p with enable := poeEnabled s }

/-- `load_global_config` -/
def loadGlobalConfig (c : Config) (s : Section) : Config :=
  { c with budgets := some (uciLookupOptionString s "budget", uciLookupOptionString s "guard") }

/-- The sections of a type, in the order of the file. -/
def sectionsOf (package : Option (List Section)) (type : String) : List Section :=
  (package.getD []).filter (·.type = lit type)

/-- `config_load` -/
def configLoad (init : Bool) (c : Config) (x : Contents) : Config :=
  let c := { c with ports := Vector.replicate maxPort .zero }
  let c := if init then (sectionsOf x.poe "global").foldl loadGlobalConfig c else c
  let c := (sectionsOf x.poe "port").foldl loadPortConfig c
  (sectionsOf x.port "lan").zipIdx.foldl (fun c s => loadPortStateConfig c s.1 s.2) c

/-- A daemon started with `first` and reloaded with each of `rest`. -/
def configLoads (first : Contents) (rest : List Contents) : Config :=
  rest.foldl (configLoad false) (configLoad true .fresh first)

/-- The contents of the last load. -/
def lastContents (first : Contents) (rest : List Contents) : Contents := rest.getLastD first

/-! ## What a section and a package say -/

/-- The id a `port` section gives its port, if it is accepted. -/
def portId? (s : Section) : Option Nat :=
  match uciLookupOptionString s "id", uciLookupOptionString s "name" with
  | some idStr, some _ =>
    if strtoul idStr = 0 ∨ strtoul idStr > maxPort then none else some (strtoul idStr)
  | _, _ => none

/-- The accepted ids of a package `poe`. -/
def Contents.portIds (x : Contents) : List Nat := (sectionsOf x.poe "port").filterMap portId?

/-- The `lan` sections of a package `port`. -/
def Contents.lanSections (x : Contents) : List Section := sectionsOf x.port "lan"

/-- The name of the port with index `i`: that of the last section with its id. -/
def Contents.portName (x : Contents) (i : Nat) : Option (List UInt8) :=
  ((sectionsOf x.poe "port").reverse.find? fun s => portId? s = some (i + 1)).bind
    (uciLookupOptionString · "name")

/-- The flag a port gets from the section that decides on it; a port no section
decides on is enabled. -/
def flagFrom (s : Option Section) : Bool := (s.map poeEnabled).getD true

theorem portId?_le {s : Section} {id : Nat} (h : portId? s = some id) : 0 < id ∧ id ≤ maxPort := by
  unfold portId? at h
  split at h
  · split at h
    · cases h
    · cases h
      omega
  · cases h

/-- A section that is not accepted changes nothing; one that is writes the entry
of its id. -/
theorem loadPortConfig_cases (s : Section) :
    (portId? s = none ∧ ∀ c, loadPortConfig c s = c) ∨
      ∃ id name f, portId? s = some id ∧ uciLookupOptionString s "name" = some name ∧
        (∀ p, (f p).enable = true ∧ (f p).valid = true ∧ (f p).name = strncpy 16 name) ∧
        ∀ c, loadPortConfig c s =
          { c with portCount := max c.portCount id }.modifyPort (id - 1) f := by
  unfold portId? loadPortConfig
  split
  · rename_i idStr name hid hname
    split
    · rename_i h
      exact Or.inl ⟨rfl, fun c => if_pos h⟩
    · rename_i h
      exact Or.inr ⟨_, _, _, rfl, hname, fun p => ⟨rfl, rfl, rfl⟩, fun c => if_neg h⟩
  · exact Or.inl ⟨rfl, fun c => rfl⟩

/-! ## What a load writes -/

@[simp] theorem getElem_modifyPort (c : Config) (i : Nat) (f : PortConfig → PortConfig) (j : Nat)
    (h : j < maxPort) :
    (c.modifyPort i f).ports[j] = if j = i then f c.ports[j] else c.ports[j] := by
  simp [Config.modifyPort]

theorem ports_modifyPort_congr {c c' : Config} (h : c.ports = c'.ports) (i : Nat)
    (f : PortConfig → PortConfig) : (c.modifyPort i f).ports = (c'.modifyPort i f).ports := by
  simp only [Config.modifyPort, h]

theorem foldl_loadGlobalConfig (l : List Section) (c : Config) :
    ∃ b, l.foldl loadGlobalConfig c = { c with budgets := b } := by
  induction l generalizing c with
  | nil => exact ⟨_, rfl⟩
  | cons s l ih =>
    obtain ⟨b, hb⟩ := ih (loadGlobalConfig c s)
    exact ⟨b, by rw [List.foldl_cons, hb]; rfl⟩

/-- A load up to the `lan` sections. -/
theorem exists_configLoad_eq (init : Bool) (c : Config) (x : Contents) :
    ∃ b, configLoad init c x =
      x.lanSections.zipIdx.foldl (fun c s => loadPortStateConfig c s.1 s.2)
        ((sectionsOf x.poe "port").foldl loadPortConfig
          { c with budgets := b, ports := Vector.replicate maxPort .zero }) := by
  unfold configLoad Contents.lanSections
  cases init with
  | false => exact ⟨c.budgets, rfl⟩
  | true =>
    obtain ⟨b, hb⟩ := foldl_loadGlobalConfig (sectionsOf x.poe "global")
      { c with ports := Vector.replicate maxPort .zero }
    exact ⟨b, by simp only [if_true, hb]⟩

theorem ports_foldl_loadPortConfig (l : List Section) {c c' : Config} (h : c.ports = c'.ports) :
    (l.foldl loadPortConfig c).ports = (l.foldl loadPortConfig c').ports := by
  induction l generalizing c c' with
  | nil => exact h
  | cons s l ih =>
    refine ih ?_
    rcases loadPortConfig_cases s with ⟨-, hs⟩ | ⟨id, name, f, -, -, -, hs⟩
    · rw [hs, hs, h]
    · rw [hs, hs]
      exact ports_modifyPort_congr h _ _

theorem ports_foldl_loadPortStateConfig (l : List (Section × Nat)) {c c' : Config}
    (h : c.ports = c'.ports) :
    (l.foldl (fun c s => loadPortStateConfig c s.1 s.2) c).ports =
      (l.foldl (fun c s => loadPortStateConfig c s.1 s.2) c').ports := by
  induction l generalizing c c' with
  | nil => exact h
  | cons s l ih =>
    rw [List.foldl_cons, List.foldl_cons]
    refine ih ?_
    unfold loadPortStateConfig
    exact ports_modifyPort_congr h _ _

/-- The table after a load does not depend on what the daemon held before. -/
theorem ports_configLoad (init init' : Bool) (c c' : Config) (x : Contents) :
    (configLoad init c x).ports = (configLoad init' c' x).ports := by
  obtain ⟨b, hb⟩ := exists_configLoad_eq init c x
  obtain ⟨b', hb'⟩ := exists_configLoad_eq init' c' x
  rw [hb, hb']
  exact ports_foldl_loadPortStateConfig _ (ports_foldl_loadPortConfig _ rfl)

theorem foldl_loadPortConfig_portCount_le (l : List Section) (c : Config) (n : Nat) :
    (l.foldl loadPortConfig c).portCount ≤ n ↔
      c.portCount ≤ n ∧ ∀ id ∈ l.filterMap portId?, id ≤ n := by
  induction l generalizing c with
  | nil => simp
  | cons s l ih =>
    rw [List.foldl_cons, ih]
    rcases loadPortConfig_cases s with ⟨hid, hs⟩ | ⟨id, name, f, hid, -, -, hs⟩
    · rw [hs, List.filterMap_cons_none hid]
    · rw [hs, List.filterMap_cons_some hid, List.forall_mem_cons, ← and_assoc]
      exact and_congr_left fun _ => Nat.max_le

theorem foldl_loadPortConfig_written (l : List Section) (c : Config) :
    (l.foldl loadPortConfig c).written = c.written ++ (l.filterMap portId?).map (· - 1) := by
  induction l generalizing c with
  | nil => simp
  | cons s l ih =>
    rw [List.foldl_cons, ih]
    rcases loadPortConfig_cases s with ⟨hid, hs⟩ | ⟨id, name, f, hid, -, -, hs⟩
    · rw [hs, List.filterMap_cons_none hid]
    · rw [hs, List.filterMap_cons_some hid, List.map_cons, Config.modifyPort, List.append_assoc,
        List.singleton_append]

theorem foldl_loadPortStateConfig (l : List (Section × Nat)) (c : Config) :
    (l.foldl (fun c s => loadPortStateConfig c s.1 s.2) c).portCount = c.portCount ∧
      (l.foldl (fun c s => loadPortStateConfig c s.1 s.2) c).written =
        c.written ++ l.map Prod.snd := by
  induction l generalizing c with
  | nil => simp
  | cons s l ih =>
    obtain ⟨hcount, hwritten⟩ := ih (loadPortStateConfig c s.1 s.2)
    rw [List.foldl_cons, hcount, hwritten, loadPortStateConfig, Config.modifyPort,
      List.append_assoc, List.singleton_append, List.map_cons]
    exact ⟨rfl, rfl⟩

/-- `port_count` after a load is the larger of what it was and the largest id
accepted. -/
theorem portCount_le_iff (init : Bool) (c : Config) (x : Contents) (n : Nat) :
    (configLoad init c x).portCount ≤ n ↔ c.portCount ≤ n ∧ ∀ id ∈ x.portIds, id ≤ n := by
  obtain ⟨b, hb⟩ := exists_configLoad_eq init c x
  rw [hb, (foldl_loadPortStateConfig _ _).1, foldl_loadPortConfig_portCount_le]
  rfl

/-- The entries a load writes: one for each accepted id, then one for each `lan`
section. -/
theorem written_configLoad (init : Bool) (c : Config) (x : Contents) :
    (configLoad init c x).written =
      c.written ++ x.portIds.map (· - 1) ++ List.range x.lanSections.length := by
  obtain ⟨b, hb⟩ := exists_configLoad_eq init c x
  rw [hb, (foldl_loadPortStateConfig _ _).2, foldl_loadPortConfig_written, List.zipIdx_map_snd,
    List.range_eq_range']
  rfl

theorem foldl_loadPortConfig_enable (l : List Section) (c : Config) {i : Nat} (h : i < maxPort) :
    (l.foldl loadPortConfig c).ports[i].enable =
      (c.ports[i].enable || decide (i + 1 ∈ l.filterMap portId?)) := by
  induction l generalizing c with
  | nil => simp
  | cons s l ih =>
    rw [List.foldl_cons, ih]
    rcases loadPortConfig_cases s with ⟨hid, hs⟩ | ⟨id, name, f, hid, -, hf, hs⟩
    · rw [hs, List.filterMap_cons_none hid]
    · have hpos := (portId?_le hid).1
      rw [hs, List.filterMap_cons_some hid, getElem_modifyPort]
      by_cases hi : i = id - 1
      · simp [hi, (hf _).1, show id - 1 + 1 = id by omega]
      · simp [hi, show i + 1 ≠ id by omega]

theorem foldl_loadPortStateConfig_enable (l : List Section) (k : Nat) (c : Config) {i : Nat}
    (h : i < maxPort) :
    ((l.zipIdx k).foldl (fun c s => loadPortStateConfig c s.1 s.2) c).ports[i].enable =
      if i < k then c.ports[i].enable
      else (l[i - k]?.map poeEnabled).getD c.ports[i].enable := by
  induction l generalizing k c with
  | nil => simp
  | cons s l ih =>
    rw [List.zipIdx_cons, List.foldl_cons, ih, loadPortStateConfig, getElem_modifyPort]
    rcases Nat.lt_trichotomy i k with hik | rfl | hik
    · simp [hik, Nat.lt_succ_of_lt hik, hik.ne]
    · simp
    · obtain ⟨d, rfl⟩ := Nat.exists_eq_add_of_lt hik
      have hsucc : k + d + 1 - k = d + 1 := by omega
      have hpred : k + d + 1 - (k + 1) = d := by omega
      rw [if_neg (by omega), if_neg (by omega), if_neg (by omega), hsucc, hpred,
        List.getElem?_cons_succ]

/-- **Which flag an entry gets.**  That of the `lan` section with its place in
the file; an entry without one is enabled if a port has it. -/
theorem enable_configLoad (init : Bool) (c : Config) (x : Contents) {i : Nat} (h : i < maxPort) :
    (configLoad init c x).ports[i].enable =
      (x.lanSections[i]?.map poeEnabled).getD (decide (i + 1 ∈ x.portIds)) := by
  obtain ⟨b, hb⟩ := exists_configLoad_eq init c x
  simp only [hb]
  rw [foldl_loadPortStateConfig_enable, if_neg (Nat.not_lt_zero i), foldl_loadPortConfig_enable]
  simp [Contents.portIds, PortConfig.zero]

theorem portName_eq_some {x : Contents} {i : Nat} {n : List UInt8} (h : x.portName i = some n) :
    i + 1 ∈ x.portIds := by
  unfold Contents.portName at h
  obtain ⟨s, hs, -⟩ := Option.bind_eq_some_iff.mp h
  exact List.mem_filterMap.mpr
    ⟨s, List.mem_reverse.mp (List.mem_of_find?_eq_some hs), by simpa using List.find?_some hs⟩

/-! ## Sequences of loads -/

/-- What a daemon holds after its loads is what a fresh one would compute, every
port is enabled or not by the `lan` section with its name, and every write was
inside the table. -/
structure LoadsAsFresh (first : Contents) (rest : List Contents) : Prop where
  ports : (configLoads first rest).ports =
    (configLoad true .fresh (lastContents first rest)).ports
  portCount : (configLoads first rest).portCount =
    (configLoad true .fresh (lastContents first rest)).portCount
  enable : ∀ i n, (lastContents first rest).portName i = some n → ∀ h : i < maxPort,
    (configLoads first rest).ports[i].enable =
      flagFrom ((lastContents first rest).lanSections.find? (·.name = n))
  written : ∀ i ∈ (configLoads first rest).written, i < maxPort

/-- No earlier contents had a larger id than the last, the section in the place
of a port says the same as the section with its name, and no contents had more
`lan` sections than there are entries. -/
structure InPlace (first : Contents) (rest : List Contents) : Prop where
  ids : ∀ x ∈ first :: rest, ∀ id ∈ x.portIds,
    ∃ id' ∈ (lastContents first rest).portIds, id ≤ id'
  flags : ∀ i n, (lastContents first rest).portName i = some n →
    flagFrom (lastContents first rest).lanSections[i]? =
      flagFrom ((lastContents first rest).lanSections.find? (·.name = n))
  sections : ∀ x ∈ first :: rest, x.lanSections.length ≤ maxPort

theorem configLoads_concat (first : Contents) (rest : List Contents) (x : Contents) :
    configLoads first (rest ++ [x]) = configLoad false (configLoads first rest) x := by
  rw [configLoads, List.foldl_concat]
  rfl

theorem portCount_configLoads_le_iff (first : Contents) (rest : List Contents) (n : Nat) :
    (configLoads first rest).portCount ≤ n ↔ ∀ x ∈ first :: rest, ∀ id ∈ x.portIds, id ≤ n := by
  induction rest using List.reverseRecOn with
  | nil => simp [configLoads, portCount_le_iff, Config.fresh]
  | append_singleton rest x ih =>
    rw [configLoads_concat, portCount_le_iff, ih, ← List.cons_append, List.forall_mem_append,
      List.forall_mem_singleton]

theorem written_configLoads_iff (first : Contents) (rest : List Contents) :
    (∀ i ∈ (configLoads first rest).written, i < maxPort) ↔
      ∀ x ∈ first :: rest, x.lanSections.length ≤ maxPort := by
  have hload : ∀ init c x, (∀ i ∈ (configLoad init c x).written, i < maxPort) ↔
      (∀ i ∈ c.written, i < maxPort) ∧ x.lanSections.length ≤ maxPort := by
    intro init c x
    rw [written_configLoad, List.forall_mem_append, List.forall_mem_append, and_assoc]
    refine and_congr_right fun _ => ?_
    constructor
    · intro h
      by_contra hlen
      exact absurd (h.2 maxPort (List.mem_range.mpr (by omega))) (lt_irrefl _)
    · intro h
      refine ⟨?_, fun i hi => lt_of_lt_of_le (List.mem_range.mp hi) h⟩
      intro i hi
      obtain ⟨id, hid, rfl⟩ := List.mem_map.mp hi
      obtain ⟨s, -, hs⟩ := List.mem_filterMap.mp hid
      have := portId?_le hs
      omega
  induction rest using List.reverseRecOn with
  | nil => simp [configLoads, hload, Config.fresh]
  | append_singleton rest x ih =>
    rw [configLoads_concat, ← List.cons_append, List.forall_mem_append, List.forall_mem_singleton]
    exact (hload _ _ _).trans (and_congr_left' ih)

theorem ports_configLoads (first : Contents) (rest : List Contents) :
    (configLoads first rest).ports = (configLoad true .fresh (lastContents first rest)).ports := by
  induction rest using List.reverseRecOn with
  | nil => rfl
  | append_singleton rest x _ =>
    rw [configLoads_concat, lastContents, List.getLastD_concat]
    exact ports_configLoad _ _ _ _ _

theorem lastContents_mem (first : Contents) (rest : List Contents) :
    lastContents first rest ∈ first :: rest := by
  induction rest using List.reverseRecOn with
  | nil => exact List.mem_singleton_self _
  | append_singleton rest x _ => simp [lastContents]

/-- The counts agree exactly if no contents had a larger id than the last. -/
theorem portCount_configLoads_iff (first : Contents) (rest : List Contents) :
    (configLoads first rest).portCount =
        (configLoad true .fresh (lastContents first rest)).portCount ↔
      ∀ x ∈ first :: rest, ∀ id ∈ x.portIds,
        ∃ id' ∈ (lastContents first rest).portIds, id ≤ id' := by
  have hfresh : ∀ n, (configLoad true .fresh (lastContents first rest)).portCount ≤ n ↔
      ∀ id ∈ (lastContents first rest).portIds, id ≤ n := by
    intro n
    rw [portCount_le_iff]
    exact and_iff_right (Nat.zero_le n)
  have hge : (configLoad true .fresh (lastContents first rest)).portCount ≤
      (configLoads first rest).portCount := by
    rw [hfresh]
    intro id hid
    have hall := (portCount_configLoads_le_iff first rest _).mp le_rfl
    exact hall _ (lastContents_mem first rest) id hid
  rw [le_antisymm_iff, and_iff_left hge, portCount_configLoads_le_iff]
  refine forall₂_congr fun x _ => forall₂_congr fun id hid => ?_
  have hpos : 0 < id := by
    obtain ⟨s, -, hs⟩ := List.mem_filterMap.mp hid
    exact (portId?_le hs).1
  rw [← not_iff_not, not_le, ← Nat.le_sub_one_iff_lt hpos, hfresh]
  simp only [not_exists, not_and, not_le]
  exact forall₂_congr fun id' _ => Nat.le_sub_one_iff_lt hpos

/-- **A reload is a restart exactly if the files stay in place.** -/
theorem loadsAsFresh_iff (first : Contents) (rest : List Contents) :
    LoadsAsFresh first rest ↔ InPlace first rest := by
  have henable : ∀ i n, (lastContents first rest).portName i = some n → ∀ h : i < maxPort,
      (configLoads first rest).ports[i].enable =
        flagFrom (lastContents first rest).lanSections[i]? := by
    intro i n hn h
    simp only [ports_configLoads]
    rw [enable_configLoad, decide_eq_true (portName_eq_some hn)]
    rfl
  constructor
  · intro h
    refine ⟨(portCount_configLoads_iff first rest).mp h.portCount, ?_,
      (written_configLoads_iff first rest).mp h.written⟩
    intro i n hn
    have hi : i < maxPort := by
      obtain ⟨s, -, hs⟩ := List.mem_filterMap.mp (portName_eq_some hn)
      have := portId?_le hs
      omega
    rw [← henable i n hn hi]
    exact h.enable i n hn hi
  · intro h
    refine ⟨ports_configLoads first rest, (portCount_configLoads_iff first rest).mpr h.ids, ?_,
      (written_configLoads_iff first rest).mpr h.sections⟩
    intro i n hn hi
    rw [henable i n hn hi]
    exact h.flags i n hn

/-- Two ports and the `lan` sections of package `port` in the other order, with
`lan1` enabled and `lan2` not. -/
def swappedLanSections : Contents where
  poe := some
    [⟨lit "port", lit "port1", [(lit "id", lit "1"), (lit "name", lit "lan1")]⟩,
      ⟨lit "port", lit "port2", [(lit "id", lit "2"), (lit "name", lit "lan2")]⟩]
  port := some
    [⟨lit "lan", lit "lan2", [(lit "poe", lit "disable")]⟩,
      ⟨lit "lan", lit "lan1", [(lit "poe", lit "enable")]⟩]

/-- With the sections swapped the first load already enables the wrong port. -/
theorem swapped_sections_not_loadsAsFresh :
    ¬ ∀ first rest, LoadsAsFresh first rest := by
  intro h
  have henable := (h swappedLanSections []).enable 0 (lit "lan1") (by decide) (by decide)
  exact absurd henable (by decide)

end TfPackages.Poe
