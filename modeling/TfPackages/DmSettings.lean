import TfPackages.DmParsing
import Mathlib.Data.List.Range

/-! # Executing the settings of a datagram

The body of an authenticated settings request is a text of items `NAME=VALUE`,
separated by `#`.  The client splits it, builds one table entry for each item and
then calls one handler for each entry.  `runSettings` follows the three loops of
the source, on the body as the client has it in memory: `none` stands for a run
that leaves what the language defines — a null token is used, an entry is read
that was never written, or a value is read past the end of its array.

`expected` is the purpose: one call for every item of the form `NAME=VALUE`
whose `NAME` is known, in order.  Calls carry the number of their item.  The two
agree exactly for the bodies that are `Sound`.
-/
namespace TfPackages.Dm

/-- The functions in `runSetingsCmd`. -/
inductive SettingsHandler where
  | runReset
  | runReboot
  | runSetIp
  | runSetMask
  | runSetGate
  | runSetDescription
  | runSetLocation
  | runSetSnmp
  | runSystemRestart
  | runNetworkRestart
deriving DecidableEq, Repr

/-- `settings_Table`: ten names, the last two empty. -/
def settingsTable : List (List UInt8) :=
  ["DEFAULT_ALL", "REBOOT_ALL", "IPADDRESS", "NETMASK", "GATEWAY", "SYSTEM_NAME",
    "SYSTEM_LOCATION", "SNMP_STATE", "", ""].map CStrings.lit

/-- `runSetingsCmd`. -/
def runSetingsCmd : List SettingsHandler :=
  [.runReset, .runReboot, .runSetIp, .runSetMask, .runSetGate, .runSetDescription,
    .runSetLocation, .runSetSnmp, .runSystemRestart, .runNetworkRestart]

def hash : UInt8 := 0x23
def equals : UInt8 := 0x3d

/-- `SETTINGS_VALUE_LENGTH`. -/
def settingsValueLength : Nat := 128

/-- `DYNAMIC_MAP_CMD`, with the number of the item it was made from. -/
structure MapCmd where
  item : Nat
  cmd : Nat
  value : List UInt8
deriving DecidableEq, Repr

/-- A call of a handler: for which item, which handler, with which text. -/
structure Call where
  item : Nat
  handler : SettingsHandler
  value : List UInt8
deriving DecidableEq, Repr

/-- `getCmdType`: the table index and the value field it writes, `some none` if
it writes nothing, `none` if it uses a null token. -/
def getCmdType (splitedLine : SplitedLine) : Option (Option (Nat × List UInt8)) :=
  match splitedLine.tokens 0 with
  | .token _ name =>
    match settingsTable.idxOf? name with
    | none => some none
    | some i =>
      match splitedLine.tokens 1 with
      | .token _ value => some (some (i, CStrings.strncpy settingsValueLength value))
      | _ => none
  | _ => none

/-- The body of the loop of `getSettingsCmdArray`.  For a null token `strtok`
goes on where the last call stopped, at the end of the line. -/
def getSettingsCmd : Slot → Option (Option MapCmd)
  | .token num text =>
    (getCmdType (splitLine text equals)).map (Option.map fun e => ⟨num, e.1, e.2⟩)
  | .null => (getCmdType (splitTokens [])).map fun _ => none
  | .unset => none

/-- The slots visited by `for (i = 0; i <= splitLineMax; i++)`. -/
def SplitedLine.slots (s : SplitedLine) : List Slot :=
  (List.range (s.splitLineMax.toNat + 1)).map fun i => s.tokens (UInt8.ofNat i)

/-- `getSettingsCmdArray`. -/
def getSettingsCmdArray (splitedLine : SplitedLine) : Option (List (Option MapCmd)) :=
  splitedLine.slots.mapM getSettingsCmd

/-- The body of the loop of `settings_handler`. -/
def callHandler : Option MapCmd → Option Call
  | none => none
  | some e => do
    let handler ← runSetingsCmd[e.cmd]?
    let value ← CStrings.field? e.value
    some ⟨e.item, handler, value⟩

/-- `settings_handler`, up to the apply step. -/
def settingsHandler (settingsCmdMap : List (Option MapCmd)) : Option (List Call) :=
  settingsCmdMap.mapM callHandler

/-- The part of `client_settings` that executes a body.  The body is followed by
a NUL in memory. -/
def runSettings (body : List UInt8) : Option (List Call) := do
  let splitedLineData := splitLine (CStrings.text body) hash
  let settingsCmdMap ← getSettingsCmdArray splitedLineData
  settingsHandler settingsCmdMap

/-! ## The purpose -/

/-- A settings body: at most `SETTINGS_MSG_LEN` bytes. -/
structure Body where
  bytes : List UInt8
  length_le : bytes.length ≤ 1024

/-- The items of a body. -/
def items (body : List UInt8) : List (List UInt8) := CStrings.tokens hash body

/-- The handler of a name. -/
def handlerOf (name : List UInt8) : Option SettingsHandler :=
  (settingsTable.idxOf? name).bind fun i => runSetingsCmd[i]?

/-- What an item `NAME=VALUE` with a known `NAME` asks for. -/
def parseSetting (item : List UInt8) : Option (SettingsHandler × List UInt8) :=
  let name := item.takeWhile (· ≠ equals)
  match item.dropWhile (· ≠ equals) with
  | [] => none
  | _ :: value => if name = [] then none else (handlerOf name).map (·, value)

/-- The call an item asks for. -/
def itemCall (body : List UInt8) (j : Nat) : Option Call :=
  ((items body)[j]?.bind parseSetting).map fun s => ⟨j, s.1, s.2⟩

/-- **One call for every setting, in order, and no others.** -/
def expected (body : List UInt8) : List Call :=
  (List.range (items body).length).filterMap (itemCall body)

/-- An item the client handles as it should: a known name, and a value that is
not empty, has no `=` and no NUL in it and fits its field. -/
def WellFormed (item : List UInt8) : Prop :=
  ∃ name value h, name ≠ [] ∧ handlerOf name = some h ∧ item = name ++ equals :: value ∧
    value ≠ [] ∧ equals ∉ value ∧ 0 ∉ value ∧ value.length < settingsValueLength

/-- The number of items the client counts: those before the first NUL. -/
def counted (body : List UInt8) : Nat := (CStrings.tokens hash (CStrings.text body)).length

/-- The condition on a body.  Of `counted` items only the last `counted % 256`
are handled: these have to be well formed, there has to be one, and the others
must not ask for anything. -/
def Sound (body : List UInt8) : Prop :=
  counted body % 256 ≠ 0 ∧ ∀ j item, (items body)[j]? = some item →
    if counted body - counted body % 256 ≤ j ∧ j < counted body then WellFormed item
    else parseSetting item = none

/-! ## One item -/

/-- The loops of `getSettingsCmdArray` and `settings_handler` in one. -/
def slotCall (slot : Slot) : Option Call := (getSettingsCmd slot).bind callHandler

theorem mapM_eq_some_iff {α β : Type} {f : α → Option β} {l : List α} {r : List β} :
    l.mapM f = some r ↔ l.map f = r.map some := by
  induction l generalizing r with
  | nil => cases r <;> simp
  | cons a l ih =>
    rw [List.mapM_cons]
    constructor
    · intro h
      obtain ⟨b, hb, h⟩ := Option.bind_eq_some_iff.mp h
      obtain ⟨bs, hbs, h⟩ := Option.bind_eq_some_iff.mp h
      cases h
      rw [List.map_cons, List.map_cons, hb, ih.mp hbs]
    · intro h
      cases r with
      | nil => simp at h
      | cons b r =>
        rw [List.map_cons, List.map_cons] at h
        obtain ⟨hb, hl⟩ := List.cons.inj h
        rw [hb, ih.mpr hl]
        rfl

theorem exists_of_mem_mapM {α β : Type} {f : α → Option β} {l : List α} {r : List β}
    (h : l.mapM f = some r) {b : β} (hb : b ∈ r) : ∃ a ∈ l, f a = some b := by
  have hmem := List.mem_map_of_mem (f := some) hb
  rw [← mapM_eq_some_iff.mp h] at hmem
  exact List.mem_map.mp hmem

theorem mapM_bind_mapM {α β γ : Type} (f : α → Option β) (g : β → Option γ) (l : List α) :
    (l.mapM f).bind (fun r => r.mapM g) = l.mapM fun a => (f a).bind g := by
  induction l with
  | nil => rfl
  | cons a l ih =>
    rw [List.mapM_cons, List.mapM_cons]
    cases hf : f a with
    | none => rfl
    | some b =>
      cases hg : g b with
      | none =>
        cases hl : l.mapM f with
        | none => simp [hg]
        | some r => simp [hg]
      | some c =>
        rw [← ih]
        cases hl : l.mapM f with
        | none => simp
        | some r => simp [hg]

theorem runSettings_eq (body : List UInt8) :
    runSettings body = (splitLine (CStrings.text body) hash).slots.mapM slotCall :=
  mapM_bind_mapM _ _ _

theorem mem_settingsTable_of_handlerOf {name : List UInt8} {h : SettingsHandler}
    (hn : handlerOf name = some h) : name ∈ settingsTable := by
  obtain ⟨i, hi, -⟩ := Option.bind_eq_some_iff.mp hn
  by_contra hne
  rw [List.idxOf?_eq_none_iff.mpr hne] at hi
  cases hi

theorem equals_not_mem_of_handlerOf {name : List UInt8} {h : SettingsHandler}
    (hn : handlerOf name = some h) : equals ∉ name ∧ (0 : UInt8) ∉ name := by
  have key : ∀ n ∈ settingsTable, equals ∉ n ∧ (0 : UInt8) ∉ n := by decide +kernel
  exact key name (mem_settingsTable_of_handlerOf hn)

/-- **A well-formed item is handled as it should be.** -/
theorem WellFormed.slotCall {item : List UInt8} (hw : WellFormed item) :
    ∃ s, parseSetting item = some s ∧
      ∀ num, Dm.slotCall (.token num item) = some ⟨num, s.1, s.2⟩ := by
  obtain ⟨name, value, h, hne, hh, rfl, hvne, heq, h0, hlen⟩ := hw
  obtain ⟨hname, -⟩ := equals_not_mem_of_handlerOf hh
  have htake : (name ++ equals :: value).takeWhile (· ≠ equals) = name := by
    have hall : name.takeWhile (fun c => decide (c ≠ equals)) = name :=
      List.takeWhile_eq_self_iff.mpr fun c hc => by
        simp only [ne_eq, decide_not, Bool.not_eq_eq_eq_not, Bool.not_true,
          decide_eq_false_iff_not]
        rintro rfl
        exact hname hc
    rw [List.takeWhile_append, hall]
    simp
  have hdrop : (name ++ equals :: value).dropWhile (· ≠ equals) = equals :: value := by
    rw [List.dropWhile_append_of_pos]
    · simp
    · intro c hc
      simp only [ne_eq, decide_not, Bool.not_eq_eq_eq_not, Bool.not_true, decide_eq_false_iff_not]
      rintro rfl
      exact hname hc
  refine ⟨(h, value), ?_, fun num => ?_⟩
  · simp only [parseSetting, htake, hdrop, if_neg hne, hh]
    rfl
  · obtain ⟨i, hi, hrun⟩ := Option.bind_eq_some_iff.mp hh
    have htoks : splitLine (name ++ equals :: value) equals = splitTokens [name, value] := by
      rw [splitLine, CStrings.tokens_pair hname heq hne hvne]
    have hcmd : getCmdType (splitTokens [name, value]) =
        some (some (i, CStrings.strncpy settingsValueLength value)) := by
      simp only [getCmdType]
      have h0 : (splitTokens [name, value]).tokens 0 = .token 0 name := rfl
      have h1 : (splitTokens [name, value]).tokens 1 = .token 1 value := rfl
      rw [h0, h1]
      simp only [hi]
    have hfield : CStrings.field? (CStrings.strncpy settingsValueLength value) = some value := by
      rw [CStrings.field?_strncpy h0, if_pos hlen]
    simp only [Dm.slotCall, getSettingsCmd, htoks, hcmd, Option.map_some, Option.bind_some,
      callHandler, hrun, hfield]
    rfl

/-- **What a call for an item comes from**: a name with a handler, and a value that is
found again in its field. -/
theorem slotCall_eq_some {num : Nat} {t : List UInt8} {c : Call}
    (hc : slotCall (.token num t) = some c) :
    ∃ n name m value, (splitLine t equals).tokens 0 = .token n name ∧
      (splitLine t equals).tokens 1 = .token m value ∧ handlerOf name = some c.handler ∧
      CStrings.field? (CStrings.strncpy settingsValueLength value) = some c.value ∧
      c.item = num := by
  obtain ⟨e, he, hcall⟩ := Option.bind_eq_some_iff.mp hc
  simp only [getSettingsCmd, Option.map_eq_some_iff] at he
  obtain ⟨o, ho, rfl⟩ := he
  unfold getCmdType at ho
  split at ho
  · rename_i n name hname
    split at ho
    · cases ho
      cases hcall
    · rename_i i hi
      split at ho
      · rename_i m value hvalue
        cases ho
        simp only [Option.map_some, callHandler] at hcall
        obtain ⟨h, hh, hcall⟩ := Option.bind_eq_some_iff.mp hcall
        obtain ⟨v, hv, hcall⟩ := Option.bind_eq_some_iff.mp hcall
        cases hcall
        exact ⟨n, name, m, value, hname, hvalue, Option.bind_eq_some_iff.mpr ⟨i, hi, hh⟩, hv, rfl⟩
      · cases ho
  · cases ho

/-- What is called for an item is a token of it that fits its field. -/
theorem slotCall_value {num : Nat} {t : List UInt8} (ht : 0 ∉ t) {c : Call}
    (hc : slotCall (.token num t) = some c) :
    c.item = num ∧ c.value ∈ CStrings.tokens equals t ∧ c.value.length < settingsValueLength := by
  obtain ⟨_, _, _, value, -, hvalue, -, hfield, hitem⟩ := slotCall_eq_some hc
  have hmem : value ∈ CStrings.tokens equals t := mem_of_splitTokens hvalue
  have hv0 : (0 : UInt8) ∉ value := fun h0 => ht (CStrings.mem_of_mem_tokens hmem h0)
  rw [CStrings.field?_strncpy hv0] at hfield
  split at hfield
  case isTrue hlen =>
    cases hfield
    exact ⟨hitem, hmem, hlen⟩
  case isFalse => cases hfield

/-- What is called for an item is the handler of the name that is looked up. -/
theorem slotCall_name {num : Nat} {t : List UInt8} {c : Call}
    (hc : slotCall (.token num t) = some c) :
    ∃ n name, (splitLine t equals).tokens 0 = .token n name ∧
      handlerOf name = some c.handler := by
  obtain ⟨n, name, _, _, hname, -, hhandler, -, -⟩ := slotCall_eq_some hc
  exact ⟨n, name, hname, hhandler⟩

/-- No handler is called for a null token. -/
theorem slotCall_null : slotCall .null = none := rfl

/-- An item whose setting is a token of a C string is well formed. -/
theorem wellFormed_of_parseSetting {item : List UInt8} {s : SettingsHandler × List UInt8}
    (hs : parseSetting item = some s) (hne : s.2 ≠ []) (heq : equals ∉ s.2) (h0 : 0 ∉ s.2)
    (hlen : s.2.length < settingsValueLength) : WellFormed item := by
  simp only [parseSetting] at hs
  split at hs
  · cases hs
  · rename_i c value hdrop
    split at hs
    · cases hs
    · rename_i hname
      obtain ⟨h, hh, rfl⟩ := Option.map_eq_some_iff.mp hs
      have hc : c = equals := by
        have hhead := List.head_dropWhile_not (fun c => decide (c ≠ equals))
          (l := item) (by rw [hdrop]; simp)
        simp only [hdrop, List.head_cons] at hhead
        simpa using hhead
      refine ⟨_, value, h, hname, hh, ?_, hne, heq, h0, hlen⟩
      rw [hc] at hdrop
      rw [← hdrop, List.takeWhile_append_dropWhile]

/-! ## The whole body -/

/-- An item the client counts is the item of the body, or it is cut off by a
NUL. -/
theorem counted_item (body : List UInt8) {j : Nat} {t : List UInt8}
    (ht : (CStrings.tokens hash (CStrings.text body))[j]? = some t) :
    ∃ rest, (items body)[j]? = some (t ++ rest) ∧ (rest = [] ∨ ∃ r, rest = 0 :: r) := by
  rcases CStrings.text_append_rest body with heq | ⟨rest, heq⟩
  · rw [heq] at ht
    exact ⟨[], by rw [List.append_nil]; exact ht, Or.inl rfl⟩
  · obtain ⟨kept, last, p, more, htoks, hitems⟩ :=
      CStrings.tokens_append_cons hash (CStrings.text body) rest (c := 0) (by decide)
    rw [← heq] at hitems
    rw [htoks] at ht
    unfold items
    rw [hitems]
    by_cases hj : j < kept.length
    · -- before the NUL the items are those of the body
      rw [List.getElem?_append_left hj] at ht ⊢
      exact ⟨[], by rw [List.append_nil]; exact ht, Or.inl rfl⟩
    · rw [List.getElem?_append_right (by omega)] at ht ⊢
      by_cases hl : last = []
      · simp [hl] at ht
      · rw [if_neg hl] at ht
        obtain ⟨hlt, hlast⟩ := List.getElem?_eq_some_iff.mp ht
        have hzero : j - kept.length = 0 := by
          simp only [List.length_singleton] at hlt
          omega
        rw [hzero]
        simp only [hzero, List.getElem_cons_zero] at hlast
        exact ⟨0 :: p, by simp [hlast], Or.inr ⟨p, rfl⟩⟩

theorem counted_le (body : List UInt8) : counted body ≤ (items body).length := by
  by_contra hlt
  have ht := List.getElem?_eq_getElem (Nat.lt_of_not_le hlt)
  obtain ⟨rest, hrest, -⟩ := counted_item body ht
  simp at hrest

/-- The slots of the body, when one is handled at all: the counted items of the
last incomplete round. -/
theorem slot_eq (body : List UInt8) {i : Nat} (hi : i < counted body % 256) :
    ∃ t, (CStrings.tokens hash (CStrings.text body))[counted body - counted body % 256 + i]? =
        some t ∧
      (splitLine (CStrings.text body) hash).tokens (UInt8.ofNat i) =
        .token (counted body - counted body % 256 + i) t :=
  splitTokens_tokens _ hi

theorem visited_eq (body : List UInt8) :
    (splitLine (CStrings.text body) hash).splitLineMax.toNat + 1 =
      if counted body % 256 = 0 then 256 else counted body % 256 :=
  splitTokens_visited _

theorem slots_eq {body : List UInt8} (hm : counted body % 256 ≠ 0) :
    (splitLine (CStrings.text body) hash).slots = (List.range (counted body % 256)).map fun i =>
      (splitLine (CStrings.text body) hash).tokens (UInt8.ofNat i) := by
  have hvisited := visited_eq body
  rw [if_neg hm] at hvisited
  rw [SplitedLine.slots, hvisited]

/-- Without an incomplete round all 256 slots are visited, and the first is null. -/
theorem null_mem_slots {body : List UInt8} (hm : counted body % 256 = 0) :
    Slot.null ∈ (splitLine (CStrings.text body) hash).slots := by
  have hnull : (splitLine (CStrings.text body) hash).tokens (UInt8.ofNat 0) = .null := by
    have := splitTokens_null (CStrings.tokens hash (CStrings.text body))
    rwa [← ofNat_mod, show (CStrings.tokens hash (CStrings.text body)).length % 256 = 0 from hm]
      at this
  rw [SplitedLine.slots]
  refine List.mem_map.mpr ⟨0, ?_, hnull⟩
  rw [List.mem_range]
  omega

theorem mem_expected_iff {body : List UInt8} {c : Call} :
    c ∈ expected body ↔ ∃ item, (items body)[c.item]? = some item ∧
      parseSetting item = some (c.handler, c.value) := by
  simp only [expected, List.mem_filterMap, List.mem_range, itemCall, Option.map_eq_some_iff,
    Option.bind_eq_some_iff]
  constructor
  · rintro ⟨j, -, s, ⟨item, hitem, hs⟩, rfl⟩
    exact ⟨item, hitem, hs⟩
  · rintro ⟨item, hitem, hs⟩
    exact ⟨c.item, (List.getElem?_eq_some_iff.mp hitem).1, _, ⟨item, hitem, hs⟩, rfl⟩

/-- The calls of a sound body are made for the items of the last round. -/
theorem expected_of_sound {body : List UInt8} (h : Sound body) :
    expected body = (List.range (counted body % 256)).filterMap fun i =>
      itemCall body (counted body - counted body % 256 + i) := by
  have hle := counted_le body
  obtain ⟨hm, hitems⟩ := h
  have hnone : ∀ j, ¬ (counted body - counted body % 256 ≤ j ∧ j < counted body) →
      itemCall body j = none := by
    intro j hj
    cases hitem : (items body)[j]? with
    | none => simp [itemCall, hitem]
    | some item =>
      have hp := hitems j item hitem
      rw [if_neg hj] at hp
      simp [itemCall, hitem, hp]
  -- the items in front of the last round, those of it, and those behind the NUL
  obtain ⟨base, hbase⟩ : ∃ base, base = counted body - counted body % 256 := ⟨_, rfl⟩
  obtain ⟨after, hafter⟩ : ∃ after, after = (items body).length - counted body := ⟨_, rfl⟩
  have hlen : (items body).length = base + counted body % 256 + after := by omega
  rw [expected, hlen, List.range_add, List.range_add, List.filterMap_append, List.filterMap_append,
    List.filterMap_map, List.filterMap_map, ← hbase]
  have hfirst : (List.range base).filterMap (itemCall body) = [] := by
    refine List.filterMap_eq_nil_iff.mpr fun j hj => hnone j ?_
    rw [List.mem_range] at hj
    omega
  have hlast : (List.range after).filterMap
      (itemCall body ∘ fun x => base + counted body % 256 + x) = [] := by
    refine List.filterMap_eq_nil_iff.mpr fun j _ => hnone (base + counted body % 256 + j) ?_
    omega
  rw [hfirst, hlast, List.nil_append, List.append_nil]
  rfl

/-- In a sound body the slot of an item calls what the item asks for. -/
theorem slotCall_of_sound {body : List UInt8} (h : Sound body) {i : Nat}
    (hi : i < counted body % 256) :
    ∃ c, slotCall ((splitLine (CStrings.text body) hash).tokens (UInt8.ofNat i)) = some c ∧
      itemCall body (counted body - counted body % 256 + i) = some c := by
  obtain ⟨t, ht, hslot⟩ := slot_eq body hi
  obtain ⟨rest, hitem, hrest⟩ := counted_item body ht
  have hwf := h.2 _ _ hitem
  rw [if_pos ⟨by omega, by omega⟩] at hwf
  -- a well-formed item has no NUL, so it was not cut off
  have hrest : rest = [] := by
    rcases hrest with hnil | ⟨r, hr⟩
    · exact hnil
    · exfalso
      obtain ⟨name, value, hd, -, hh, heq, -, -, h0, -⟩ := hwf
      have hmem : (0 : UInt8) ∈ name ++ equals :: value := by
        rw [← heq, hr]
        simp
      rcases List.mem_append.mp hmem with hn | hv
      · exact (equals_not_mem_of_handlerOf hh).2 hn
      · rcases List.mem_cons.mp hv with hv | hv
        · exact absurd hv (by decide)
        · exact h0 hv
  rw [hrest, List.append_nil] at hitem hwf
  obtain ⟨s, hs, hcall⟩ := hwf.slotCall
  refine ⟨_, by rw [hslot, hcall], ?_⟩
  simp [itemCall, hitem, hs]

theorem runSettings_of_sound {body : List UInt8} (h : Sound body) :
    runSettings body = some (expected body) := by
  rw [runSettings_eq, mapM_eq_some_iff, slots_eq h.1, expected_of_sound h, List.map_map]
  have hmem : ∀ i ∈ List.range (counted body % 256), ∃ c,
      slotCall ((splitLine (CStrings.text body) hash).tokens (UInt8.ofNat i)) = some c ∧
        itemCall body (counted body - counted body % 256 + i) = some c :=
    fun i hi => slotCall_of_sound h (List.mem_range.mp hi)
  generalize List.range (counted body % 256) = l at hmem
  induction l with
  | nil => rfl
  | cons i l ih =>
    obtain ⟨c, hc, hitem⟩ := hmem i List.mem_cons_self
    rw [List.map_cons, ih fun j hj => hmem j (List.mem_cons_of_mem _ hj), Function.comp_apply, hc,
      List.filterMap_cons, hitem, List.map_cons]

theorem sound_of_runSettings {body : List UInt8} (h : runSettings body = some (expected body)) :
    Sound body := by
  rw [runSettings_eq, mapM_eq_some_iff] at h
  have hm : counted body % 256 ≠ 0 := by
    intro hm
    have hnone : (none : Option Call) ∈ (expected body).map some := by
      rw [← h]
      exact List.mem_map.mpr ⟨_, null_mem_slots hm, slotCall_null⟩
    simp at hnone
  rw [slots_eq hm, List.map_map] at h
  refine ⟨hm, fun j item hitem => ?_⟩
  split
  · rename_i hj
    -- the slot of the item made a call, and the call is one that is expected
    have hi : j - (counted body - counted body % 256) < counted body % 256 := by omega
    obtain ⟨t, ht, hslot⟩ := slot_eq body hi
    rw [show counted body - counted body % 256 + (j - (counted body - counted body % 256)) = j by
      omega] at ht hslot
    obtain ⟨c, hc, hcall⟩ := List.mem_map.mp (h ▸ List.mem_map.mpr ⟨_, List.mem_range.mpr hi, rfl⟩)
    simp only [Function.comp_apply, hslot] at hcall
    have ht0 : (0 : UInt8) ∉ t := CStrings.zero_not_mem_of_mem_tokens (List.mem_of_getElem? ht)
    obtain ⟨hnum, hvalue, hlen⟩ := slotCall_value ht0 hcall.symm
    obtain ⟨item', hitem', hparse⟩ := mem_expected_iff.mp hc
    rw [hnum, hitem] at hitem'
    obtain rfl := Option.some.inj hitem'
    refine wellFormed_of_parseSetting hparse (CStrings.ne_nil_of_mem_tokens hvalue)
      (CStrings.not_mem_of_mem_tokens hvalue) (fun h0 => ht0 ?_) hlen
    exact CStrings.mem_of_mem_tokens hvalue h0
  · rename_i hj
    cases hp : parseSetting item with
    | none => rfl
    | some s =>
      exfalso
      have hmem : (⟨j, s.1, s.2⟩ : Call) ∈ expected body := mem_expected_iff.mpr ⟨item, hitem, hp⟩
      obtain ⟨i, hi, hcall⟩ := List.mem_map.mp (h ▸ List.mem_map.mpr ⟨_, hmem, rfl⟩ :
        some (⟨j, s.1, s.2⟩ : Call) ∈ _)
      rw [List.mem_range] at hi
      obtain ⟨t, ht, hslot⟩ := slot_eq body hi
      rw [Function.comp_apply, hslot] at hcall
      have ht0 : (0 : UInt8) ∉ t := CStrings.zero_not_mem_of_mem_tokens (List.mem_of_getElem? ht)
      obtain ⟨hnum, -⟩ := slotCall_value ht0 hcall
      simp only at hnum
      exact hj ⟨by omega, by omega⟩

/-- **The client executes exactly the settings of a body, exactly when the body
is sound.** -/
theorem settings_executed_iff (body : Body) :
    runSettings body.bytes = some (expected body.bytes) ↔ Sound body.bytes :=
  ⟨sound_of_runSettings, runSettings_of_sound⟩

/-- An item without `=`: the known name is looked up and its missing value used. -/
theorem item_without_value_not_executed :
    runSettings (CStrings.lit "REBOOT_ALL") ≠ some (expected (CStrings.lit "REBOOT_ALL")) := by
  decide +kernel

end TfPackages.Dm
