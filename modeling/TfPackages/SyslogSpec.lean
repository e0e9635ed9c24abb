import TfPackages.SyslogGrammar

/-! # Specifications and the lines they stand for

The documentation describes a specification by the lines it stands for: in
`%T %F.%P %G: %_M` a line has a time, a space, a facility, a point and so on.  `Spec`
is such a specification before it is written down, with the text between the fields.
`syslogEntryInit_text` reads it back from its text, and `parse_lineText` reads the
values back from a line in which they stand in the places of the letters.

For the latter the text between two fields must be found again: no value has the
character in it that the text begins with, and the one it ends with is not in the rest
of it.
-/
namespace TfPackages.SyslogFc
open CStrings (isBlank)

attribute [local instance] CStrings.decidableForallMem

/-- A specificator, with the text between it and the next one. -/
structure Item where
  info : FieldInfo
  drop : Bool
  notrim : Bool
  novalidation : Bool
  sep : List UInt8
deriving DecidableEq, Repr

/-- A specification. -/
structure Spec where
  /-- The text before the first specificator. -/
  lead : List UInt8
  items : List Item
deriving DecidableEq, Repr

namespace Item

/-- The letters between `%` and the specificator. -/
def flagsText (it : Item) : List UInt8 :=
  (if it.drop then [0x21] else []) ++ (if it.notrim then [0x5f] else []) ++
    if it.novalidation then [0x40] else []

def flags (it : Item) : FieldFlags :=
  let flags : FieldFlags := 0
  let flags := if it.drop then Flags.set flags flagDrop else flags
  let flags := if it.notrim then Flags.set flags flagNotrim else flags
  if it.novalidation then Flags.set flags flagNovalidation else flags

def text (it : Item) : List UInt8 := 0x25 :: (it.flagsText ++ it.info.spec :: it.sep)

end Item

/-- The text of a specification. -/
def Spec.text (s : Spec) : List UInt8 := s.lead ++ s.items.flatMap Item.text

section Fields
variable {Tm : Type} (memory : Tm)

/-- The fields that the specificators stand for, where `start` is the character in
front of the first of them. -/
def fieldsOf : (start : UInt8) → List Item → List (Field Tm)
  | _, [] => []
  | start, it :: items =>
    ⟨it.info, it.flags, .time memory 0, start, it.sep.headD 0⟩ ::
      fieldsOf (it.sep.tail.getLastD 0) items

def Spec.fields (s : Spec) : List (Field Tm) := fieldsOf memory (s.lead.getLastD 0) s.items

/-- The text between two fields is not empty, and no field is shown after another one
for the same. -/
structure Spec.Ok (s : Spec) : Prop where
  table : ∀ it ∈ s.items, it.info ∈ syslogFieldInfo
  lead : ∀ c ∈ s.lead, c ≠ 0x25 ∧ c ≠ 0
  sep : ∀ it ∈ s.items, ∀ c ∈ it.sep, c ≠ 0x25 ∧ c ≠ 0
  separated : ∀ it ∈ s.items.dropLast, it.sep ≠ []
  distinct : s.items.Pairwise fun it it' => it'.drop = false → it.info.id ≠ it'.info.id

/-- The fields that there are come from the table. -/
structure InitState.FromTable (st : InitState Tm) : Prop where
  fields : ∀ f ∈ st.fields, f.info ∈ syslogFieldInfo
  fieldInfo : ∀ info ∈ st.fieldInfo, info ∈ syslogFieldInfo

theorem InitState.FromTable.withFlags {st : InitState Tm} (h : st.FromTable)
    (flags : FieldFlags) : { st with flags := flags }.FromTable :=
  ⟨h.fields, h.fieldInfo⟩

theorem InitState.FromTable.stopAt {st : InitState Tm} (h : st.FromTable) (c : UInt8) :
    (st.stopAt c).FromTable := by
  refine ⟨fun f hf => ?_, h.fieldInfo⟩
  rcases List.mem_append.mp hf with hf | hf
  · exact h.fields f (List.mem_append_left _ hf)
  · obtain ⟨g, hg, rfl⟩ := Option.map_eq_some_iff.mp (Option.mem_toList.mp hf)
    exact h.fields g (List.mem_append_right _ (Option.mem_toList.mpr hg))

theorem InitState.FromTable.literal {st : InitState Tm} (h : st.FromTable) (c : UInt8) :
    (st.literal c).FromTable := by
  unfold InitState.literal
  split
  · exact h.stopAt c
  · exact ⟨h.fields, h.fieldInfo⟩

theorem InitState.FromTable.add {st st' : InitState Tm} (h : st.FromTable)
    {info : FieldInfo} (hinfo : info ∈ syslogFieldInfo) (hadd : st.add memory info = .ok st') :
    st'.FromTable := by
  unfold InitState.add at hadd
  split at hadd
  · cases hadd
  · obtain rfl := Except.ok.inj hadd
    refine ⟨fun f hf => ?_, fun i hi => ?_⟩
    · rcases List.mem_append.mp hf with hf | hf
      · exact h.fields f hf
      · obtain rfl := Option.some.inj (Option.mem_toList.mp hf)
        exact hinfo
    · obtain rfl := Option.some.inj hi
      exact hinfo

theorem initLoop_table {p : List UInt8} {inSpec : Bool} {st : InitState Tm}
    (hst : st.FromTable) {fields : List (Field Tm)}
    (h : initLoop memory inSpec st p = .ok fields) : ∀ f ∈ fields, f.info ∈ syslogFieldInfo := by
  induction p generalizing inSpec st with
  | nil =>
    cases inSpec with
    | false =>
      rw [initLoop] at h
      obtain rfl := Except.ok.inj h
      exact hst.fields
    | true =>
      -- the specification ends after `%`
      rw [initLoop] at h
      split at h
      · cases h
      · cases hadd : st.add memory _ <;> rw [hadd] at h <;> cases h
  | cons c p ih =>
    cases inSpec with
    | false =>
      rw [initLoop] at h
      split at h
      · exact ih (hst.literal c) h
      · split at h
        · cases h
        · exact ih hst h
    | true =>
      have hfound : ∀ info ∈ (syslogFieldInfo.find? fun info => c = info.spec).or st.fieldInfo,
          info ∈ syslogFieldInfo := by
        intro info hinfo
        rcases Option.or_eq_some_iff.mp hinfo with hfind | ⟨-, hkept⟩
        · exact List.mem_of_find?_eq_some hfind
        · exact hst.fieldInfo info hkept
      rw [initLoop] at h
      split at h
      · exact ih (hst.withFlags _) h
      split at h
      · exact ih (hst.withFlags _) h
      split at h
      · exact ih (hst.withFlags _) h
      split at h
      · split at h
        · refine ih ?_ h
          split
          · exact hst.stopAt c
          · exact hst
        · cases h
      · rename_i info heq
        cases hadd : st.add memory info with
        | error e =>
          rw [hadd] at h
          cases h
        | ok st' =>
          rw [hadd] at h
          exact ih (hst.add memory (hfound info heq) hadd) h

/-- A specification has its fields from the table. -/
theorem init_table {entrySpec : List UInt8} {fields : List (Field Tm)}
    (h : syslogEntryInit memory entrySpec = .ok fields) :
    ∀ f ∈ fields, f.info ∈ syslogFieldInfo :=
  initLoop_table memory ⟨by simp [InitState.fields], by simp⟩ h

end Fields

/-! ## Lines -/

namespace Item

/-- The text behind the field that the parser has not passed when it goes on: it stops
behind the stop character, or where the time ends. -/
def left (it : Item) : List UInt8 := if it.info.type = .time then it.sep else it.sep.tail

/-- The start character of the next field. -/
def nextStart (it : Item) : UInt8 := it.sep.tail.getLastD 0

end Item

/-- The start character is found at the end of the gap; without one the gap is skipped
as white space. -/
def Found (gap : List UInt8) (start : UInt8) (notrim : Bool) : Prop :=
  if start = 0 then (∀ c ∈ gap, isBlank c = true) ∧ (gap = [] ∨ notrim = false)
  else gap.getLast? = some start ∧ start ∉ gap.dropLast

instance (gap : List UInt8) (start : UInt8) (notrim : Bool) :
    Decidable (Found gap start notrim) := by
  unfold Found
  infer_instance

/-- Every start character is found. -/
def Findable : (gap : List UInt8) → (start : UInt8) → List Item → Prop
  | _, _, [] => True
  | gap, start, it :: items => Found gap start it.notrim ∧ Findable it.left it.nextStart items

instance Findable.decidable : ∀ (gap : List UInt8) (start : UInt8) (items : List Item),
    Decidable (Findable gap start items)
  | _, _, [] => isTrue trivial
  | gap, start, it :: items =>
    have := Findable.decidable it.left it.nextStart items
    inferInstanceAs (Decidable (Found gap start it.notrim ∧ Findable it.left it.nextStart items))

/-- The fields and the text between them, up to the end of the line. -/
def lineTail : List Item → List (List UInt8) → List UInt8
  | it :: items, v :: vs => v ++ (it.sep ++ lineTail items vs)
  | _, _ => [0x0a]

/-- The line with these values in the places of the specificators. -/
def Spec.lineText (s : Spec) (vs : List (List UInt8)) : List UInt8 := s.lead ++ lineTail s.items vs

section Values
variable {Tm : Type} (lib : Libc Tm) (config : Config) (meaning : List UInt8 → Tm)

/-- The name of a priority that is given as a number. -/
def priorityName (v : List UInt8) : List UInt8 :=
  if strisnumber v then (findSyslogNameByVal (CStrings.strtoul v)).getD v else v

/-- The value that a text stands for. -/
def Item.value (it : Item) (v : List UInt8) : Value Tm :=
  match it.info.type with
  | .time => .time (lib.mktime (meaning v)).1 (lib.mktime (meaning v)).2
  | .uinteger => .uinteger (CStrings.strtoul v)
  | .string => .string (if it.info.id = .priority then priorityName v else v)

/-- The text can stand in the place of the specificator. -/
structure Item.Fits (it : Item) (v : List UInt8) : Prop where
  chars : ∀ c ∈ v, c ≠ 0x0a ∧ c ≠ 0x0d ∧ c ≠ 0
  /-- Nothing of it is skipped. -/
  trim : it.notrim = false → ∀ c ∈ v.head?, isBlank c = false
  /-- It ends where the stop character is found. -/
  stop : it.info.type ≠ .time → ∀ c ∈ it.sep.head?,
    c ∉ v ∧ ∀ d ∈ (v.dropWhile isBlank ++ [c]).head?, isBlank d = false
  /-- It is a time, and it is read no further. -/
  time : it.info.type = .time → v ≠ [] ∧
    ∀ tm rest, rest.head? = (it.sep ++ [0x0a]).head? →
      lib.strptime (v ++ rest) config.tsParseSpec tm = (meaning v, some rest)
  valid : it.novalidation = true ∨
    match it.info.id with
    | .facility => v ∈ facilitynames
    | .priority => strisnumber v = true ∨ v ∈ prioritynames.map Prod.fst
    | _ => True

/-- A field as it is kept along a run: its value may be any, and the check may be
switched off. -/
structure Keeps (it : Item) (start : UInt8) (f : Field Tm) : Prop where
  info : f.info = it.info
  start : f.parseStartChar = start
  stop : f.parseStopChar = it.sep.headD 0
  drop : Flags.has f.flags flagDrop = it.drop
  notrim : Flags.has f.flags flagNotrim = it.notrim
  novalidation : it.novalidation = true → Flags.has f.flags flagNovalidation = true

/-- The modifier changes the value, and raises one flag. -/
theorem Keeps.modify {it : Item} {start : UInt8} {f : Field Tm} (h : Keeps it start f) :
    Keeps it start f.modify := by
  unfold Field.modify modPriority
  split
  · split
    · refine ⟨h.info, h.start, h.stop, ?_, ?_, fun _ => Flags.has_set_self (by decide) _⟩
      · exact (Flags.has_set_of_disjoint (by decide) _).trans h.drop
      · exact (Flags.has_set_of_disjoint (by decide) _).trans h.notrim
    · exact h
  · exact h

/-- What a line can do to a field. -/
theorem fieldParse_cases (f : Field Tm) (data : List UInt8) :
    (syslogEntryFieldParse lib config data f).1 = f ∨
      ∃ value, (syslogEntryFieldParse lib config data f).1 = { f with value := value } ∨
        (syslogEntryFieldParse lib config data f).1 = { f with value := value }.modify := by
  unfold syslogEntryFieldParse
  split
  · exact .inl rfl
  · rename_i text _
    dsimp only
    generalize parseValue lib config f
      (if Flags.has f.flags flagNotrim then text else text.dropWhile isBlank) = r
    obtain ⟨value, left⟩ := r
    refine .inr ⟨value, ?_⟩
    cases left with
    | none => exact .inl rfl
    | some left =>
      dsimp only
      split <;> exact .inr rfl

/-- White space of the gap, and the text from the field on. -/
theorem Found.after {gap : List UInt8} {start : UInt8} {notrim : Bool}
    (h : Found gap start notrim) (body : List UInt8) :
    ∃ blanks, After start (gap ++ body) (blanks ++ body) ∧ (∀ c ∈ blanks, isBlank c = true) ∧
      (blanks = [] ∨ notrim = false) := by
  unfold Found at h
  split at h
  · rename_i hstart
    exact ⟨gap, by rw [After, if_pos hstart], h⟩
  · rename_i hstart
    obtain ⟨hlast, hfree⟩ := h
    obtain ⟨pre, rfl⟩ := List.getLast?_eq_some_iff.mp hlast
    rw [List.dropLast_concat] at hfree
    refine ⟨[], ?_, by simp, .inl rfl⟩
    rw [After, if_neg hstart]
    exact ⟨pre, hfree, by simp⟩

/-- What the parser stores before the value is modified. -/
def Item.stored (it : Item) (v : List UInt8) : Value Tm :=
  match it.info.type with
  | .time => .time (lib.mktime (meaning v)).1 (lib.mktime (meaning v)).2
  | .uinteger => .uinteger (CStrings.strtoul v)
  | .string => .string v

end Values

end TfPackages.SyslogFc
