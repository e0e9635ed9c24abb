import TfPackages.SyslogEntry
import Mathlib.Data.List.TakeWhile

/-! # What a line of a syslog file looks like

`Line` says how a line is put together from its fields: text up to the start
character, white space, the text of the field, the stop character.  It mentions
neither searching nor pointers.  `syslogEntryParse_ok_iff` is the parser's
correctness: it accepts a line exactly if the line is put together in this way, and
what it has stored then are the fields of the line.
-/
namespace TfPackages.SyslogFc
open CStrings (isBlank)

/-! ## Parts of a text -/

/-- `rest` is behind the first `c` of the text.  NUL is not searched for. -/
def After (c : UInt8) (s rest : List UInt8) : Prop :=
  if c = 0 then rest = s else ∃ gap, c ∉ gap ∧ s = gap ++ c :: rest

/-- `front` is before the first `c` of the text and `rest` behind it.  NUL is at the
end. -/
def Before (c : UInt8) (s front rest : List UInt8) : Prop :=
  if c = 0 then front = s ∧ rest = [] else c ∉ front ∧ s = front ++ c :: rest

/-- The text is white space and `inner`, which begins with something else. -/
structure Blanks (s blanks inner : List UInt8) : Prop where
  eq_append : s = blanks ++ inner
  blank : ∀ c ∈ blanks, isBlank c = true
  head : ∀ c ∈ inner.head?, isBlank c = false

theorem Blanks.dropWhile_eq {s blanks inner : List UInt8} (h : Blanks s blanks inner) :
    s.dropWhile isBlank = inner := by
  rw [h.eq_append, List.dropWhile_append_of_pos h.blank]
  cases inner with
  | nil => rfl
  | cons c inner => exact List.dropWhile_cons_of_neg (by simp [h.head c rfl])

theorem Blanks.unique {s blanks blanks' inner inner' : List UInt8} (h : Blanks s blanks inner)
    (h' : Blanks s blanks' inner') : blanks = blanks' ∧ inner = inner' := by
  have hinner : inner = inner' := h.dropWhile_eq.symm.trans h'.dropWhile_eq
  refine ⟨?_, hinner⟩
  have hsame := h.eq_append.symm.trans h'.eq_append
  rw [← hinner] at hsame
  exact List.append_cancel_right hsame

/-- What is kept of a value: nothing from the end of the line on. -/
def oneLine (s : List UInt8) : List UInt8 := s.takeWhile fun c => c ≠ 0x0d ∧ c ≠ 0x0a

section Lines
variable {Tm : Type} (lib : Libc Tm) (config : Config)

/-- The field stands at the beginning of `data` with this value, and `rest` is behind
it. -/
inductive Stands (field : Field Tm) (data : List UInt8) : Value Tm → List UInt8 → Prop
  | time {text blanks inner rest : List UInt8} {tm : Tm} :
    field.info.type = .time → After field.parseStartChar data text → Blanks text blanks inner →
    lib.strptime (if Flags.has field.flags flagNotrim then text else inner) config.tsParseSpec
      (field.value.timestamp lib) = (tm, some rest) →
    Stands field data (.time (lib.mktime tm).1 (lib.mktime tm).2) rest
  | string {text blanks inner front rest : List UInt8} :
    field.info.type = .string → After field.parseStartChar data text →
    Blanks text blanks inner → Before field.parseStopChar inner front rest →
    Stands field data
      (.string (oneLine (if Flags.has field.flags flagNotrim then blanks ++ front else front))) rest
  | uinteger {text blanks inner front rest : List UInt8} :
    field.info.type = .uinteger → After field.parseStartChar data text →
    Blanks text blanks inner → Before field.parseStopChar inner front rest →
    Stands field data
      (.uinteger (CStrings.strtoul
        (oneLine (if Flags.has field.flags flagNotrim then blanks ++ front else front)))) rest

/-- The value is one that the field may have: a facility or a priority has a name, a
priority may be a number, and neither is checked where that is switched off. -/
def Field.Valid (field : Field Tm) : Prop :=
  Flags.has field.flags flagNovalidation = true ∨
    match field.info.id with
    | .facility => field.value.text ∈ facilitynames
    | .priority =>
      strisnumber field.value.text = true ∨ field.value.text ∈ prioritynames.map Prod.fst
    | _ => True

/-- The line is put together from the fields, and these are the fields then. -/
inductive Line : List (Field Tm) → List UInt8 → List (Field Tm) → Prop
  | nil (data : List UInt8) : Line [] data []
  | cons {field : Field Tm} {fields fields' : List (Field Tm)} {data rest : List UInt8}
      {value : Value Tm} :
    Stands lib config field data value rest → { field with value := value }.Valid →
    Line fields rest fields' →
    Line (field :: fields) data ({ field with value := value }.modify :: fields')

end Lines

end TfPackages.SyslogFc
