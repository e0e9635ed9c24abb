import Mathlib.Algebra.Group.Int.Defs
import TfPackages.LuaPatterns

/-! # Reading numbers with `scanf`

The conversion `%d` skips blanks and takes a sign and as many digits as follow.
`scanInt_eq_some_iff` says what the text looks like when it succeeds: what is
skipped, the digits, and a rest that does not go on with a digit.
-/
namespace Scanf

/-- `isspace`. -/
def isSpace (c : Char) : Bool := c = ' ' || ('\t' ≤ c && c ≤ '\r')

/-- A number is written here, in decimal. -/
def Digits (w : List Char) : Prop := w ≠ [] ∧ ∀ c ∈ w, c.isDigit = true

/-- The text does not begin with a digit. -/
def NoDigitHead (s : List Char) : Prop := ∀ c ∈ s.head?, c.isDigit = false

/-- Blanks and at most one sign. -/
def Skipped (pre : List Char) : Prop :=
  ∃ blanks sign, pre = blanks ++ sign ∧ (∀ c ∈ blanks, isSpace c = true) ∧
    (sign = [] ∨ sign = ['+'] ∨ sign = ['-'])

/-- The number written with these digits. -/
def decimal (digits : List Char) : Nat := Nat.ofDigitChars 10 digits 0

/-- The number after what was skipped. -/
def signed (pre digits : List Char) : Int :=
  if '-' ∈ pre then -(decimal digits : Int) else decimal digits

/-- A sign and the text after it. -/
def takeSign : List Char → List Char × List Char
  | '-' :: t => (['-'], t)
  | '+' :: t => (['+'], t)
  | t => ([], t)

/-- `%d`: the number and the text after it. -/
def scanInt (s : List Char) : Option (Int × List Char) :=
  let (sign, s) := takeSign (s.dropWhile isSpace)
  let digits := s.takeWhile Char.isDigit
  if digits = [] then none else some (signed sign digits, s.dropWhile Char.isDigit)

theorem takeSign_append (s : List Char) : (takeSign s).1 ++ (takeSign s).2 = s := by
  unfold takeSign
  split <;> rfl

theorem takeSign_cases (s : List Char) :
    (takeSign s).1 = [] ∨ (takeSign s).1 = ['+'] ∨ (takeSign s).1 = ['-'] := by
  unfold takeSign
  split <;> simp

theorem takeSign_of_digits {sign w rest : List Char} (hw : Digits w)
    (hsign : sign = [] ∨ sign = ['+'] ∨ sign = ['-']) :
    takeSign (sign ++ (w ++ rest)) = (sign, w ++ rest) := by
  obtain ⟨hne, hdigits⟩ := hw
  rcases hsign with rfl | rfl | rfl
  · cases w with
    | nil => exact absurd rfl hne
    | cons c w =>
      have hc := hdigits c List.mem_cons_self
      rw [List.nil_append, List.cons_append, takeSign]
      · rintro t ⟨⟩
        exact absurd hc (by decide)
      · rintro t ⟨⟩
        exact absurd hc (by decide)
  · rfl
  · rfl

theorem toNat_of_isDigit {c : Char} (h : c.isDigit = true) : 48 ≤ c.toNat ∧ c.toNat ≤ 57 := by
  simp only [Char.isDigit, Bool.and_eq_true, decide_eq_true_eq, ge_iff_le, UInt32.le_iff_toNat_le]
    at h
  exact h

theorem isSpace_of_isDigit {c : Char} (h : c.isDigit = true) : isSpace c = false := by
  have h0 := (toNat_of_isDigit h).1
  have hr : '\r'.val.toNat = 13 := rfl
  rw [isSpace, Bool.or_eq_false_iff, Bool.and_eq_false_iff]
  refine ⟨decide_eq_false ?_, .inr (decide_eq_false ?_)⟩
  · rintro rfl
    exact absurd h (by decide)
  · rw [Char.le_def, UInt32.le_iff_toNat_le]
    unfold Char.toNat at h0
    omega

theorem dropWhile_run {p : Char → Bool} {w rest : List Char} (hw : ∀ c ∈ w, p c = true)
    (hrest : ∀ c ∈ rest.head?, p c = false) : (w ++ rest).dropWhile p = rest := by
  induction w with
  | nil =>
    cases rest with
    | nil => rfl
    | cons c rest => rw [List.nil_append, List.dropWhile_cons, hrest c rfl]; rfl
  | cons c w ih =>
    rw [List.cons_append, List.dropWhile_cons, if_pos (hw c List.mem_cons_self)]
    exact ih fun d hd => hw d (List.mem_cons_of_mem _ hd)

theorem isSpace_head_of_digits {sign w rest : List Char} (hw : Digits w)
    (hsign : sign = [] ∨ sign = ['+'] ∨ sign = ['-']) :
    ∀ c ∈ (sign ++ (w ++ rest)).head?, isSpace c = false := by
  obtain ⟨hne, hdigits⟩ := hw
  intro c hc
  rcases hsign with rfl | rfl | rfl
  · cases w with
    | nil => exact absurd rfl hne
    | cons d w =>
      cases hc
      exact isSpace_of_isDigit (hdigits c List.mem_cons_self)
  · cases hc
    decide
  · cases hc
    decide

theorem not_mem_blanks {blanks : List Char} (h : ∀ c ∈ blanks, isSpace c = true) :
    '-' ∉ blanks := by
  intro hmem
  exact absurd (h _ hmem) (by decide)

theorem Skipped.isDigit_of_mem {pre : List Char} (h : Skipped pre) :
    ∀ c ∈ pre, c.isDigit = false := by
  obtain ⟨blanks, sign, rfl, hblanks, hsign⟩ := h
  intro c hc
  rcases List.mem_append.mp hc with hc | hc
  · by_contra hdigit
    have hspace := hblanks c hc
    rw [isSpace_of_isDigit (Bool.not_eq_false _ ▸ hdigit)] at hspace
    cases hspace
  · rcases hsign with rfl | rfl | rfl
    · cases hc
    · rw [List.mem_singleton.mp hc]
      decide
    · rw [List.mem_singleton.mp hc]
      decide

/-- **What `%d` reads.** -/
theorem scanInt_eq_some_iff (s : List Char) (v : Int) (rest : List Char) :
    scanInt s = some (v, rest) ↔ ∃ pre digits, s = pre ++ (digits ++ rest) ∧ Skipped pre ∧
      Digits digits ∧ NoDigitHead rest ∧ v = signed pre digits := by
  constructor
  · intro h
    unfold scanInt at h
    dsimp only at h
    split at h
    · cases h
    · rename_i hne
      cases h
      have hblanks : ∀ c ∈ s.takeWhile isSpace, isSpace c = true := fun c hc =>
        List.mem_takeWhile_imp hc
      refine ⟨s.takeWhile isSpace ++ (takeSign (s.dropWhile isSpace)).1,
        (takeSign (s.dropWhile isSpace)).2.takeWhile Char.isDigit, ?_,
        ⟨_, _, rfl, hblanks, takeSign_cases _⟩,
        ⟨hne, fun c hc => List.mem_takeWhile_imp hc⟩, ?_, ?_⟩
      · rw [List.takeWhile_append_dropWhile, List.append_assoc, takeSign_append,
          List.takeWhile_append_dropWhile]
      · exact LuaPatterns.head_dropWhile Char.isDigit _
      · simp only [signed, List.mem_append, not_mem_blanks hblanks, false_or]
  · rintro ⟨_, digits, rfl, ⟨blanks, sign, rfl, hblanks, hsign⟩, hdigits, hrest, rfl⟩
    unfold scanInt
    rw [List.append_assoc, dropWhile_run hblanks (isSpace_head_of_digits hdigits hsign),
      takeSign_of_digits hdigits hsign]
    simp only [LuaPatterns.takeWhile_run hdigits.2 hrest, dropWhile_run hdigits.2 hrest,
      if_neg hdigits.1, signed, List.mem_append, not_mem_blanks hblanks, false_or]

end Scanf
