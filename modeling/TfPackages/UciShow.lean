import Mathlib.Data.List.Infix
import TfPackages.Tokens

/-! # The output of `uci show`

A package of `uci` has sections, and a section has options.  `uci show` prints a
line for each option.  A section without a name of its own is written as
`@type[i]`, and a value in quotation marks, in which a quotation mark of the value
is written as `'\''`.

`tokens_text` reads the lines back from the text, and `escape_injective` says that
two values with the same writing are the same.
-/
namespace UciShow

/-- A value that an option can have.  An empty one deletes the option, and a line is
printed for each. -/
structure Value where
  text : List Char
  ne_nil : text ≠ []
  one_line : '\n' ∉ text
deriving DecidableEq

theorem Value.ext {v w : Value} (h : v.text = w.text) : v = w := by
  cases v
  cases w
  cases h
  rfl

/-- A value as it is printed between the quotation marks. -/
def escape : List Char → List Char
  | [] => []
  | c :: s => if c = '\'' then '\'' :: '\\' :: '\'' :: '\'' :: escape s else c :: escape s

/-- A value as it is printed. -/
def quote (v : Value) : List Char := '\'' :: (escape v.text ++ ['\''])

/-- The section `package.@type[i]`. -/
def sectionPath (package type : List Char) (i : Nat) : List Char :=
  package ++ ".@".toList ++ type ++ '[' :: (Nat.toDigits 10 i ++ [']'])

/-- The line of an option. -/
def optionLine (path option : List Char) (v : Value) : List Char :=
  path ++ '.' :: (option ++ '=' :: quote v)

/-- The lines as they are printed. -/
def text (lines : List (List Char)) : List Char := lines.flatMap (· ++ ['\n'])

/-- A line that `uci show` prints. -/
def IsLine (l : List Char) : Prop := l ≠ [] ∧ '\n' ∉ l

/-- A property of all characters of a text, checked one after the other. -/
theorem forall_mem_of_all {P : Char → Prop} [DecidablePred P] {s : List Char}
    (h : s.all (fun c => decide (P c)) = true) : ∀ c ∈ s, P c := fun c hc =>
  of_decide_eq_true (List.all_eq_true.mp h c hc)

/-- The lines of the text are those that were printed. -/
theorem tokens_text {lines : List (List Char)} (h : ∀ l ∈ lines, IsLine l) :
    Tokens.tokens (· = '\n') (text lines) = lines := by
  induction lines with
  | nil => exact Tokens.tokens_nil
  | cons l lines ih =>
    obtain ⟨hne, hline⟩ := h l List.mem_cons_self
    have hfree : ∀ c ∈ l, decide (c = '\n') = false := fun c hc =>
      decide_eq_false fun heq => hline (heq ▸ hc)
    have htext : text (l :: lines) = l ++ '\n' :: text lines := by simp [text]
    rw [htext, Tokens.tokens_run hne hfree (by simp), Tokens.tokens_delim (by simp),
      ih fun k hk => h k (List.mem_cons_of_mem _ hk)]

theorem escape_ne_nil {s : List Char} (h : s ≠ []) : escape s ≠ [] := by
  cases s with
  | nil => exact absurd rfl h
  | cons c s =>
    rw [escape]
    split <;> simp

theorem mem_of_mem_escape {s : List Char} {c : Char} (h : c ∈ escape s) (hc : c ≠ '\\') :
    c ∈ s := by
  induction s with
  | nil => exact h
  | cons d s ih =>
    rw [escape] at h
    split at h
    · rename_i hd
      simp only [List.mem_cons, hc, false_or] at h
      rcases h with rfl | rfl | rfl | h
      · exact hd ▸ List.mem_cons_self
      · exact hd ▸ List.mem_cons_self
      · exact hd ▸ List.mem_cons_self
      · exact List.mem_cons_of_mem _ (ih h)
    · rcases List.mem_cons.mp h with rfl | h
      · exact List.mem_cons_self
      · exact List.mem_cons_of_mem _ (ih h)

/-- Values that are printed alike are the same. -/
theorem escape_injective : Function.Injective escape := by
  intro s
  induction s with
  | nil =>
    intro t h
    cases t with
    | nil => rfl
    | cons d t => exact absurd h.symm (escape_ne_nil (List.cons_ne_nil d t))
  | cons c s ih =>
    intro t h
    cases t with
    | nil => exact absurd h (escape_ne_nil (List.cons_ne_nil c s))
    | cons d t =>
      rw [escape, escape] at h
      by_cases hc : c = '\''
      · by_cases hd : d = '\''
        · rw [if_pos hc, if_pos hd] at h
          simp only [List.cons.injEq, true_and] at h
          rw [ih h, hc, hd]
        · rw [if_pos hc, if_neg hd] at h
          exact absurd (List.cons.inj h).1.symm hd
      · by_cases hd : d = '\''
        · rw [if_neg hc, if_pos hd] at h
          exact absurd (List.cons.inj h).1 hc
        · rw [if_neg hc, if_neg hd] at h
          rw [(List.cons.inj h).1, ih (List.cons.inj h).2]

/-- A value begins with what is printed before the next quotation mark. -/
theorem escape_append_quote (s : List Char) :
    ∃ rest, escape s ++ ['\''] = s.takeWhile (· ≠ '\'') ++ '\'' :: rest := by
  induction s with
  | nil => exact ⟨[], rfl⟩
  | cons c s ih =>
    rw [escape, List.takeWhile_cons]
    by_cases hc : c = '\''
    · rw [if_pos hc, if_neg (by simpa using hc)]
      exact ⟨_, rfl⟩
    · obtain ⟨rest, hrest⟩ := ih
      rw [if_neg hc, if_pos (by simpa using hc), List.cons_append, hrest]
      exact ⟨rest, rfl⟩

theorem toDigits_injective : Function.Injective (Nat.toDigits 10) := by
  intro i j h
  have hi : Nat.ofDigitChars 10 (Nat.toDigits 10 i) 0 = i := by simp
  have hj : Nat.ofDigitChars 10 (Nat.toDigits 10 j) 0 = j := by simp
  rw [← hi, h, hj]

theorem sectionPath_injective (package type : List Char) :
    Function.Injective (sectionPath package type) := fun i j h =>
  toDigits_injective (by simpa [sectionPath] using h)

theorem not_mem_toDigits {c : Char} (hc : c.isDigit = false) (i : Nat) :
    c ∉ Nat.toDigits 10 i := fun h => by
  rw [Nat.isDigit_of_mem_toDigits (by decide) (by decide) h] at hc
  cases hc

theorem not_mem_sectionPath {package type : List Char} {c : Char} (hpackage : c ∉ package)
    (htype : c ∉ type) (hc : c ∉ ".@[]".toList) (hdigit : c.isDigit = false) (i : Nat) :
    c ∉ sectionPath package type i := by
  have hno := not_mem_toDigits hdigit i
  have hmarks : c ≠ '.' ∧ c ≠ '@' ∧ c ≠ '[' ∧ c ≠ ']' := by simpa using hc
  simp [sectionPath, hpackage, htype, hno, hmarks]

theorem isLine_optionLine {path option : List Char} (hpath : '\n' ∉ path) (hoption : '\n' ∉ option)
    (v : Value) : IsLine (optionLine path option v) := by
  refine ⟨by simp [optionLine], ?_⟩
  have hvalue : '\n' ∉ escape v.text := fun h => v.one_line (mem_of_mem_escape h (by decide))
  simp [optionLine, quote, hpath, hoption, hvalue]

end UciShow
