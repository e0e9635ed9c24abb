import TfPackages.Dkjson
import Mathlib.Tactic.Linarith

/-! # What is encoded is decoded

`Reads` says that a text is read as a value wherever it stands before the end of a
value.  There is one lemma for each kind of value: for numbers and names
(`reads_number`, `reads_name`), for arrays and for objects (`scantable_items`,
`scantable_pairs`), which go through the loop of `scantable`.  The texts of `encode`
are put together from these, whatever the order of the entries, with and without
indentation.
-/
namespace TfPackages.Dkjson
open CStrings (lit isBlank)

attribute [local instance] CStrings.decidableForallMem

/-! ## Values that are the same -/

/-- Two values that look the same from inside the language, metatables aside. -/
inductive Same : Value → Value → Prop
  | null : Same .null .null
  | boolean (b : Bool) : Same (.boolean b) (.boolean b)
  | number (x : ℚ) : Same (.number x) (.number x)
  | string (s : List UInt8) : Same (.string s) (.string s)
  | table {t t' : Option Jsontype} {es es' : List (Value × Value)}
    (keys : ∀ k, (index es k).isSome = (index es' k).isSome)
    (values : ∀ k v v', index es k = some v → index es' k = some v' → Same v v') :
    Same (.table t es) (.table t' es')

/-- Digits, at least one of them. -/
def Digits (w : List UInt8) : Prop := w ≠ [] ∧ ∀ b ∈ w, isDigit b = true

/-- The number is printed with digits, a decimal point and an exponent, and enough of
them that it is read again. -/
structure Numerals.Prints (c : Numerals) (x : ℚ) : Prop where
  point : isDigit c.decpoint = false ∧ c.decpoint ∉ [0x2d, 0x2b, 0x65, 0x45]
  text : ∃ sign int frac exp, c.tostring x = sign ++ (int ++ (frac ++ exp)) ∧
    (sign = [] ∨ sign = [0x2d]) ∧ Digits int ∧
    (frac = [] ∨ ∃ ds, frac = c.decpoint :: ds ∧ Digits ds) ∧
    (exp = [] ∨ ∃ e s ds, exp = e :: (s ++ ds) ∧ (e = 0x65 ∨ e = 0x45) ∧
      (s = [] ∨ s = [0x2b] ∨ s = [0x2d]) ∧ Digits ds)
  exact : c.tonumber (c.tostring x) = some x

/-- A value that JSON has room for, when `null` is read as `nullval`: `null` is told
apart from `nil`, numbers are printed in full, and a table is an array without holes or
has strings as keys.  Such a table with a number in `n` alone is taken for an array. -/
inductive Plain (c : Numerals) (nullval : Option Value) : Value → Prop
  | null (h : nullval = some .null) : Plain c nullval .null
  | boolean (b : Bool) : Plain c nullval (.boolean b)
  | number (x : ℚ) (h : c.Prints x) : Plain c nullval (.number x)
  | string (s : List UInt8) : Plain c nullval (.string s)
  | array {t : Option Jsontype} {es : List (Value × Value)} (n : Nat)
    (keys : (es.map Prod.fst).Perm ((List.range n).map fun i : Nat => .number (i + 1)))
    (meta_ne : n = 0 → t ≠ some .object) (values : ∀ e ∈ es, Plain c nullval e.2) :
    Plain c nullval (.table t es)
  | object {t : Option Jsontype} {es : List (Value × Value)} (names : List (List UInt8))
    (keys : es.map Prod.fst = names.map .string) (nodup : names.Nodup)
    (meta_eq : es = [] → t = some .object)
    (not_n : ∀ x, es ≠ [(.string [0x6e], .number x)])
    (values : ∀ e ∈ es, Plain c nullval e.2) : Plain c nullval (.table t es)

/-! ## Numbers -/

section Runs
variable {p : UInt8 → Bool} {w rest : List UInt8}

theorem takeWhile_append_of_head (hw : ∀ b ∈ w, p b = true)
    (hrest : ∀ b ∈ rest.head?, p b = false) : (w ++ rest).takeWhile p = w := by
  rw [List.takeWhile_append_of_pos hw]
  cases rest with
  | nil => exact List.append_nil w
  | cons b rest =>
    rw [List.takeWhile_cons, hrest b rfl]
    exact List.append_nil w

theorem dropWhile_append_of_head (hw : ∀ b ∈ w, p b = true)
    (hrest : ∀ b ∈ rest.head?, p b = false) : (w ++ rest).dropWhile p = rest := by
  rw [List.dropWhile_append_of_pos hw]
  cases rest with
  | nil => rfl
  | cons b rest =>
    rw [List.dropWhile_cons, hrest b rfl]
    rfl

end Runs

/-- What comes after a value: nothing, a separator, a bracket or a new line. -/
def Follows (rest : List UInt8) : Prop :=
  ∀ b ∈ rest.head?, b = 0x2c ∨ b = 0x5d ∨ b = 0x7d ∨ b = 0x0a

/-- The end of a number: no digit, point, exponent or sign. -/
theorem Follows.not_numeral {rest : List UInt8} (h : Follows rest) :
    ∀ b ∈ rest.head?, isDigit b = false ∧ b ≠ 0x2e ∧ b ≠ 0x65 ∧ b ≠ 0x45 ∧ b ≠ 0x2b ∧ b ≠ 0x2d := by
  intro b hb
  rcases h b hb with rfl | rfl | rfl | rfl <;> decide

theorem isDigit_ne {b : UInt8} (h : isDigit b = true) :
    b ≠ 0x2e ∧ b ≠ 0x65 ∧ b ≠ 0x45 ∧ b ≠ 0x2b ∧ b ≠ 0x2d := by
  refine ⟨?_, ?_, ?_, ?_, ?_⟩ <;>
    · rintro rfl
      exact absurd h (by decide)

/-- The text of a number, with a point where its locale has something else. -/
structure Numeral (t : List UInt8) : Prop where
  parts : ∃ sign int frac exp, t = sign ++ (int ++ (frac ++ exp)) ∧
    (sign = [] ∨ sign = [0x2d]) ∧ Digits int ∧
    (frac = [] ∨ ∃ ds, frac = 0x2e :: ds ∧ Digits ds) ∧
    (exp = [] ∨ ∃ e s ds, exp = e :: (s ++ ds) ∧ (e = 0x65 ∨ e = 0x45) ∧
      (s = [] ∨ s = [0x2b] ∨ s = [0x2d]) ∧ Digits ds)

theorem scanOptional_of_head {p : UInt8 → Bool} {t : List UInt8}
    (h : ∀ b ∈ t.head?, p b = false) : scanOptional p t = ([], t) := by
  cases t with
  | nil => rfl
  | cons b t => rw [scanOptional, h b rfl]; rfl

theorem scanOptional_singleton {p : UInt8 → Bool} {b : UInt8} (h : p b = true) (t : List UInt8) :
    scanOptional p ([b] ++ t) = ([b], t) := if_pos h

/-- The head of a text that has digits in front, or none. -/
theorem head_digits {ds t : List UInt8} (h : Digits ds) {b : UInt8} (hb : b ∈ (ds ++ t).head?) :
    isDigit b = true := by
  obtain ⟨d, ds', rfl⟩ := List.exists_cons_of_ne_nil h.1
  cases hb
  exact h.2 b List.mem_cons_self

/-- The exponent and what comes after it. -/
theorem scan_exponent {exp rest : List UInt8} (hrest : Follows rest)
    (h : exp = [] ∨ ∃ e s ds, exp = e :: (s ++ ds) ∧ (e = 0x65 ∨ e = 0x45) ∧
      (s = [] ∨ s = [0x2b] ∨ s = [0x2d]) ∧ Digits ds) :
    ∃ e s ds, exp = e ++ (s ++ ds) ∧
      scanOptional (fun b => b == 0x65 || b == 0x45) (exp ++ rest) = (e, s ++ (ds ++ rest)) ∧
      scanOptional (fun b => b == 0x2b || b == 0x2d) (s ++ (ds ++ rest)) = (s, ds ++ rest) ∧
      (∀ b ∈ ds, isDigit b = true) := by
  rcases h with rfl | ⟨e, s, ds, rfl, he, hs, hds⟩
  · refine ⟨[], [], [], rfl, scanOptional_of_head fun b hb => ?_,
      scanOptional_of_head fun b hb => ?_, fun b hb => absurd hb List.not_mem_nil⟩
    · have hne := hrest.not_numeral b hb
      simp [hne.2.2.1, hne.2.2.2.1]
    · have hne := hrest.not_numeral b hb
      simp [hne.2.2.2.2.1, hne.2.2.2.2.2]
  · refine ⟨[e], s, ds, rfl, ?_, ?_, hds.2⟩
    · rw [List.cons_append, List.append_assoc]
      exact scanOptional_singleton (by rcases he with rfl | rfl <;> rfl) _
    · rcases hs with rfl | rfl | rfl
      · refine scanOptional_of_head fun b hb => ?_
        have hne := isDigit_ne (head_digits hds hb)
        simp [hne.2.2.2.1, hne.2.2.2.2]
      · exact scanOptional_singleton rfl _
      · exact scanOptional_singleton rfl _

/-- **The pattern takes a number as a whole.** -/
theorem scanNumeral_append {t rest : List UInt8} (h : Numeral t) (hrest : Follows rest) :
    scanNumeral (t ++ rest) = some (t, rest) := by
  obtain ⟨sign, int, frac, exp, rfl, hsign, hint, hfrac, hexp⟩ := h.parts
  obtain ⟨e, s, ds, hexp_eq, hscan_e, hscan_s, hds⟩ := scan_exponent hrest hexp
  have hmantissa : ∀ b ∈ int ++ frac, (isDigit b || b == 0x2e) = true := by
    intro b hb
    rcases List.mem_append.mp hb with hb | hb
    · rw [hint.2 b hb, Bool.true_or]
    · rcases hfrac with rfl | ⟨ds', rfl, hds'⟩
      · cases hb
      · rcases List.mem_cons.mp hb with rfl | hb
        · rfl
        · rw [hds'.2 b hb, Bool.true_or]
  have hhead : ∀ b ∈ (exp ++ rest).head?, (isDigit b || b == 0x2e) = false := by
    intro b hb
    rcases hexp with rfl | ⟨e', s', ds', rfl, he', -⟩
    · have hne := hrest.not_numeral b hb
      simp [hne.1, hne.2.1]
    · cases hb
      rcases he' with rfl | rfl <;> rfl
  have hsplit : sign ++ (int ++ (frac ++ exp)) ++ rest =
      sign ++ ((int ++ frac) ++ (exp ++ rest)) := by simp only [List.append_assoc]
  have hscan : scanOptional (· == 0x2d) (sign ++ ((int ++ frac) ++ (exp ++ rest))) =
      (sign, (int ++ frac) ++ (exp ++ rest)) := by
    rcases hsign with rfl | rfl
    · refine scanOptional_of_head fun b hb => ?_
      rw [List.nil_append, List.append_assoc] at hb
      simp [(isDigit_ne (head_digits hint hb)).2.2.2.2]
    · exact scanOptional_singleton rfl _
  have hne : int ++ frac ≠ [] := fun h => hint.1 (List.append_eq_nil_iff.mp h).1
  have hend : ∀ b ∈ rest.head?, isDigit b = false := fun b hb => (hrest.not_numeral b hb).1
  rw [hsplit]
  simp only [scanNumeral, hscan, takeWhile_append_of_head hmantissa hhead,
    dropWhile_append_of_head hmantissa hhead, hscan_e, hscan_s,
    takeWhile_append_of_head hds hend, dropWhile_append_of_head hds hend, if_neg hne]
  rw [hexp_eq]
  simp only [List.append_assoc]

/-- A character that no part of a number but its fraction has. -/
def Mark (m : UInt8) : Prop := isDigit m = false ∧ m ∉ [0x2d, 0x2b, 0x65, 0x45]

theorem Mark.not_mem_digits {m : UInt8} (h : Mark m) {ds : List UInt8}
    (hds : ∀ b ∈ ds, isDigit b = true) : m ∉ ds := fun hm =>
  absurd (hds m hm) (by simp [h.1])

theorem Mark.not_mem_sign {m : UInt8} (h : Mark m) {sign : List UInt8}
    (hsign : sign = [] ∨ sign = [0x2b] ∨ sign = [0x2d]) : m ∉ sign := by
  intro hm
  rcases hsign with rfl | rfl | rfl
  · cases hm
  · exact h.2 (by simp [List.mem_singleton.mp hm])
  · exact h.2 (by simp [List.mem_singleton.mp hm])

theorem Mark.not_mem_exponent {m : UInt8} (h : Mark m) {exp : List UInt8}
    (hexp : exp = [] ∨ ∃ e s ds, exp = e :: (s ++ ds) ∧ (e = 0x65 ∨ e = 0x45) ∧
      (s = [] ∨ s = [0x2b] ∨ s = [0x2d]) ∧ Digits ds) : m ∉ exp := by
  rcases hexp with rfl | ⟨e, s, ds, rfl, he, hs, hds⟩
  · exact List.not_mem_nil
  · intro hm
    rcases List.mem_cons.mp hm with rfl | hm
    · exact h.2 (by rcases he with rfl | rfl <;> decide)
    · rcases List.mem_append.mp hm with hm | hm
      · exact h.not_mem_sign hs hm
      · exact h.not_mem_digits hds.2 hm

theorem replace_append_cons {a b : UInt8} {pre post : List UInt8} (h : a ∉ pre) :
    (pre ++ a :: post).replace a b = pre ++ b :: post := by
  rw [List.replace_append_right h, List.replace_cons_self]

/-- The filter keeps the text of a number as it is. -/
theorem filter_keeps {c : Numerals} {x : ℚ} (h : c.Prints x) :
    (c.tostring x).filter c.keeps = c.tostring x := by
  obtain ⟨sign, int, frac, exp, htext, hsign, hint, hfrac, hexp⟩ := h.text
  have hdigit : ∀ b, isDigit b = true → c.keeps b = true := fun b hb => by simp [Numerals.keeps, hb]
  rw [List.filter_eq_self, htext]
  intro b hb
  simp only [List.mem_append] at hb
  rcases hb with hb | hb | hb | hb
  · rcases hsign with rfl | rfl
    · cases hb
    · rw [List.mem_singleton.mp hb]
      rfl
  · exact hdigit b (hint.2 b hb)
  · rcases hfrac with rfl | ⟨ds, rfl, hds⟩
    · cases hb
    · rcases List.mem_cons.mp hb with rfl | hb
      · simp [Numerals.keeps]
      · exact hdigit b (hds.2 b hb)
  · rcases hexp with rfl | ⟨e, s, ds, rfl, he, hs, hds⟩
    · cases hb
    · rcases List.mem_cons.mp hb with rfl | hb
      · rcases he with rfl | rfl <;> rfl
      · rcases List.mem_append.mp hb with hb | hb
        · rcases hs with rfl | rfl | rfl
          · cases hb
          · rw [List.mem_singleton.mp hb]
            rfl
          · rw [List.mem_singleton.mp hb]
            rfl
        · exact hdigit b (hds.2 b hb)

/-- **The text of a number does not depend on the locale**: it has a point where the
locale has its own, and is read again. -/
theorem num2str_prints {c : Numerals} {x : ℚ} (h : c.Prints x) :
    Numeral (num2str c x) ∧ str2num c (num2str c x) = some x := by
  obtain ⟨sign, int, frac, exp, htext, hsign, hint, hfrac, hexp⟩ := h.text
  have hpoint : Mark c.decpoint := h.point
  have hdot : Mark 0x2e := ⟨rfl, by decide⟩
  have hsign' : sign = [] ∨ sign = [0x2b] ∨ sign = [0x2d] := hsign.imp_right Or.inr
  have hpre : ∀ m, Mark m → m ∉ sign ++ int := fun m hm hmem =>
    (List.mem_append.mp hmem).elim (hm.not_mem_sign hsign') (hm.not_mem_digits hint.2)
  rw [str2num, num2str, filter_keeps h]
  rcases hfrac with rfl | ⟨ds, rfl, hds⟩
  · have hnone : ∀ m, Mark m → m ∉ c.tostring x := by
      intro m hm hmem
      rw [htext, List.nil_append, ← List.append_assoc, List.mem_append] at hmem
      exact hmem.elim (hpre m hm) (hm.not_mem_exponent hexp)
    rw [List.replace_of_not_mem (hnone _ hpoint), List.replace_of_not_mem (hnone _ hdot)]
    exact ⟨⟨sign, int, [], exp, htext, hsign, hint, .inl rfl, hexp⟩, h.exact⟩
  · have hsplit : c.tostring x = (sign ++ int) ++ c.decpoint :: (ds ++ exp) := by
      rw [htext, List.append_assoc]
      rfl
    rw [hsplit, replace_append_cons (hpre _ hpoint), replace_append_cons (hpre _ hdot), ← hsplit]
    exact ⟨⟨sign, int, 0x2e :: ds, exp, by simp, hsign, hint, .inr ⟨ds, rfl, hds⟩, hexp⟩, h.exact⟩

/-! ## Texts of values -/

/-- A character that `scanwhite` stops at, and that no bracket or separator is. -/
def Starts (b : UInt8) : Prop :=
  isBlank b = false ∧ b ∉ [0x2f, 0xef, 0x5d, 0x7d, 0x3a, 0x2c]

theorem scanwhite_of_ne {b : UInt8} (hblank : isBlank b = false) (hslash : b ≠ 0x2f)
    (hmark : b ≠ 0xef) (s : List UInt8) : scanwhite .space (b :: s) = some (b :: s) := by
  rw [scanwhite, if_neg (by simp [hblank])]
  · rintro t h -
    exact hmark h
  · rintro t h -
    exact hslash h
  · rintro t h -
    exact hslash h

theorem Starts.scanwhite {b : UInt8} (h : Starts b) (s : List UInt8) :
    scanwhite .space (b :: s) = some (b :: s) :=
  scanwhite_of_ne h.1 (fun e => h.2 (by simp [e])) (fun e => h.2 (by simp [e])) s

theorem scanwhite_blanks {w : List UInt8} (hw : ∀ b ∈ w, isBlank b = true) (s : List UInt8) :
    scanwhite .space (w ++ s) = scanwhite .space s := by
  induction w with
  | nil => rfl
  | cons b w ih =>
    have hb := hw b List.mem_cons_self
    rw [List.cons_append, scanwhite, if_pos hb]
    · exact ih fun d hd => hw d (List.mem_cons_of_mem _ hd)
    · rintro t rfl -
      exact absurd hb (by decide)
    · rintro t rfl -
      exact absurd hb (by decide)
    · rintro t rfl -
      exact absurd hb (by decide)

section Reading
variable (c : Numerals) (nullval : Option Value)

/-- The text is read as the value wherever a value ends behind it. -/
structure Reads (text : List UInt8) (value : Value) : Prop where
  starts : ∃ b t, text = b :: t ∧ Starts b
  scan : ∀ fuel rest, 2 * text.length ≤ fuel → Follows rest →
    scanvalue c nullval fuel (text ++ rest) = .ok (some value, rest)

variable {c nullval}

/-- Numbers and names, and no other text. -/
theorem reads_word {text : List UInt8} {value : Value} {b : UInt8} {t : List UInt8}
    (htext : text = b :: t) (hb : Starts b) (hne : b ∉ [0x7b, 0x5b, 0x22])
    (hscan : ∀ rest, Follows rest → scanWord c nullval (text ++ rest) = .ok (some value, rest)) :
    Reads c nullval text value := by
  refine ⟨⟨b, t, htext, hb⟩, fun fuel rest hfuel hrest => ?_⟩
  obtain ⟨fuel, rfl⟩ : ∃ k, fuel = k + 1 := by
    refine Nat.exists_eq_succ_of_ne_zero ?_
    rw [htext, List.length_cons] at hfuel
    omega
  have hwhite : scanwhite .space (text ++ rest) = some (text ++ rest) := by
    rw [htext]
    exact hb.scanwhite _
  have hhead : ∀ k ∈ [0x7b, 0x5b, 0x22], (text ++ rest).head? ≠ some k := by
    rintro k hk h
    rw [htext] at h
    exact hne (Option.some.inj h ▸ hk)
  rw [scanvalue, hwhite]
  dsimp only
  rw [if_neg (hhead _ (by decide)), if_neg (hhead _ (by decide)), if_neg (hhead _ (by decide))]
  exact hscan rest hrest

theorem reads_number {x : ℚ} (h : c.Prints x) :
    Reads c nullval (num2str c x) (.number x) := by
  obtain ⟨hnumeral, hread⟩ := num2str_prints h
  obtain ⟨b, t, htext, hb⟩ : ∃ b t, num2str c x = b :: t ∧ (isDigit b = true ∨ b = 0x2d) := by
    obtain ⟨sign, int, frac, exp, hparts, hsign, hint, -⟩ := hnumeral.parts
    obtain ⟨d, ds, rfl⟩ := List.exists_cons_of_ne_nil hint.1
    rcases hsign with rfl | rfl
    · exact ⟨d, _, hparts, .inl (hint.2 d List.mem_cons_self)⟩
    · exact ⟨0x2d, _, hparts, .inr rfl⟩
  have key : ∀ n < 256, isDigit (UInt8.ofNat n) = true ∨ UInt8.ofNat n = 0x2d →
      Starts (UInt8.ofNat n) ∧ UInt8.ofNat n ∉ [0x7b, 0x5b, 0x22] := by
    unfold Starts
    decide +kernel
  have hb' := key b.toNat b.toNat_lt (by rwa [UInt8.ofNat_toNat])
  rw [UInt8.ofNat_toNat] at hb'
  refine reads_word htext hb'.1 hb'.2 fun rest hrest => ?_
  rw [scanWord, scanNumeral_append hnumeral hrest]
  simp only [Option.bind_eq_bind, Option.bind_some, hread]
  rfl

/-- The three names. -/
theorem reads_name {name : List UInt8} {value : Value}
    (hname : ∀ b ∈ name, isAlpha b = true) {b : UInt8} {t : List UInt8} (htext : name = b :: t)
    (hvalue : ∀ rest, (if name = lit "true" then .ok (some (.boolean true), rest)
      else if name = lit "false" then .ok (some (.boolean false), rest)
      else if name = lit "null" then .ok (nullval, rest)
      else .error (.noValue (name ++ rest)) : Except ScanError (Option Value × List UInt8)) =
        .ok (some value, rest)) : Reads c nullval name value := by
  have key : ∀ n < 256, isAlpha (UInt8.ofNat n) = true → Starts (UInt8.ofNat n) ∧
      UInt8.ofNat n ∉ [0x7b, 0x5b, 0x22] ∧ isDigit (UInt8.ofNat n) = false ∧
        UInt8.ofNat n ≠ 0x2e ∧ UInt8.ofNat n ≠ 0x2d := by
    unfold Starts
    decide +kernel
  have hb := key b.toNat b.toNat_lt (by
    rw [UInt8.ofNat_toNat]
    exact hname b (htext ▸ List.mem_cons_self))
  rw [UInt8.ofNat_toNat] at hb
  obtain ⟨hstarts, hbracket, hdigit, hdot, hminus⟩ := hb
  refine reads_word htext hstarts hbracket fun rest hrest => ?_
  have hnone : scanNumeral (name ++ rest) = none := by
    have hsign : scanOptional (· == 0x2d) (name ++ rest) = ([], name ++ rest) := by
      refine scanOptional_of_head fun d hd => ?_
      rw [htext] at hd
      cases hd
      simp [hminus]
    have hmantissa : (name ++ rest).takeWhile (fun b => isDigit b || b == 0x2e) = [] := by
      rw [htext, List.cons_append, List.takeWhile_cons, hdigit]
      simp [hdot]
    simp only [scanNumeral, hsign, hmantissa, if_true]
  have hend : ∀ d ∈ rest.head?, (isAlpha d || isDigit d) = false := by
    intro d hd
    rcases hrest d hd with rfl | rfl | rfl | rfl <;> rfl
  have hfirst : (name ++ rest).head?.any isAlpha = true := by
    rw [htext]
    exact hname b (htext ▸ List.mem_cons_self)
  have hall : ∀ d ∈ name, (isAlpha d || isDigit d) = true := fun d hd => by
    rw [hname d hd, Bool.true_or]
  rw [← hvalue rest]
  simp only [scanWord, hnone, Option.bind_eq_bind, Option.bind_none, hfirst, if_true,
    takeWhile_append_of_head hall hend, List.drop_left]

theorem scanvalue_string (s rest : List UInt8) (fuel : Nat) :
    scanvalue c nullval (fuel + 1) (quotestring s ++ rest) = .ok (some (.string s), rest) := by
  obtain ⟨t, ht, hquoted⟩ := quotestring_eq s
  rw [ht, scanvalue, List.cons_append, scanwhite_of_ne (by decide) (by decide) (by decide)]
  simp only [List.head?_cons]
  rw [if_neg (by decide), if_neg (by decide), if_pos trivial, List.tail_cons, List.append_assoc,
    List.singleton_append, scanstring_quoted hquoted]

theorem reads_string (s : List UInt8) : Reads c nullval (quotestring s) (.string s) := by
  obtain ⟨t, ht, -⟩ := quotestring_eq s
  refine ⟨⟨0x22, t ++ [0x22], ht, by decide, by decide⟩, fun fuel rest hfuel hrest => ?_⟩
  obtain ⟨fuel, rfl⟩ : ∃ k, fuel = k + 1 := by
    refine Nat.exists_eq_succ_of_ne_zero ?_
    rw [ht, List.length_cons] at hfuel
    omega
  exact scanvalue_string s rest fuel

/-! ## The loop of `scantable` -/

variable {what : Jsontype} {start : List UInt8}

theorem closechar_ne (what : Jsontype) : isBlank what.closechar = false ∧
    what.closechar ≠ 0x2f ∧ what.closechar ≠ 0xef := by
  cases what <;> decide

theorem Starts.ne_closechar {b : UInt8} (h : Starts b) (what : Jsontype) :
    b ≠ what.closechar := by
  rintro rfl
  cases what
  · exact h.2 (by decide)
  · exact h.2 (by decide)

/-- The closing bracket. -/
theorem scantable_close (fuel : Nat) (tbl : List (Value × Value)) (n : Nat)
    {blanks : List UInt8} (hblanks : ∀ b ∈ blanks, isBlank b = true) (rest : List UInt8) :
    scantable c nullval what start (fuel + 1) tbl n (blanks ++ what.closechar :: rest) =
      .ok (some (.table (some what) tbl), rest) := by
  obtain ⟨hblank, hslash, hmark⟩ := closechar_ne what
  rw [scantable, scanwhiteIn, scanwhite_blanks hblanks, scanwhite_of_ne hblank hslash hmark]
  simp only [bind, Except.bind, List.head?_cons, if_true, pure, Except.pure, List.tail_cons]

/-- One element, and what is behind it up to the next. -/
theorem scantable_element {fuel : Nat} (tbl : List (Value × Value)) (n : Nat)
    {text rest u : List UInt8} {value : Value} (h : Reads c nullval text value)
    (hfuel : 2 * text.length ≤ fuel) (hrest : Follows rest)
    (hu : scanwhite .space rest = some u) (hcolon : u.head? ≠ some 0x3a) :
    scantable c nullval what start (fuel + 1) tbl n (text ++ rest) =
      scantable c nullval what start fuel (setIndex tbl (.number (n + 1)) (some value)) (n + 1)
        (dropComma u) := by
  obtain ⟨b, t, htext, hb⟩ := h.starts
  have hwhite : scanwhite .space (text ++ rest) = some (text ++ rest) := by
    rw [htext]
    exact hb.scanwhite _
  have hne : (text ++ rest).head? ≠ some what.closechar := by
    rw [htext]
    exact fun e => hb.ne_closechar what (Option.some.inj e)
  rw [scantable, scanwhiteIn, hwhite]
  simp only [bind, Except.bind, if_neg hne, h.scan fuel rest hfuel hrest, scanwhiteIn, hu,
    if_neg hcolon]

/-- One pair. -/
theorem scantable_pair {fuel : Nat} (tbl : List (Value × Value)) (n : Nat)
    {blanks key text rest u : List UInt8} {value : Value} (h : Reads c nullval text value)
    (hblanks : ∀ b ∈ blanks, isBlank b = true) (hfuel : 2 * text.length ≤ fuel)
    (hrest : Follows rest) (hu : scanwhite .space rest = some u) :
    scantable c nullval what start (fuel + 1) tbl n
        (blanks ++ (quotestring key ++ 0x3a :: (text ++ rest))) =
      scantable c nullval what start fuel (setIndex tbl (.string key) (some value)) n
        (dropComma u) := by
  obtain ⟨b, t, htext, hb⟩ := h.starts
  obtain ⟨fuel, rfl⟩ : ∃ k, fuel = k + 1 := by
    refine Nat.exists_eq_succ_of_ne_zero ?_
    rw [htext, List.length_cons] at hfuel
    omega
  obtain ⟨q, hq, -⟩ := quotestring_eq key
  have hquote : Starts 0x22 := ⟨by decide, by decide⟩
  have hwhite : scanwhite .space (blanks ++ (quotestring key ++ 0x3a :: (text ++ rest))) =
      some (quotestring key ++ 0x3a :: (text ++ rest)) := by
    rw [scanwhite_blanks hblanks, hq]
    exact hquote.scanwhite _
  have hne : (quotestring key ++ 0x3a :: (text ++ rest)).head? ≠ some what.closechar := by
    rw [hq]
    exact fun e => hquote.ne_closechar what (Option.some.inj e)
  have hcolon : scanwhite .space (0x3a :: (text ++ rest)) = some (0x3a :: (text ++ rest)) :=
    scanwhite_of_ne (by decide) (by decide) (by decide) _
  have hvalue : scanwhite .space (text ++ rest) = some (text ++ rest) := by
    rw [htext]
    exact hb.scanwhite _
  rw [scantable, scanwhiteIn, hwhite]
  simp only [bind, Except.bind, if_neg hne, scanvalue_string, scanwhiteIn, hcolon,
    List.head?_cons, if_true, List.tail_cons, hvalue, h.scan _ rest hfuel hrest, hu]

/-- The entries of a table that is read as an array, `p j` being the text and the value
of the element after the first `j`. -/
def elements (p : Nat → List UInt8 × Value) (n : Nat) : List (Value × Value) :=
  (List.range n).map fun j : Nat => (.number (j + 1), (p j).2)

theorem setIndex_of_fresh {tbl : List (Value × Value)} {key : Value}
    (h : ∀ e ∈ tbl, key.sameKey e.1 = false) (value : Value) :
    setIndex tbl key (some value) = tbl ++ [(key, value)] :=
  if_neg (by simpa using h)

theorem setIndex_elements (p : Nat → List UInt8 × Value) (n : Nat) :
    setIndex (elements p n) (.number (n + 1)) (some (p n).2) = elements p (n + 1) := by
  rw [setIndex_of_fresh, elements, elements, List.range_succ, List.map_append, List.map_singleton]
  rintro _ he
  obtain ⟨j, hj, rfl⟩ := List.mem_map.mp he
  have hne : (n + 1 : ℚ) ≠ j + 1 := by
    have := List.mem_range.mp hj
    exact_mod_cast (by omega : n + 1 ≠ j + 1)
  simp [Value.sameKey, hne]

/-- What is behind the first of several texts with commas between them. -/
def behind (ts : List (List UInt8)) (post : List UInt8) : List UInt8 :=
  if ts = [] then post else 0x2c :: ([0x2c].intercalate ts ++ post)

theorem intercalate_append (t : List UInt8) (ts : List (List UInt8)) (post : List UInt8) :
    [0x2c].intercalate (t :: ts) ++ post = t ++ behind ts post := by
  unfold behind
  cases ts with
  | nil => rw [List.intercalate_singleton, if_pos rfl]
  | cons u ts =>
    rw [List.intercalate_cons_cons, if_neg (List.cons_ne_nil _ _), List.append_assoc,
      List.append_assoc, List.singleton_append]

theorem length_intercalate_cons (t : List UInt8) (ts : List (List UInt8)) :
    t.length + ([0x2c].intercalate ts).length ≤ ([0x2c].intercalate (t :: ts)).length := by
  cases ts with
  | nil => simp
  | cons u ts =>
    rw [List.intercalate_cons_cons, List.length_append, List.length_append]
    omega

theorem follows_behind {post : List UInt8} (h : Follows post) (ts : List (List UInt8)) :
    Follows (behind ts post) := by
  unfold behind
  split
  · exact h
  · intro b hb
    cases hb
    exact .inl rfl

theorem Reads.length_pos {text : List UInt8} {value : Value} (h : Reads c nullval text value) :
    0 < text.length := by
  obtain ⟨b, t, rfl, -⟩ := h.starts
  exact Nat.succ_pos _

theorem exists_succ_of_le {fuel k : Nat} (h : k + 1 ≤ fuel) : ∃ m, fuel = m + 1 :=
  Nat.exists_eq_succ_of_ne_zero (by omega)

/-- **The elements of an array**, with commas between them. -/
theorem scantable_items (p : Nat → List UInt8 × Value) (rest : List UInt8) (m : Nat) :
    ∀ i fuel, (∀ j < i + m, Reads c nullval (p j).1 (p j).2) →
      2 * ([0x2c].intercalate ((List.range' i m).map fun j => (p j).1)).length + 1 ≤ fuel →
      scantable c nullval .array start fuel (elements p i) i
        ([0x2c].intercalate ((List.range' i m).map fun j => (p j).1) ++ 0x5d :: rest) =
        .ok (some (.table (some .array) (elements p (i + m))), rest) := by
  induction m with
  | zero =>
    intro i fuel hp hfuel
    obtain ⟨fuel, rfl⟩ := exists_succ_of_le hfuel
    exact scantable_close fuel _ i (fun b hb => absurd hb List.not_mem_nil) rest
  | succ m ih =>
    intro i fuel hp hfuel
    have hi := hp i (by omega)
    obtain ⟨fuel, rfl⟩ := exists_succ_of_le hfuel
    rw [List.range'_succ, List.map_cons] at hfuel ⊢
    have hlength := length_intercalate_cons (p i).1 ((List.range' (i + 1) m).map fun j => (p j).1)
    have hpos := hi.length_pos
    have hnext := ih (i + 1) fuel (fun j hj => hp j (by omega)) (by omega)
    rw [show i + 1 + m = i + (m + 1) by omega] at hnext
    have hfollows : Follows (0x5d :: rest) := fun b hb => by
      cases hb
      exact .inr (.inl rfl)
    -- the search stops right behind the element, at a comma or at the bracket
    have hbehind : scanwhite .space (behind ((List.range' (i + 1) m).map fun j => (p j).1)
        (0x5d :: rest)) = some (behind ((List.range' (i + 1) m).map fun j => (p j).1)
        (0x5d :: rest)) := by
      unfold behind
      split <;> exact scanwhite_of_ne (by decide) (by decide) (by decide) _
    have hcolon : (behind ((List.range' (i + 1) m).map fun j => (p j).1)
        (0x5d :: rest)).head? ≠ some 0x3a := by
      unfold behind
      split <;> simp
    have hdrop : dropComma (behind ((List.range' (i + 1) m).map fun j => (p j).1)
        (0x5d :: rest)) =
        [0x2c].intercalate ((List.range' (i + 1) m).map fun j => (p j).1) ++ 0x5d :: rest := by
      unfold behind
      split
      · rename_i hnil
        rw [hnil]
        rfl
      · rfl
    rw [intercalate_append, scantable_element _ i hi (by omega) (follows_behind hfollows _)
      hbehind hcolon, setIndex_elements, hdrop, hnext]

/-- The entries of a table that is read as an object, from the names, texts and values
of the pairs. -/
def fields (l : List (List UInt8 × List UInt8 × Value)) : List (Value × Value) :=
  l.map fun q => (.string q.1, q.2.2)

/-- **The pairs of an object**, each after white space and with commas between them. -/
theorem scantable_pairs {blanks blanks' : List UInt8} (hblanks : ∀ b ∈ blanks, isBlank b = true)
    (hblanks' : ∀ b ∈ blanks', isBlank b = true) (rest : List UInt8)
    (hpost : Follows (blanks' ++ 0x7d :: rest)) (l : List (List UInt8 × List UInt8 × Value)) :
    ∀ done fuel, (∀ q ∈ l, Reads c nullval q.2.1 q.2.2) → ((done ++ l).map Prod.fst).Nodup →
      2 * ([0x2c].intercalate (l.map fun q =>
        blanks ++ (quotestring q.1 ++ 0x3a :: q.2.1))).length + 1 ≤ fuel →
      scantable c nullval .object start fuel (fields done) 0
        ([0x2c].intercalate (l.map fun q => blanks ++ (quotestring q.1 ++ 0x3a :: q.2.1)) ++
          (blanks' ++ 0x7d :: rest)) =
        .ok (some (.table (some .object) (fields (done ++ l))), rest) := by
  induction l with
  | nil =>
    intro done fuel _ _ hfuel
    obtain ⟨fuel, rfl⟩ := exists_succ_of_le hfuel
    rw [List.append_nil]
    exact scantable_close fuel _ 0 hblanks' rest
  | cons q l ih =>
    intro done fuel hl hnodup hfuel
    have hq := hl q List.mem_cons_self
    have hfresh : ∀ e ∈ fields done, (Value.string q.1).sameKey e.1 = false := by
      intro e he
      obtain ⟨r, hr, rfl⟩ := List.mem_map.mp he
      rw [List.map_append, List.map_cons] at hnodup
      have hne : q.1 ≠ r.1 := fun h => (List.nodup_append.mp hnodup).2.2 r.1
        (List.mem_map_of_mem hr) q.1 List.mem_cons_self h.symm
      simp [Value.sameKey, hne]
    have hset : setIndex (fields done) (.string q.1) (some q.2.2) = fields (done ++ [q]) := by
      rw [setIndex_of_fresh hfresh, fields, fields, List.map_append, List.map_singleton]
    obtain ⟨fuel, rfl⟩ := exists_succ_of_le hfuel
    rw [List.map_cons] at hfuel ⊢
    have hlength := length_intercalate_cons (blanks ++ (quotestring q.1 ++ 0x3a :: q.2.1))
      (l.map fun q => blanks ++ (quotestring q.1 ++ 0x3a :: q.2.1))
    simp only [List.length_append, List.length_cons] at hlength hfuel
    have hnext := ih (done ++ [q]) fuel (fun r hr => hl r (List.mem_cons_of_mem _ hr))
      (by rwa [List.append_assoc]) (by omega)
    have hpair := fun u => @scantable_pair c nullval .object start fuel (fields done) 0 blanks q.1
      q.2.1 (behind (l.map fun q => blanks ++ (quotestring q.1 ++ 0x3a :: q.2.1))
        (blanks' ++ 0x7d :: rest)) u q.2.2 hq hblanks (by omega) (follows_behind hpost _)
    rw [intercalate_append]
    simp only [List.append_assoc, List.cons_append, hset] at hpair hnext ⊢
    cases l with
    | nil =>
      -- the last pair: white space may be left in front of the bracket
      have hbrace : scanwhite .space (behind [] (blanks' ++ 0x7d :: rest)) =
          some (0x7d :: rest) := by
        rw [behind, if_pos rfl, scanwhite_blanks hblanks']
        exact scanwhite_of_ne (by decide) (by decide) (by decide) _
      obtain ⟨fuel, rfl⟩ : ∃ k, fuel = k + 1 := exists_succ_of_le (k := 0) (by
        have := hq.length_pos
        omega)
      rw [List.map_nil] at hpair ⊢
      rw [hpair _ hbrace]
      exact scantable_close fuel _ 0 (fun b hb => absurd hb List.not_mem_nil) rest
    | cons r l =>
      rw [behind, List.map_cons, if_neg (List.cons_ne_nil _ _)] at hpair ⊢
      rw [List.map_cons] at hnext
      rw [hpair _ (scanwhite_of_ne (by decide) (by decide) (by decide) _)]
      exact hnext

theorem reads_array (p : Nat → List UInt8 × Value) (n : Nat)
    (h : ∀ j < n, Reads c nullval (p j).1 (p j).2) :
    Reads c nullval
      (0x5b :: ([0x2c].intercalate ((List.range n).map fun j => (p j).1) ++ [0x5d]))
      (.table (some .array) (elements p n)) := by
  refine ⟨⟨0x5b, _, rfl, by decide, by decide⟩, fun fuel rest hfuel hrest => ?_⟩
  simp only [List.length_cons, List.length_append, List.length_nil] at hfuel
  obtain ⟨fuel, rfl⟩ := exists_succ_of_le (show 0 + 1 ≤ fuel by omega)
  rw [scanvalue, List.cons_append, scanwhite_of_ne (by decide) (by decide) (by decide)]
  simp only [List.head?_cons]
  rw [if_neg (by decide), if_pos trivial, List.tail_cons, List.append_assoc, List.singleton_append,
    List.range_eq_range']
  rw [List.range_eq_range'] at hfuel
  have hitems := @scantable_items c nullval (0x5b :: ([0x2c].intercalate ((List.range' 0 n).map
    fun j => (p j).1) ++ 0x5d :: rest)) p rest n 0 fuel (by rwa [Nat.zero_add]) (by omega)
  rwa [Nat.zero_add] at hitems

theorem reads_object {blanks blanks' : List UInt8} (hblanks : ∀ b ∈ blanks, isBlank b = true)
    (hblanks' : ∀ b ∈ blanks', isBlank b = true) (hpost : ∀ t, Follows (blanks' ++ 0x7d :: t))
    {l : List (List UInt8 × List UInt8 × Value)} (h : ∀ q ∈ l, Reads c nullval q.2.1 q.2.2)
    (hnodup : (l.map Prod.fst).Nodup) :
    Reads c nullval
      (0x7b :: ([0x2c].intercalate (l.map fun q =>
        blanks ++ (quotestring q.1 ++ 0x3a :: q.2.1)) ++ (blanks' ++ [0x7d])))
      (.table (some .object) (fields l)) := by
  refine ⟨⟨0x7b, _, rfl, by decide, by decide⟩, fun fuel rest hfuel hrest => ?_⟩
  rw [List.length_cons, List.length_append] at hfuel
  obtain ⟨fuel, rfl⟩ := exists_succ_of_le (show 0 + 1 ≤ fuel by omega)
  rw [scanvalue, List.cons_append, scanwhite_of_ne (by decide) (by decide) (by decide)]
  simp only [List.head?_cons]
  rw [if_pos trivial, List.tail_cons, List.append_assoc, List.append_assoc, List.singleton_append]
  exact scantable_pairs hblanks hblanks' rest (hpost rest) l [] fuel h hnodup (by omega)

end Reading

/-! ## Tables -/

section Tables
variable {α β : Type*} {es es' : List (Value × α)} {k : Value}

theorem index_map (f : Value × α → β) (es : List (Value × α)) (k : Value) :
    index (es.map fun e => (e.1, f e)) k = (es.find? fun e => k.sameKey e.1).map f := by
  unfold index
  rw [List.find?_map, Option.map_map]
  rfl

theorem index_eq_some {v : α} (h : index es k = some v) :
    ∃ e ∈ es, k.sameKey e.1 = true ∧ e.2 = v := by
  obtain ⟨e, he, rfl⟩ := Option.map_eq_some_iff.mp h
  have hkey := List.find?_some he
  exact ⟨e, List.mem_of_find?_eq_some he, hkey, rfl⟩

theorem isSome_index (es : List (Value × α)) (k : Value) :
    (index es k).isSome = (es.map Prod.fst).any k.sameKey := by
  rw [index, Option.isSome_map, List.any_map, List.isSome_find?]
  rfl

theorem sameKey_number {x : ℚ} (h : k.sameKey (.number x) = true) : k = .number x := by
  cases k <;> simp_all [Value.sameKey]

end Tables

theorem encodeEntries_eq (c : Numerals) (indent : Bool) (level : Nat)
    (es : List (Value × Value)) :
    encodeEntries c indent level es = es.map fun e => (e.1, encode2 c indent level e.2) := by
  induction es with
  | nil => rfl
  | cons e es ih => rw [encodeEntries, ih, List.map_cons]

theorem mapM_eq_ok {α β ε : Type*} {f : α → Except ε β} {g : α → β} {l : List α}
    (h : ∀ a ∈ l, f a = .ok (g a)) : l.mapM f = .ok (l.map g) := by
  induction l with
  | nil => rfl
  | cons a l ih =>
    rw [List.mapM_cons, h a List.mem_cons_self, ih fun b hb => h b (List.mem_cons_of_mem _ hb)]
    rfl

/-! ## Arrays and objects -/

section Isarray
variable {es : List (Value × Value)}

theorem floor_natCast (n : Nat) : (n : ℚ).floor = n := Rat.floor_intCast n

theorem countEntry_number (s : Counting) (i : Nat) (v : Value) :
    countEntry s (.number (i + 1), v) =
      some { s with max := if s.max < i + 1 then i + 1 else s.max, n := s.n + 1 } := by
  have hfloor : (((i : ℚ) + 1).floor : ℚ) = i + 1 := by
    have := floor_natCast (i + 1)
    rw [Nat.cast_succ] at this
    rw [this]
    push_cast
    rfl
  have hone : ¬((i : ℚ) + 1 < 1) := not_lt.mpr (by simp)
  rw [countEntry, if_neg (by simp [hfloor, hone])]

/-- The variables after keys that are positions: the greatest of them and their number. -/
theorem foldlM_countEntry (s : Counting)
    (h : ∀ e ∈ es, ∃ i : Nat, e.1 = .number (i + 1)) :
    ∃ m, es.foldlM countEntry s = some ⟨m, s.n + es.length, s.arraylen⟩ ∧ s.max ≤ m ∧
      (∀ e ∈ es, ∀ x, e.1 = .number x → x ≤ m) ∧ (m = s.max ∨ ∃ e ∈ es, e.1 = .number m) := by
  induction es generalizing s with
  | nil => exact ⟨s.max, rfl, le_rfl, fun e he => absurd he List.not_mem_nil, .inl rfl⟩
  | cons e es ih =>
    obtain ⟨i, hi⟩ := h e List.mem_cons_self
    obtain ⟨k, v⟩ := e
    obtain rfl : k = .number (i + 1) := hi
    obtain ⟨m, hm, hle, hall, hmem⟩ := ih
      { s with max := if s.max < i + 1 then i + 1 else s.max, n := s.n + 1 }
      fun e he => h e (List.mem_cons_of_mem _ he)
    dsimp only at hm hle hmem
    have hmax : s.max ≤ (if s.max < i + 1 then (i : ℚ) + 1 else s.max) := by
      split
      · exact le_of_lt ‹_›
      · exact le_rfl
    have hnew : (i : ℚ) + 1 ≤ (if s.max < i + 1 then (i : ℚ) + 1 else s.max) := by
      split
      · exact le_rfl
      · exact not_lt.mp ‹_›
    refine ⟨m, ?_, hmax.trans hle, ?_, ?_⟩
    · rw [List.foldlM_cons, countEntry_number]
      simp only [Option.bind_eq_bind, Option.bind_some, hm, List.length_cons]
      rw [Nat.add_right_comm, Nat.add_assoc]
    · intro e he x hx
      rcases List.mem_cons.mp he with rfl | he
      · cases hx
        exact hnew.trans hle
      · exact hall e he x hx
    · rcases hmem with hm' | ⟨e, he, hm'⟩
      · split at hm'
        · exact .inr ⟨_, List.mem_cons_self, by rw [hm']⟩
        · exact .inl hm'
      · exact .inr ⟨e, List.mem_cons_of_mem _ he, hm'⟩

/-- **The positions from 1 on, in any order, are the keys of an array.** -/
theorem isarray_of_perm {n : Nat}
    (h : (es.map Prod.fst).Perm ((List.range n).map fun i : Nat => .number (i + 1))) :
    isarray es = some (n : ℚ) := by
  have hkey : ∀ e ∈ es, ∃ i < n, e.1 = .number ((i : ℚ) + 1) := by
    intro e he
    obtain ⟨i, hi, hei⟩ := List.mem_map.mp (h.subset (List.mem_map_of_mem he))
    exact ⟨i, List.mem_range.mp hi, hei.symm⟩
  have hlength : es.length = n := by
    have := h.length_eq
    rwa [List.length_map, List.length_map, List.length_range] at this
  obtain ⟨m, hm, hpos, hall, hmem⟩ := foldlM_countEntry ⟨0, 0, 0⟩
    fun e he => (hkey e he).imp fun _ h => h.2
  have hmn : m = n := by
    refine le_antisymm ?_ ?_
    · rcases hmem with rfl | ⟨e, he, hem⟩
      · exact Nat.cast_nonneg n
      · obtain ⟨i, hi, hei⟩ := hkey e he
        obtain rfl : (i : ℚ) + 1 = m := Value.number.inj (hei.symm.trans hem)
        exact_mod_cast hi
    · cases n with
      | zero => simpa using hpos
      | succ k =>
        have hlast : Value.number (((k : Nat) : ℚ) + 1) ∈ es.map Prod.fst :=
          h.symm.subset (List.mem_map.mpr ⟨k, List.mem_range.mpr (Nat.lt_succ_self k), rfl⟩)
        obtain ⟨e, he, hek⟩ := List.mem_map.mp hlast
        rw [Nat.cast_succ]
        exact hall e he _ hek
  have hdense : ¬(10 < m ∧ (0 : ℚ) < m ∧ (((0 + es.length : Nat) : ℚ) * 2) < m) := by
    rintro ⟨-, hm0, hn⟩
    rw [hlength, Nat.zero_add, ← hmn] at hn
    linarith
  rw [isarray, hm]
  simp only [Option.bind_eq_bind, Option.bind_some]
  rw [if_neg hdense, hmn]

theorem foldlM_of_stops {e : Value × Value} (he : e ∈ es) (hstop : ∀ s, countEntry s e = none)
    (s : Counting) : es.foldlM countEntry s = none := by
  induction es generalizing s with
  | nil => cases he
  | cons d es ih =>
    rw [List.foldlM_cons]
    rcases List.mem_cons.mp he with rfl | he
    · rw [hstop]
      rfl
    · cases countEntry s d with
      | none => rfl
      | some s' => exact ih he s'

/-- **Strings as keys make an object**, unless the only one is `n` with a number. -/
theorem isarray_of_names {names : List (List UInt8)} (keys : es.map Prod.fst = names.map .string)
    (nodup : names.Nodup) (hne : es ≠ []) (not_n : ∀ x, es ≠ [(.string [0x6e], .number x)]) :
    isarray es = none := by
  obtain ⟨e, he, hstop⟩ : ∃ e ∈ es, ∀ s, countEntry s e = none := by
    by_contra hnone
    -- otherwise every entry is a number in `n`, and there is only one `n`
    have hcount : ∀ e ∈ es, ∃ x, e = (.string [0x6e], .number x) := by
      intro e he
      obtain ⟨name, -, hname⟩ := List.mem_map.mp (keys ▸ List.mem_map_of_mem he)
      by_contra hx
      refine hnone ⟨e, he, fun s => ?_⟩
      obtain ⟨k, v⟩ := e
      obtain rfl : Value.string name = k := hname
      unfold countEntry
      split
      · rename_i heq
        exact absurd ⟨_, heq⟩ hx
      · rename_i heq
        cases heq
      · rfl
    have hname : ∀ name ∈ names, name = [0x6e] := by
      intro name hmem
      obtain ⟨e, he, hek⟩ := List.mem_map.mp (keys.symm ▸ List.mem_map_of_mem hmem)
      obtain ⟨x, rfl⟩ := hcount e he
      exact (Value.string.inj hek).symm
    have hlength : es.length = names.length := by
      have := congrArg List.length keys
      rwa [List.length_map, List.length_map] at this
    match names with
    | [] => exact hne (List.length_eq_zero_iff.mp hlength)
    | [_] =>
      obtain ⟨e, rfl⟩ := List.length_eq_one_iff.mp hlength
      obtain ⟨x, rfl⟩ := hcount e List.mem_cons_self
      exact not_n x rfl
    | a :: b :: _ =>
      have ha := hname a List.mem_cons_self
      have hb := hname b (List.mem_cons_of_mem _ List.mem_cons_self)
      rw [ha, hb] at nodup
      exact absurd nodup (by simp)
  rw [isarray, foldlM_of_stops he hstop]
  rfl

end Isarray

/-! ## The round trip -/

section RoundTrip
variable {c : Numerals} {nullval : Option Value}

/-- `addnewline2`, or nothing. -/
def newline (indent : Bool) (level : Nat) : List UInt8 := if indent then addnewline level else []

theorem isBlank_newline (indent : Bool) (level : Nat) :
    ∀ b ∈ newline indent level, isBlank b = true := by
  intro b hb
  cases indent with
  | false => cases hb
  | true =>
    rcases List.mem_cons.mp hb with rfl | hb
    · rfl
    · rw [List.eq_of_mem_replicate hb]
      rfl

theorem follows_newline (indent : Bool) (level : Nat) (t : List UInt8) :
    Follows (newline indent level ++ 0x7d :: t) := by
  intro b hb
  cases indent with
  | false =>
    cases hb
    exact .inr (.inr (.inl rfl))
  | true =>
    cases hb
    exact .inr (.inr (.inr rfl))

/-- The name of a pair. -/
def keyName : Value → List UInt8
  | .string s => s
  | _ => []

/-- The table read for an array has the values of the table written. -/
theorem same_array {t t' : Option Jsontype} {es : List (Value × Value)} {n : Nat}
    (keys : (es.map Prod.fst).Perm ((List.range n).map fun i : Nat => .number (i + 1)))
    {p : Nat → List UInt8 × Value}
    (h : ∀ j < n, ∀ v, index es (.number (j + 1)) = some v → Same v (p j).2) :
    Same (.table t es) (.table t' (elements p n)) := by
  have hkeys : (elements p n).map Prod.fst =
      (List.range n).map fun i : Nat => .number ((i : ℚ) + 1) := by
    rw [elements, List.map_map]
    rfl
  refine .table (fun k => ?_) fun k v v' hv hv' => ?_
  · rw [isSome_index, isSome_index, hkeys, keys.any_eq]
  · obtain ⟨e, he, hkey, rfl⟩ := index_eq_some hv'
    obtain ⟨j, hj, rfl⟩ := List.mem_map.mp he
    rw [sameKey_number hkey] at hv
    exact h j (List.mem_range.mp hj) v hv

/-- The table read for an object has the values of the table written. -/
theorem same_object {t t' : Option Jsontype} {es : List (Value × Value)}
    {f : Value × Value → Value} (h : ∀ e ∈ es, Same e.2 (f e)) :
    Same (.table t es) (.table t' (es.map fun e => (e.1, f e))) := by
  refine .table (fun k => ?_) fun k v v' hv hv' => ?_
  · rw [isSome_index, isSome_index, List.map_map]
    rfl
  · rw [index_map] at hv'
    obtain ⟨e, he, rfl⟩ := Option.map_eq_some_iff.mp hv
    rw [he] at hv'
    cases hv'
    exact h e (List.mem_of_find?_eq_some he)

theorem arrayText_eq {n : Nat} {es : List (Value × Value)} {p : Nat → List UInt8 × Value}
    {f : Value → Except (List UInt8) (List UInt8)}
    (h : ∀ j < n, ∃ v, index es (.number (j + 1)) = some v ∧ f v = .ok (p j).1) :
    arrayText n (es.map fun e => (e.1, f e.2)) =
      .ok (0x5b :: ([0x2c].intercalate ((List.range n).map fun j => (p j).1) ++ [0x5d])) := by
  have hitem : ∀ j ∈ List.range n,
      (index (es.map fun e => (e.1, f e.2)) (.number ((j : ℚ) + 1))).getD (.ok (lit "null")) =
        .ok (p j).1 := by
    intro j hj
    obtain ⟨v, hv, hf⟩ := h j (List.mem_range.mp hj)
    obtain ⟨e, he, rfl⟩ := Option.map_eq_some_iff.mp hv
    rw [index_map, he, Option.map_some, Option.getD_some, hf]
  have hlast : ¬((n : ℚ).floor : ℚ) < n := by
    rw [floor_natCast]
    simp
  rw [arrayText, floor_natCast, Int.toNat_natCast, mapM_eq_ok hitem]
  simp only [bind, Except.bind, pure, Except.pure]
  rw [floor_natCast] at hlast
  rw [if_neg fun h => hlast h.2, List.nil_append]

theorem objectText_eq {indent : Bool} {level : Nat} {es : List (Value × Value)}
    {f : Value → Except (List UInt8) (List UInt8)} {name text : Value × Value → List UInt8}
    (hkey : ∀ e ∈ es, e.1 = .string (name e)) (htext : ∀ e ∈ es, f e.2 = .ok (text e)) :
    objectText c indent level (es.map fun e => (e.1, f e.2)) =
      .ok (0x7b :: ([0x2c].intercalate (es.map fun e => newline indent (level + 1) ++
        (quotestring (name e) ++ 0x3a :: text e)) ++ (newline indent level ++ [0x7d]))) := by
  have hpair : ∀ e ∈ es, addpair c indent (level + 1) (e.1, f e.2) =
      .ok (newline indent (level + 1) ++ (quotestring (name e) ++ 0x3a :: text e)) := by
    intro e he
    rw [addpair, hkey e he, keyText, htext e he]
    rfl
  rw [objectText, List.mapM_map]
  have hpairs : es.mapM (addpair c indent (level + 1) ∘ fun e => (e.1, f e.2)) = _ :=
    mapM_eq_ok hpair
  rw [hpairs]
  rfl

/-- **A plain value is written as a text that is read as the same value.** -/
theorem encode2_plain {v : Value} (h : Plain c nullval v) (indent : Bool) :
    ∀ level, ∃ text v', encode2 c indent level v = .ok text ∧ Reads c nullval text v' ∧
      Same v v' := by
  induction h with
  | null h =>
    intro level
    exact ⟨lit "null", .null, rfl, reads_name (by decide) rfl (fun rest => by rw [h]; rfl), .null⟩
  | boolean b =>
    intro level
    cases b with
    | true => exact ⟨lit "true", _, rfl, reads_name (by decide) rfl (fun rest => rfl), .boolean _⟩
    | false => exact ⟨lit "false", _, rfl, reads_name (by decide) rfl (fun rest => rfl), .boolean _⟩
  | number x h => exact fun level => ⟨_, _, rfl, reads_number h, .number x⟩
  | string s => exact fun level => ⟨_, _, rfl, reads_string s, .string s⟩
  | @array t es n keys meta_ne values ih =>
    intro level
    have hentry : ∀ j, ∃ q : List UInt8 × Value, j < n → ∃ v,
        index es (.number ((j : ℚ) + 1)) = some v ∧ encode2 c indent (level + 1) v = .ok q.1 ∧
          Reads c nullval q.1 q.2 ∧ Same v q.2 := by
      intro j
      by_cases hj : j < n
      · have hmem : Value.number ((j : ℚ) + 1) ∈ es.map Prod.fst :=
          keys.symm.subset (List.mem_map.mpr ⟨j, List.mem_range.mpr hj, rfl⟩)
        have hsome : (index es (.number ((j : ℚ) + 1))).isSome = true := by
          rw [isSome_index, List.any_eq_true]
          exact ⟨_, hmem, decide_eq_true rfl⟩
        obtain ⟨v, hv⟩ := Option.isSome_iff_exists.mp hsome
        obtain ⟨e, he, -, rfl⟩ := index_eq_some hv
        obtain ⟨text, v', htext, hreads, hsame⟩ := ih e he (level + 1)
        exact ⟨(text, v'), fun _ => ⟨e.2, hv, htext, hreads, hsame⟩⟩
      · exact ⟨([], .null), fun h => absurd h hj⟩
    choose p hp using hentry
    refine ⟨_, .table (some .array) (elements p n), ?_, reads_array p n fun j hj => ?_,
      same_array keys fun j hj v hv => ?_⟩
    · have hmeta : ¬((n : ℚ) = 0 ∧ t = some .object) := fun h =>
        meta_ne (by exact_mod_cast h.1) h.2
      rw [encode2, isarray_of_perm keys]
      dsimp only
      rw [if_neg hmeta, encodeEntries_eq]
      exact arrayText_eq fun j hj => (hp j hj).imp fun v h => ⟨h.1, h.2.1⟩
    · obtain ⟨v, -, -, hreads, -⟩ := hp j hj
      exact hreads
    · obtain ⟨w, hw, -, -, hsame⟩ := hp j hj
      rw [hv] at hw
      cases hw
      exact hsame
  | @object t es names keys nodup meta_eq not_n values ih =>
    intro level
    have hentry : ∀ e : Value × Value, ∃ q : List UInt8 × Value, e ∈ es →
        encode2 c indent (level + 1) e.2 = .ok q.1 ∧ Reads c nullval q.1 q.2 ∧ Same e.2 q.2 := by
      intro e
      by_cases he : e ∈ es
      · obtain ⟨text, v', h⟩ := ih e he (level + 1)
        exact ⟨(text, v'), fun _ => h⟩
      · exact ⟨([], .null), fun h => absurd h he⟩
    choose p hp using hentry
    have hkey : ∀ e ∈ es, e.1 = .string (keyName e.1) := by
      intro e he
      obtain ⟨name, -, hname⟩ := List.mem_map.mp (keys ▸ List.mem_map_of_mem he)
      rw [← hname]
      rfl
    have hnames : (es.map fun e => keyName e.1) = names := by
      have h := congrArg (List.map keyName) keys
      rw [List.map_map, List.map_map] at h
      exact h.trans (List.map_id names)
    have hfields : fields (es.map fun e => (keyName e.1, p e)) =
        es.map fun e => (e.1, (p e).2) := by
      rw [fields, List.map_map]
      exact List.map_congr_left fun e he => by
        rw [Function.comp_apply, ← hkey e he]
    have hreads := @reads_object c nullval (newline indent (level + 1)) (newline indent level)
      (isBlank_newline indent _) (isBlank_newline indent _) (follows_newline indent level)
      (es.map fun e => (keyName e.1, p e)) (fun q hq => by
        obtain ⟨e, he, rfl⟩ := List.mem_map.mp hq
        exact (hp e he).2.1)
      (by rwa [List.map_map, show Prod.fst ∘ (fun e : Value × Value => (keyName e.1, p e)) =
        fun e => keyName e.1 from rfl, hnames])
    rw [hfields, List.map_map] at hreads
    refine ⟨_, _, ?_, hreads, same_object fun e he => (hp e he).2.2⟩
    have hobject := @objectText_eq c indent level es (encode2 c indent (level + 1))
      (fun e => keyName e.1) (fun e => (p e).1) hkey fun e he => (hp e he).1
    rw [encode2, encodeEntries_eq]
    by_cases hne : es = []
    · subst hne
      rw [show isarray [] = some 0 from rfl]
      dsimp only
      rw [if_pos ⟨rfl, meta_eq rfl⟩]
      exact hobject
    · rw [isarray_of_names keys nodup hne not_n]
      exact hobject

/-- **What is encoded is decoded**: a plain value, written with or without indentation,
is read as the same value, up to the end of the text. -/
theorem decode_encode {v : Value} (h : Plain c nullval v) (indent : Bool) :
    ∃ text v', encode c indent v = .ok text ∧ decode c nullval text = .ok (some v', []) ∧
      Same v v' := by
  obtain ⟨text, v', htext, hreads, hsame⟩ := encode2_plain h indent 0
  have hscan := hreads.scan (2 * text.length + 1) [] (by omega) (fun b hb => by cases hb)
  rw [List.append_nil] at hscan
  exact ⟨text, v', htext, hscan, hsame⟩

end RoundTrip

/-- Two numbers of a locale with a decimal comma. -/
def withComma : Numerals where
  tostring x := if x = 42 then lit "42" else lit "0,5"
  tonumber t := if t = lit "42" then some 42 else if t = lit "0,5" then some (1 / 2) else none

theorem prints_half : withComma.Prints (1 / 2) where
  point := by
    norm_num [Numerals.decpoint, withComma]
    decide
  text := by
    refine ⟨[], [0x30], [0x2c, 0x35], [], ?_, .inl rfl, ⟨by decide, by decide⟩,
      .inr ⟨[0x35], ?_, by decide, by decide⟩, .inl rfl⟩
    · norm_num [withComma]
      decide
    · norm_num [Numerals.decpoint, withComma]
      decide
  exact := by
    norm_num [withComma]
    decide

/-- An array whose second element comes first, in an object beside an empty one. -/
def nested : Value :=
  .table none [(.string (lit "list"),
      .table none [(.number 2, .number (1 / 2)), (.number 1, .string [0xff, 0x22])]),
    (.string (lit "none"), .table (some .object) [])]

theorem plain_nested : Plain withComma none nested := by
  refine .object [lit "list", lit "none"] rfl (by decide) (fun h => by cases h)
    (fun x h => by cases h) (List.forall_mem_cons.mpr ⟨?_, List.forall_mem_singleton.mpr ?_⟩)
  · have hkeys : ((List.range 2).map fun i : Nat => Value.number ((i : ℚ) + 1)) =
        [.number 1, .number 2] := by
      simp [List.range_succ]
      norm_num
    refine .array 2 ?_ (fun h => by cases h)
      (List.forall_mem_cons.mpr ⟨.number _ prints_half, List.forall_mem_singleton.mpr (.string _)⟩)
    rw [hkeys]
    exact List.Perm.swap ..
  · exact .object [] rfl List.nodup_nil (fun _ => rfl) (fun x h => by cases h)
      (fun e he => absurd he List.not_mem_nil)

theorem decode_encode_nested : ∃ text v', encode withComma true nested = .ok text ∧
    decode withComma none text = .ok (some v', []) ∧ Same nested v' :=
  decode_encode plain_nested true

end TfPackages.Dkjson
