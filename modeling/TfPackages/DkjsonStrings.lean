import TfPackages.CStrings
import TfPackages.LuaPatterns

/-! # Strings in the JSON of the scripts

The scripts read what `ubus` prints with the JSON module `dkjson`.  Its
`quotestring` escapes a string in nine passes of `gsub`, each over the result of
the one before: first the control characters, the quote and the backslash, then
eight groups of characters of two or three bytes that may not be visible.
`scanstring` reads a string, with all escapes of JSON.

The strings are bytes, and nothing makes sure that they are UTF-8.
`Quoted` says what a text between quotes is read as (`scanstring_quoted`); every
pass keeps it (`Quoted.gsub`), so that `scanstring` reads whatever `quotestring` has
written.
-/
namespace TfPackages.Dkjson
open CStrings (lit strtoul16 isBlank isHex hexDigit? hexValue text HexNumber strtoul16_word)
open LuaPatterns (Classes)

/-! ## Writing -/

def escapecodes : List UInt8 → Option (List UInt8)
  | [0x22] => some (lit "\\\"")
  | [0x5c] => some (lit "\\\\")
  | [0x08] => some (lit "\\b")
  | [0x0c] => some (lit "\\f")
  | [0x0a] => some (lit "\\n")
  | [0x0d] => some (lit "\\r")
  | [0x09] => some (lit "\\t")
  | _ => none

/-- A digit of `%x`. -/
def hexDigit (n : Nat) : UInt8 := UInt8.ofNat (if n < 10 then 0x30 + n else 0x57 + n)

/-- `strformat("\\u%.4x", value)` of at most four digits. -/
def unicodeEscape (value : Nat) : List UInt8 :=
  [0x5c, 0x75, hexDigit (value / 0x1000), hexDigit (value / 0x100 % 16),
    hexDigit (value / 0x10 % 16), hexDigit (value % 16)]

/-- The code point of up to four bytes, where the continuation bytes are only
compared with the least of them. -/
def codePoint (uchar : List UInt8) : Option Nat :=
  let a := (uchar.getD 0 0).toNat
  let b := (uchar.getD 1 0).toNat
  let c := (uchar.getD 2 0).toNat
  let d := (uchar.getD 3 0).toNat
  if a ≤ 0x7f then some a
  else if 0xc0 ≤ a ∧ a ≤ 0xdf ∧ 0x80 ≤ b then some ((a - 0xc0) * 0x40 + b - 0x80)
  else if 0xe0 ≤ a ∧ a ≤ 0xef ∧ 0x80 ≤ b ∧ 0x80 ≤ c then
    some (((a - 0xe0) * 0x40 + b - 0x80) * 0x40 + c - 0x80)
  else if 0xf0 ≤ a ∧ a ≤ 0xf7 ∧ 0x80 ≤ b ∧ 0x80 ≤ c ∧ 0x80 ≤ d then
    some ((((a - 0xf0) * 0x40 + b - 0x80) * 0x40 + c - 0x80) * 0x40 + d - 0x80)
  else none

def escapeutf8 (uchar : List UInt8) : List UInt8 :=
  match escapecodes uchar with
  | some value => value
  | none =>
    match codePoint uchar with
    | none => []
    | some value =>
      if value ≤ 0xffff then unicodeEscape value
      else if value ≤ 0x10ffff then
        let value := value - 0x10000
        unicodeEscape (0xD800 + value / 0x400) ++ unicodeEscape (0xDC00 + value % 0x400)
      else []

/-- `fsub(str, pattern, repl)` -/
def fsub (str : List UInt8) (pattern : Classes UInt8) (repl : List UInt8 → List UInt8) :
    List UInt8 :=
  if pattern.found str then pattern.gsub repl str else str

/-- A class `[lo-hi]`. -/
def between (lo hi : UInt8) (c : UInt8) : Bool := lo ≤ c && c ≤ hi

/-- `[%z\1-\31\"\\\127]` -/
def controls : Classes UInt8 := [fun c => c == 0 || between 1 31 c || c == 0x22 || c == 0x5c ||
  c == 127]

/-- The patterns of two and three bytes, in the order of the passes. -/
def invisible : List (Classes UInt8) :=
  [[(· == 194), fun c => between 128 159 c || c == 173],
    [(· == 216), between 128 132],
    [(· == 220), (· == 143)],
    [(· == 225), (· == 158), fun c => c == 180 || c == 181],
    [(· == 226), (· == 128), fun c => between 140 143 c || between 168 175 c],
    [(· == 226), (· == 129), between 160 175],
    [(· == 239), (· == 187), (· == 191)],
    [(· == 239), (· == 191), between 176 191]]

/-- `[\194\216\220\225\226\239]` -/
def leads : Classes UInt8 := [fun c => c == 194 || c == 216 || c == 220 || c == 225 || c == 226 ||
  c == 239]

def quotestring (value : List UInt8) : List UInt8 :=
  let value := fsub value controls escapeutf8
  let value :=
    if leads.found value then
      invisible.foldl (fun value pattern => fsub value pattern escapeutf8) value
    else value
  0x22 :: (value ++ [0x22])

/-! ## Reading -/

def escapechars : List UInt8 → Option (List UInt8)
  | [0x22] => some [0x22]
  | [0x5c] => some [0x5c]
  | [0x2f] => some [0x2f]
  | [0x62] => some [0x08]
  | [0x66] => some [0x0c]
  | [0x6e] => some [0x0a]
  | [0x72] => some [0x0d]
  | [0x74] => some [0x09]
  | _ => none

def unichar (value : Nat) : Option (List UInt8) :=
  if value ≤ 0x007f then some [UInt8.ofNat value]
  else if value ≤ 0x07ff then
    some [UInt8.ofNat (0xc0 + value / 0x40), UInt8.ofNat (0x80 + value % 0x40)]
  else if value ≤ 0xffff then
    some [UInt8.ofNat (0xe0 + value / 0x1000), UInt8.ofNat (0x80 + value / 0x40 % 0x40),
      UInt8.ofNat (0x80 + value % 0x40)]
  else if value ≤ 0x10ffff then
    some [UInt8.ofNat (0xf0 + value / 0x40000), UInt8.ofNat (0x80 + value / 0x1000 % 0x40),
      UInt8.ofNat (0x80 + value / 0x40 % 0x40), UInt8.ofNat (0x80 + value % 0x40)]
  else none

/-- `tonumber(s, 16)`: `strtoul`, and nothing but blanks before the end of the C string. -/
def tonumber16 (s : List UInt8) : Option Nat :=
  match strtoul16 (text s) with
  | some (value, rest) => if rest.all isBlank then some value else none
  | none => none

/-- The character after a backslash: what it stands for, and how much of the text
after the backslash it takes. -/
def scanEscape (s : List UInt8) : List UInt8 × Nat :=
  let escchar := s.take 1
  let unicode := if escchar = [0x75] then do
      let value ← tonumber16 ((s.drop 1).take 4)
      -- the low surrogate, if one is escaped after a high one
      let value2 :=
        if 0xD800 ≤ value ∧ value ≤ 0xDBFF ∧ (s.drop 5).take 2 = [0x5c, 0x75] then
          (tonumber16 ((s.drop 7).take 4)).filter fun v => 0xDC00 ≤ v && v ≤ 0xDFFF
        else none
      match value2 with
      | some value2 =>
        (unichar ((value - 0xD800) * 0x400 + (value2 - 0xDC00) + 0x10000)).map (·, 11)
      | none => (unichar value).map (·, 5)
    else none
  unicode.getD ((escapechars escchar).getD escchar, 1)

/-- The loop of `scanstring`, with the text so far; `skip` characters belong to the
escape before. -/
def scanstringFrom (buffer : List UInt8) : (skip : Nat) → List UInt8 →
    Option (List UInt8 × List UInt8)
  | _, [] => none
  | skip + 1, _ :: s => scanstringFrom buffer skip s
  | 0, c :: s =>
    if c = 0x22 then some (buffer, s)
    else if c = 0x5c then
      let (value, n) := scanEscape s
      scanstringFrom (buffer ++ value) n s
    else scanstringFrom (buffer ++ [c]) 0 s

/-- `scanstring` after the opening quote: the string and the text behind the closing one. -/
def scanstring (s : List UInt8) : Option (List UInt8 × List UInt8) := scanstringFrom [] 0 s

/-! ## One escape -/

/-- The escape of `uchar` is ASCII, and is read as `uchar` whatever comes after it. -/
structure Escapable (uchar : List UInt8) : Prop where
  reads : ∃ e, escapeutf8 uchar = 0x5c :: e ∧ (∀ c ∈ e, c.toNat < 0x80) ∧
    ∀ rest, scanEscape (e ++ rest) = (uchar, e.length)

theorem hexDigit?_hexDigit : ∀ n < 16, hexDigit? (hexDigit n) = some n := by decide

theorem hexDigit_lt : ∀ n < 16, (hexDigit n).toNat < 0x80 ∧ hexDigit n ≠ 0 := by decide

/-- The four digits of a number. -/
theorem tonumber16_digits {value : Nat} (h : value ≤ 0xffff) :
    tonumber16 [hexDigit (value / 0x1000), hexDigit (value / 0x100 % 16),
      hexDigit (value / 0x10 % 16), hexDigit (value % 16)] = some value := by
  have h₃ := hexDigit?_hexDigit (value / 0x1000) (by omega)
  have h₂ := hexDigit?_hexDigit (value / 0x100 % 16) (by omega)
  have h₁ := hexDigit?_hexDigit (value / 0x10 % 16) (by omega)
  have h₀ := hexDigit?_hexDigit (value % 16) (by omega)
  have n₃ := (hexDigit_lt (value / 0x1000) (by omega)).2
  have n₂ := (hexDigit_lt (value / 0x100 % 16) (by omega)).2
  have n₁ := (hexDigit_lt (value / 0x10 % 16) (by omega)).2
  have n₀ := (hexDigit_lt (value % 16) (by omega)).2
  have hnumber : HexNumber [hexDigit (value / 0x1000), hexDigit (value / 0x100 % 16),
      hexDigit (value / 0x10 % 16), hexDigit (value % 16)] value := by
    refine ⟨[], _, rfl, .inl rfl, List.cons_ne_nil _ _, fun c hc => ?_, ?_⟩
    · simp only [List.mem_cons, List.not_mem_nil, or_false] at hc
      rcases hc with rfl | rfl | rfl | rfl <;> simp [isHex, *]
    · simp only [hexValue, List.filterMap_cons, h₃, h₂, h₁, h₀, List.filterMap_nil,
        List.foldl_cons, List.foldl_nil]
      omega
  have hread := @strtoul16_word [] _ [] value (fun c hc => absurd hc List.not_mem_nil) hnumber
    (by omega) (fun c hc => by cases hc)
  rw [List.nil_append, List.append_nil] at hread
  rw [tonumber16, CStrings.text_of_not_mem (by simp [n₃.symm, n₂.symm, n₁.symm, n₀.symm]), hread]
  rfl

/-- A character that is escaped with `\u` and is not half of a pair. -/
theorem escapable_of_codePoint {uchar : List UInt8} {value : Nat}
    (hcode : escapecodes uchar = none) (hpoint : codePoint uchar = some value)
    (hvalue : value ≤ 0xffff) (hpair : ¬(0xD800 ≤ value ∧ value ≤ 0xDBFF))
    (hchar : unichar value = some uchar) : Escapable uchar := by
  refine ⟨(unicodeEscape value).tail, ?_, fun c hc => ?_, fun rest => ?_⟩
  · rw [escapeutf8, hcode, hpoint]
    exact if_pos hvalue
  · simp only [unicodeEscape, List.tail_cons, List.mem_cons, List.not_mem_nil, or_false] at hc
    rcases hc with rfl | rfl | rfl | rfl | rfl
    · decide
    all_goals exact (hexDigit_lt _ (by omega)).1
  · have hdigits := tonumber16_digits hvalue
    have hsingle : ¬(0xD800 ≤ value ∧ value ≤ 0xDBFF ∧
        (((unicodeEscape value).tail ++ rest).drop 5).take 2 = [0x5c, 0x75]) :=
      fun h => hpair ⟨h.1, h.2.1⟩
    simp only [scanEscape, unicodeEscape, List.tail_cons, List.cons_append, List.nil_append,
      List.take_succ_cons, List.take_zero, List.drop_succ_cons, List.drop_zero, if_true, hdigits,
      Option.bind_eq_bind, Option.bind_some] at hsingle ⊢
    rw [if_neg hsingle]
    simp [hchar]

/-- An escape of one letter. -/
theorem escapable_of_letter {uchar : List UInt8} {letter : UInt8}
    (hcode : escapecodes uchar = some [0x5c, letter]) (hlow : letter.toNat < 0x80)
    (hu : letter ≠ 0x75) (hchar : escapechars [letter] = some uchar) : Escapable uchar := by
  refine ⟨[letter], by rw [escapeutf8, hcode], fun c hc => ?_, fun rest => ?_⟩
  · rwa [List.mem_singleton.mp hc]
  · have hne : ¬[letter] = [0x75] := fun h => hu (List.singleton_inj.mp h)
    simp only [scanEscape, List.cons_append, List.nil_append, List.take_succ_cons, List.take_zero,
      if_neg hne, hchar]
    rfl

/-- The characters of the first pass. -/
theorem escapable_controls {c : UInt8} (h : controls.matchHere [c] = true) : Escapable [c] := by
  have hle : c.toNat ≤ 0x7f := by
    simp only [controls, Classes.matchHere, between, Bool.and_true, Bool.or_eq_true,
      Bool.and_eq_true, decide_eq_true_eq, beq_iff_eq, UInt8.le_iff_toNat_le] at h
    rcases h with (((rfl | h) | rfl) | rfl) | rfl
    · decide
    · exact h.2.trans (by decide)
    all_goals decide
  cases hcode : escapecodes [c] with
  | none =>
    have hpoint : codePoint [c] = some c.toNat := if_pos hle
    refine escapable_of_codePoint hcode hpoint (by omega) (by omega) ?_
    rw [unichar, if_pos hle, UInt8.ofNat_toNat]
  | some code =>
    unfold escapecodes at hcode
    split at hcode
    case h_8 => cases hcode
    all_goals
      rename_i heq
      obtain rfl := List.singleton_inj.mp heq
      exact escapable_of_letter rfl (by decide) (by decide) rfl

/-! ## Characters of several bytes -/

/-- The first byte of a character of two bytes. -/
def Lead2 (c : UInt8) : Prop := 0xc2 ≤ c.toNat ∧ c.toNat ≤ 0xdf

/-- The first byte of a character of three bytes, surrogates and the overlong forms aside. -/
def Lead3 (c : UInt8) : Prop := 0xe1 ≤ c.toNat ∧ c.toNat ≤ 0xef ∧ c.toNat ≠ 0xed

/-- The bytes after the first. -/
def Tail (c : UInt8) : Prop := 0x80 ≤ c.toNat ∧ c.toNat ≤ 0xbf

theorem escapecodes_cons_cons (a b : UInt8) (s : List UInt8) :
    escapecodes (a :: b :: s) = none := by
  unfold escapecodes
  split <;> simp_all

theorem ofNat_eq {n : Nat} {c : UInt8} (h : n = c.toNat) : UInt8.ofNat n = c := by
  rw [h, UInt8.ofNat_toNat]

theorem escapable_two {a b : UInt8} (ha : Lead2 a) (hb : Tail b) : Escapable [a, b] := by
  obtain ⟨ha₁, ha₂⟩ := ha
  obtain ⟨hb₁, hb₂⟩ := hb
  have hpoint : codePoint [a, b] = some ((a.toNat - 0xc0) * 0x40 + b.toNat - 0x80) := by
    simp only [codePoint, List.getD_cons_zero, List.getD_cons_succ]
    rw [if_neg (by omega), if_pos (by omega)]
  refine escapable_of_codePoint (escapecodes_cons_cons ..) hpoint (by omega) (by omega) ?_
  rw [unichar, if_neg (by omega), if_pos (by omega), ofNat_eq (c := a) (by omega),
    ofNat_eq (c := b) (by omega)]

theorem escapable_three {a b c : UInt8} (ha : Lead3 a) (hb : Tail b) (hc : Tail c) :
    Escapable [a, b, c] := by
  obtain ⟨ha₁, ha₂, ha₃⟩ := ha
  obtain ⟨hb₁, hb₂⟩ := hb
  obtain ⟨hc₁, hc₂⟩ := hc
  have hpoint : codePoint [a, b, c] =
      some (((a.toNat - 0xe0) * 0x40 + b.toNat - 0x80) * 0x40 + c.toNat - 0x80) := by
    simp only [codePoint, List.getD_cons_zero, List.getD_cons_succ]
    rw [if_neg (by omega), if_neg (by omega), if_pos (by omega)]
  refine escapable_of_codePoint (escapecodes_cons_cons ..) hpoint (by omega) (by omega) ?_
  rw [unichar, if_neg (by omega), if_neg (by omega), if_pos (by omega),
    ofNat_eq (c := a) (by omega), ofNat_eq (c := b) (by omega), ofNat_eq (c := c) (by omega)]

/-- A pattern for characters of two or of three bytes. -/
inductive Wide : Classes UInt8 → Prop
  | two {p q : UInt8 → Bool} (hp : ∀ c, p c = true → Lead2 c) (hq : ∀ c, q c = true → Tail c) :
    Wide [p, q]
  | three {p q r : UInt8 → Bool} (hp : ∀ c, p c = true → Lead3 c)
    (hq : ∀ c, q c = true → Tail c) (hr : ∀ c, r c = true → Tail c) : Wide [p, q, r]

theorem of_beq {P : UInt8 → Prop} {k : UInt8} (h : P k) : ∀ c, (c == k) = true → P c := by
  intro c hc
  rwa [beq_iff_eq.mp hc]

theorem tail_between {lo hi : UInt8} (hlo : 0x80 ≤ lo.toNat) (hhi : hi.toNat ≤ 0xbf) :
    ∀ c, between lo hi c = true → Tail c := by
  intro c hc
  rw [between, Bool.and_eq_true, decide_eq_true_eq, decide_eq_true_eq, UInt8.le_iff_toNat_le,
    UInt8.le_iff_toNat_le] at hc
  exact ⟨hlo.trans hc.1, hc.2.trans hhi⟩

theorem of_or {P : UInt8 → Prop} {p q : UInt8 → Bool} (hp : ∀ c, p c = true → P c)
    (hq : ∀ c, q c = true → P c) : ∀ c, (p c || q c) = true → P c := fun c hc =>
  (Bool.or_eq_true_iff.mp hc).elim (hp c) (hq c)

theorem wide_invisible : ∀ ps ∈ invisible, Wide ps := by
  have hlo : ∀ k : UInt8, 194 ≤ k.toNat → k.toNat ≤ 220 → Lead2 k := fun k h₁ h₂ => ⟨h₁, by omega⟩
  intro ps hps
  simp only [invisible, List.mem_cons, List.not_mem_nil, or_false] at hps
  rcases hps with rfl | rfl | rfl | rfl | rfl | rfl | rfl | rfl
  · exact .two (of_beq ⟨by decide, by decide⟩)
      (of_or (tail_between (by decide) (by decide)) (of_beq ⟨by decide, by decide⟩))
  · exact .two (of_beq ⟨by decide, by decide⟩) (tail_between (by decide) (by decide))
  · exact .two (of_beq ⟨by decide, by decide⟩) (of_beq ⟨by decide, by decide⟩)
  · exact .three (of_beq ⟨by decide, by decide, by decide⟩) (of_beq ⟨by decide, by decide⟩)
      (of_or (of_beq ⟨by decide, by decide⟩) (of_beq ⟨by decide, by decide⟩))
  · exact .three (of_beq ⟨by decide, by decide, by decide⟩) (of_beq ⟨by decide, by decide⟩)
      (of_or (tail_between (by decide) (by decide)) (tail_between (by decide) (by decide)))
  · exact .three (of_beq ⟨by decide, by decide, by decide⟩) (of_beq ⟨by decide, by decide⟩)
      (tail_between (by decide) (by decide))
  · exact .three (of_beq ⟨by decide, by decide, by decide⟩) (of_beq ⟨by decide, by decide⟩)
      (of_beq ⟨by decide, by decide⟩)
  · exact .three (of_beq ⟨by decide, by decide, by decide⟩) (of_beq ⟨by decide, by decide⟩)
      (tail_between (by decide) (by decide))

/-! ## What a text is read as -/

/-- The text between quotes is read as `s`. -/
inductive Quoted : (t s : List UInt8) → Prop
  | nil : Quoted [] []
  | plain {c : UInt8} {t s : List UInt8} (hquote : c ≠ 0x22) (hback : c ≠ 0x5c)
    (h : Quoted t s) : Quoted (c :: t) (c :: s)
  | escape {u t s : List UInt8} (hu : Escapable u) (h : Quoted t s) :
    Quoted (escapeutf8 u ++ t) (u ++ s)

theorem scanstringFrom_eq (buffer : List UInt8) (skip : Nat) (s : List UInt8) :
    scanstringFrom buffer skip s = scanstringFrom buffer 0 (s.drop skip) := by
  induction s generalizing skip with
  | nil => cases skip <;> rfl
  | cons c s ih =>
    cases skip with
    | zero => rfl
    | succ skip => rw [scanstringFrom, ih, List.drop_succ_cons]

theorem scanstringFrom_quoted {t s : List UInt8} (h : Quoted t s) (buffer rest : List UInt8) :
    scanstringFrom buffer 0 (t ++ 0x22 :: rest) = some (buffer ++ s, rest) := by
  induction h generalizing buffer with
  | nil => simp [scanstringFrom]
  | plain hquote hback h ih =>
    rw [List.cons_append, scanstringFrom, if_neg hquote, if_neg hback, ih, List.append_assoc,
      List.singleton_append]
  | escape hu h ih =>
    obtain ⟨e, he, -, hread⟩ := hu.reads
    rw [he, List.cons_append, List.cons_append, List.append_assoc, scanstringFrom,
      if_neg (by decide), if_pos rfl, hread]
    dsimp only
    rw [scanstringFrom_eq, List.drop_left, ih, List.append_assoc]

/-- **A text that is read as `s` is scanned as `s`**, up to its closing quote. -/
theorem scanstring_quoted {t s : List UInt8} (h : Quoted t s) (rest : List UInt8) :
    scanstring (t ++ 0x22 :: rest) = some (s, rest) :=
  scanstringFrom_quoted h [] rest

/-- The first pass. -/
theorem quoted_controls (s : List UInt8) : Quoted (controls.gsub escapeutf8 s) s := by
  induction s with
  | nil => exact .nil
  | cons c s ih =>
    cases h : controls.matchHere (c :: s) with
    | true =>
      have hc : controls.matchHere [c] = true := h
      have hne : controls ≠ [] := List.cons_ne_nil _ _
      rw [Classes.gsub_of_match hne h]
      exact .escape (escapable_controls hc) ih
    | false =>
      rw [Classes.gsub_of_not_match h]
      refine .plain ?_ ?_ ih
      · rintro rfl
        exact absurd h (by simp [controls, Classes.matchHere])
      · rintro rfl
        exact absurd h (by simp [controls, Classes.matchHere])

/-! ## The passes after the first -/

section Passes
variable {ps : Classes UInt8}

/-- Every class of the pattern leaves ASCII out. -/
def High (ps : Classes UInt8) : Prop := ∀ p ∈ ps, ∀ c, p c = true → 0x80 ≤ c.toNat

theorem Wide.ne_nil (h : Wide ps) : ps ≠ [] := by
  cases h <;> exact List.cons_ne_nil _ _

theorem Wide.high (h : Wide ps) : High ps := by
  intro p hp c hc
  cases h with
  | two hp₁ hp₂ =>
    simp only [List.mem_cons, List.not_mem_nil, or_false] at hp
    rcases hp with rfl | rfl
    · have := (hp₁ c hc).1
      omega
    · exact (hp₂ c hc).1
  | three hp₁ hp₂ hp₃ =>
    simp only [List.mem_cons, List.not_mem_nil, or_false] at hp
    rcases hp with rfl | rfl | rfl
    · have := (hp₁ c hc).1
      omega
    · exact (hp₂ c hc).1
    · exact (hp₃ c hc).1

/-- Whatever matches the pattern is a character that can be escaped. -/
theorem Wide.escapable (h : Wide ps) {s : List UInt8} (hs : ps.matchHere s = true) :
    Escapable (s.take ps.length) := by
  cases h with
  | two hp hq =>
    match s with
    | [] => exact absurd hs Bool.false_ne_true
    | [_] => simp [Classes.matchHere] at hs
    | a :: b :: s =>
      simp only [Classes.matchHere, Bool.and_true, Bool.and_eq_true] at hs
      exact escapable_two (hp a hs.1) (hq b hs.2)
  | three hp hq hr =>
    match s with
    | [] => exact absurd hs Bool.false_ne_true
    | [_] => simp [Classes.matchHere] at hs
    | [_, _] => simp [Classes.matchHere] at hs
    | a :: b :: c :: s =>
      simp only [Classes.matchHere, Bool.and_true, Bool.and_eq_true] at hs
      exact escapable_three (hp a hs.1) (hq b hs.2.1) (hr c hs.2.2)

/-- No match begins in ASCII. -/
theorem gsub_append_of_low (hne : ps ≠ []) (hhigh : High ps) {l : List UInt8}
    (hl : ∀ c ∈ l, c.toNat < 0x80) (repl : List UInt8 → List UInt8) (t : List UInt8) :
    ps.gsub repl (l ++ t) = l ++ ps.gsub repl t := by
  obtain ⟨p, ps, rfl⟩ := List.exists_cons_of_ne_nil hne
  induction l with
  | nil => rfl
  | cons c l ih =>
    have hc : p c = false := by
      by_contra hp
      have hge := hhigh p List.mem_cons_self c (Bool.of_not_eq_false hp)
      have hlt := hl c List.mem_cons_self
      omega
    have hnone : Classes.matchHere (p :: ps) (c :: (l ++ t)) = false := by
      rw [Classes.matchHere, hc, Bool.false_and]
    rw [List.cons_append, Classes.gsub_of_not_match hnone,
      ih fun d hd => hl d (List.mem_cons_of_mem _ hd), List.cons_append]

/-- A match beyond ASCII lies outside the escapes, so it is read as it stands. -/
theorem Quoted.drop (hhigh : High ps) {t s : List UInt8} (h : Quoted t s)
    (hmatch : ps.matchHere t = true) :
    ∃ s', s = t.take ps.length ++ s' ∧ Quoted (t.drop ps.length) s' := by
  induction ps generalizing t s with
  | nil => exact ⟨s, rfl, h⟩
  | cons p ps ih =>
    cases h with
    | nil => exact absurd hmatch Bool.false_ne_true
    | plain hquote hback h =>
      rw [Classes.matchHere, Bool.and_eq_true] at hmatch
      obtain ⟨s', rfl, hs'⟩ := ih (fun q hq => hhigh q (List.mem_cons_of_mem _ hq)) h hmatch.2
      exact ⟨s', rfl, hs'⟩
    | escape hu h =>
      obtain ⟨e, he, -, -⟩ := hu.reads
      rw [he, List.cons_append, Classes.matchHere, Bool.and_eq_true] at hmatch
      exact absurd (hhigh p List.mem_cons_self _ hmatch.1) (by decide)

/-- **A pass keeps what the text is read as.** -/
theorem Quoted.gsub (hps : Wide ps) {t s : List UInt8} (h : Quoted t s) :
    Quoted (ps.gsub escapeutf8 t) s := by
  induction hn : t.length using Nat.strong_induction_on generalizing t s with
  | _ n ih =>
    cases hmatch : ps.matchHere t with
    | true =>
      obtain ⟨s', rfl, hs'⟩ := h.drop hps.high hmatch
      rw [Classes.gsub_of_match hps.ne_nil hmatch]
      have hpos := List.length_pos_iff.mpr hps.ne_nil
      have ht : t ≠ [] := by
        rintro rfl
        cases hps <;> exact absurd hmatch Bool.false_ne_true
      have htpos := List.length_pos_iff.mpr ht
      refine .escape (hps.escapable hmatch) (ih _ ?_ hs' rfl)
      rw [List.length_drop]
      omega
    | false =>
      cases h with
      | nil => exact .nil
      | plain hquote hback h =>
        rw [Classes.gsub_of_not_match hmatch]
        refine .plain hquote hback (ih _ ?_ h rfl)
        rw [← hn, List.length_cons]
        omega
      | @escape u _ _ hu h =>
        obtain ⟨e, he, hlow, -⟩ := hu.reads
        have hesc : ∀ c ∈ escapeutf8 u, c.toNat < 0x80 := by
          rw [he]
          exact List.forall_mem_cons.mpr ⟨by decide, hlow⟩
        rw [gsub_append_of_low hps.ne_nil hps.high hesc]
        refine .escape hu (ih _ ?_ h rfl)
        rw [← hn, he, List.length_append, List.length_cons]
        omega

end Passes

theorem fsub_eq_gsub (str : List UInt8) (pattern : Classes UInt8)
    (repl : List UInt8 → List UInt8) : fsub str pattern repl = pattern.gsub repl str := by
  unfold fsub
  split
  · rfl
  · rename_i h
    exact (Classes.gsub_of_not_found (Bool.eq_false_iff.mpr h)).symm

theorem quoted_foldl {passes : List (Classes UInt8)} (hwide : ∀ ps ∈ passes, Wide ps)
    {t s : List UInt8} (h : Quoted t s) :
    Quoted (passes.foldl (fun value pattern => fsub value pattern escapeutf8) t) s := by
  induction passes generalizing t with
  | nil => exact h
  | cons ps passes ih =>
    rw [List.foldl_cons, fsub_eq_gsub]
    exact ih (fun q hq => hwide q (List.mem_cons_of_mem _ hq))
      (h.gsub (hwide ps List.mem_cons_self))

/-- What `quotestring` writes between the quotes. -/
theorem quotestring_eq (value : List UInt8) :
    ∃ t, quotestring value = 0x22 :: (t ++ [0x22]) ∧ Quoted t value := by
  have hfirst : Quoted (fsub value controls escapeutf8) value := by
    rw [fsub_eq_gsub]
    exact quoted_controls value
  unfold quotestring
  dsimp only
  split
  · exact ⟨_, rfl, quoted_foldl wide_invisible hfirst⟩
  · exact ⟨_, rfl, hfirst⟩

end TfPackages.Dkjson
