import Mathlib.Data.List.TakeWhile

/-! # JSON documents

A text is read in two steps.  The lexer goes through the characters with a mode
that says what it is in the middle of; `run_append` lets a text be read piece by
piece.  In a string a control character is an error.  The parser reads the tokens
with a bound on its depth, for which the number of tokens is enough.

`read_tokens` is the round trip: the tokens of a value are read as this value, and by
`read_sound` no other tokens are.
-/
namespace Json

inductive Token where
  | lbrace
  | rbrace
  | lbracket
  | rbracket
  | colon
  | comma
  | null
  | bool (b : Bool)
  | num (text : List Char)
  | str (s : List Char)
deriving DecidableEq, Repr

inductive Value where
  | null
  | bool (b : Bool)
  | num (text : List Char)
  | str (s : List Char)
  | arr (vs : List Value)
  | obj (ms : List (List Char × Value))

/-! ## The lexer -/

/-- What the lexer is in the middle of, with the characters so far in reverse. -/
inductive Mode where
  | outside
  | string (acc : List Char)
  /-- After a backslash. -/
  | escape (acc : List Char)
  /-- After `\u` and some hexadecimal digits. -/
  | hex (acc : List Char) (digits : List Nat)
  /-- A number or one of the three names. -/
  | word (acc : List Char)
deriving DecidableEq, Repr

def isWordChar (c : Char) : Bool := c.isAlphanum || c = '-' || c = '+' || c = '.'

/-- The exponent of a number, or nothing. -/
def isExponent : List Char → Bool
  | [] => true
  | e :: t =>
    let digits := match t with
      | '+' :: u => u
      | '-' :: u => u
      | u => u
    (e = 'e' || e = 'E') && digits ≠ [] && digits.all Char.isDigit

/-- A number: there are no leading zeros, and digits after the point. -/
def isNumber (w : List Char) : Bool :=
  let w := match w with
    | '-' :: t => t
    | t => t
  let int := w.takeWhile Char.isDigit
  int ≠ [] && (int = ['0'] || int.head? ≠ some '0') &&
    match w.dropWhile Char.isDigit with
    | '.' :: t => t.takeWhile Char.isDigit ≠ [] && isExponent (t.dropWhile Char.isDigit)
    | t => isExponent t

def classify (w : List Char) : Option Token :=
  if w = "null".toList then some .null
  else if w = "true".toList then some (.bool true)
  else if w = "false".toList then some (.bool false)
  else if isNumber w then some (.num w)
  else none

/-- A character between tokens. -/
def stepOutside (c : Char) : Option (List Token × Mode) :=
  match c with
  | ' ' | '\t' | '\n' | '\r' => some ([], .outside)
  | '{' => some ([.lbrace], .outside)
  | '}' => some ([.rbrace], .outside)
  | '[' => some ([.lbracket], .outside)
  | ']' => some ([.rbracket], .outside)
  | ':' => some ([.colon], .outside)
  | ',' => some ([.comma], .outside)
  | '"' => some ([], .string [])
  | c => if isWordChar c then some ([], .word [c]) else none

/-- The character after a backslash. -/
def unescape : Char → Option Char
  | '"' => some '"'
  | '\\' => some '\\'
  | '/' => some '/'
  | 'b' => some '\x08'
  | 'f' => some '\x0c'
  | 'n' => some '\n'
  | 'r' => some '\r'
  | 't' => some '\t'
  | _ => none

def hexDigit? (c : Char) : Option Nat :=
  if c.isDigit then some (c.toNat - '0'.toNat)
  else if 'a' ≤ c ∧ c ≤ 'f' then some (c.toNat - 'a'.toNat + 10)
  else if 'A' ≤ c ∧ c ≤ 'F' then some (c.toNat - 'A'.toNat + 10)
  else none

/-- The character of a `\u` escape; half of a pair is not a character. -/
def ofUnit (digits : List Nat) : Char :=
  let n := digits.foldl (fun n d => 16 * n + d) 0
  if n.isValidChar then Char.ofNat n else '\uFFFD'

def step : Mode → Char → Option (List Token × Mode)
  | .outside, c => stepOutside c
  | .string acc, c =>
    if c = '"' then some ([.str acc.reverse], .outside)
    else if c = '\\' then some ([], .escape acc)
    else if c.toNat < 0x20 then none
    else some ([], .string (c :: acc))
  | .escape acc, c =>
    if c = 'u' then some ([], .hex acc []) else (unescape c).map fun d => ([], .string (d :: acc))
  | .hex acc digits, c =>
    (hexDigit? c).map fun d =>
      if digits.length = 3 then ([], .string (ofUnit (digits ++ [d]) :: acc))
      else ([], .hex acc (digits ++ [d]))
  | .word acc, c =>
    if isWordChar c then some ([], .word (c :: acc))
    else do
      let t ← classify acc.reverse
      let (ts, m) ← stepOutside c
      return (t :: ts, m)

/-- The tokens of a text from a mode on, and the mode at its end. -/
def run : Mode → List Char → Option (List Token × Mode)
  | m, [] => some ([], m)
  | m, c :: s => (step m c).bind fun p => (run p.2 s).map fun q => (p.1 ++ q.1, q.2)

/-- The end of the text. -/
def finish : Mode → Option (List Token)
  | .outside => some []
  | .word acc => (classify acc.reverse).map fun t => [t]
  | _ => none

def lex (s : List Char) : Option (List Token) :=
  (run .outside s).bind fun p => (finish p.2).map (p.1 ++ ·)

theorem run_append (m : Mode) (s t : List Char) :
    run m (s ++ t) = (run m s).bind fun p => (run p.2 t).map fun q => (p.1 ++ q.1, q.2) := by
  induction s generalizing m with
  | nil => simp [run]
  | cons c s ih =>
    rw [List.cons_append, run, run]
    cases step m c with
    | none => rfl
    | some p =>
      simp only [Option.bind_some, ih]
      cases run p.2 s with
      | none => rfl
      | some q => simp [Function.comp_def]

/-! ## The parser -/

mutual
/-- A value and the tokens after it. -/
def value : Nat → List Token → Option (Value × List Token)
  | 0, _ => none
  | n + 1, ts =>
    match ts with
    | .null :: r => some (.null, r)
    | .bool b :: r => some (.bool b, r)
    | .num text :: r => some (.num text, r)
    | .str s :: r => some (.str s, r)
    | .lbracket :: .rbracket :: r => some (.arr [], r)
    | .lbracket :: r => (elements n r).map fun (vs, r) => (.arr vs, r)
    | .lbrace :: .rbrace :: r => some (.obj [], r)
    | .lbrace :: r => (members n r).map fun (ms, r) => (.obj ms, r)
    | _ => none

/-- The elements of an array up to its end. -/
def elements : Nat → List Token → Option (List Value × List Token)
  | 0, _ => none
  | n + 1, ts =>
    match value n ts with
    | some (v, .comma :: r) => (elements n r).map fun (vs, r) => (v :: vs, r)
    | some (v, .rbracket :: r) => some ([v], r)
    | _ => none

/-- The members of an object up to its end. -/
def members : Nat → List Token → Option (List (List Char × Value) × List Token)
  | 0, _ => none
  | n + 1, ts =>
    match ts with
    | .str key :: .colon :: ts =>
      match value n ts with
      | some (v, .comma :: r) => (members n r).map fun (ms, r) => ((key, v) :: ms, r)
      | some (v, .rbrace :: r) => some ([(key, v)], r)
      | _ => none
    | _ => none
end

/-- The value of a document. -/
def parse (s : List Char) : Option Value := do
  let ts ← lex s
  match value ts.length ts with
  | some (v, []) => some v
  | _ => none

/-! ## The tokens of a value -/

mutual
def Value.tokens : Value → List Token
  | .null => [.null]
  | .bool b => [.bool b]
  | .num text => [.num text]
  | .str s => [.str s]
  | .arr [] => [.lbracket, .rbracket]
  | .arr (v :: vs) => .lbracket :: (v.tokens ++ elementTokens vs)
  | .obj [] => [.lbrace, .rbrace]
  | .obj ((key, v) :: ms) => .lbrace :: .str key :: .colon :: (v.tokens ++ memberTokens ms)

/-- The rest of an array. -/
def elementTokens : List Value → List Token
  | [] => [.rbracket]
  | v :: vs => .comma :: (v.tokens ++ elementTokens vs)

/-- The rest of an object. -/
def memberTokens : List (List Char × Value) → List Token
  | [] => [.rbrace]
  | (key, v) :: ms => .comma :: .str key :: .colon :: (v.tokens ++ memberTokens ms)
end

theorem Value.tokens_ne_nil (v : Value) : v.tokens ≠ [] := by
  cases v with
  | null | bool | num | str => simp [Value.tokens]
  | arr vs => cases vs <;> simp [Value.tokens]
  | obj ms => cases ms <;> simp [Value.tokens]

/-- No value begins with the end of an array. -/
theorem Value.head_tokens_append (v : Value) (r : List Token) :
    (v.tokens ++ r).head? ≠ some .rbracket := by
  cases v with
  | null | bool | num | str => simp [Value.tokens]
  | arr vs => cases vs <;> simp [Value.tokens]
  | obj ms => cases ms <;> simp [Value.tokens]

theorem value_lbracket {n : Nat} {ts : List Token} (h : ts.head? ≠ some .rbracket) :
    value (n + 1) (.lbracket :: ts) = (elements n ts).map fun p => (.arr p.1, p.2) := by
  cases ts with
  | nil => rfl
  | cons t ts =>
    cases t with
    | rbracket => exact absurd rfl h
    | _ => rfl

theorem elementTokens_eq (vs : List Value) :
    elementTokens vs = vs.flatMap (fun v => .comma :: v.tokens) ++ [.rbracket] := by
  induction vs with
  | nil => rfl
  | cons v vs ih =>
    rw [elementTokens, ih, List.flatMap_cons, List.cons_append, List.cons_append, List.append_assoc]

theorem elementTokens_length_pos (vs : List Value) : 0 < (elementTokens vs).length := by
  cases vs <;> simp [elementTokens]

theorem memberTokens_length_pos (ms : List (List Char × Value)) : 0 < (memberTokens ms).length := by
  cases ms <;> simp [memberTokens]

/-- **The round trip.**  The tokens of a value are read as this value, with the
tokens behind it left. -/
theorem read_tokens (n : Nat) :
    (∀ v r, v.tokens.length ≤ n → value n (v.tokens ++ r) = some (v, r)) ∧
    (∀ v vs r, (v.tokens ++ elementTokens vs).length ≤ n →
      elements n (v.tokens ++ (elementTokens vs ++ r)) = some (v :: vs, r)) ∧
    ∀ key v ms r, (v.tokens ++ memberTokens ms).length ≤ n →
      members n (.str key :: .colon :: (v.tokens ++ (memberTokens ms ++ r))) =
        some ((key, v) :: ms, r) := by
  -- The three readers call each other, each time with less fuel and fewer tokens.
  induction n with
  | zero =>
    have hpos := fun v : Value => List.length_pos_iff.mpr v.tokens_ne_nil
    refine ⟨fun v r h => ?_, fun v vs r h => ?_, fun key v ms r h => ?_⟩
    · have := hpos v
      omega
    · have := hpos v
      rw [List.length_append] at h
      omega
    · have := hpos v
      rw [List.length_append] at h
      omega
  | succ n ih =>
    obtain ⟨hvalue, helements, hmembers⟩ := ih
    refine ⟨fun v r h => ?_, fun v vs r h => ?_, fun key v ms r h => ?_⟩
    · cases v with
      | null | bool | num | str => rfl
      | arr vs =>
        cases vs with
        | nil => rfl
        | cons v vs =>
          rw [Value.tokens, List.length_cons] at h
          rw [Value.tokens, List.cons_append, List.append_assoc,
            value_lbracket (v.head_tokens_append _), helements v vs r (by omega)]
          rfl
      | obj ms =>
        cases ms with
        | nil => rfl
        | cons m ms =>
          obtain ⟨key, v⟩ := m
          rw [Value.tokens, List.length_cons, List.length_cons, List.length_cons] at h
          rw [Value.tokens, List.cons_append, List.cons_append, List.cons_append,
            List.append_assoc, value, hmembers key v ms r (by omega)]
          · rfl
          · rintro r ⟨⟩
    · have hpos := elementTokens_length_pos vs
      have hv := List.length_pos_iff.mpr v.tokens_ne_nil
      rw [List.length_append] at h
      rw [elements, hvalue v _ (by omega)]
      cases vs with
      | nil => rfl
      | cons w vs =>
        rw [elementTokens, List.length_cons] at h
        simp only [elementTokens, List.cons_append, List.append_assoc]
        rw [helements w vs r (by omega)]
        rfl
    · have hpos := memberTokens_length_pos ms
      have hv := List.length_pos_iff.mpr v.tokens_ne_nil
      rw [List.length_append] at h
      rw [members, hvalue v _ (by omega)]
      cases ms with
      | nil => rfl
      | cons m ms =>
        obtain ⟨key', w⟩ := m
        rw [memberTokens, List.length_cons, List.length_cons, List.length_cons] at h
        simp only [memberTokens, List.cons_append, List.append_assoc]
        rw [hmembers key' w ms r (by omega)]
        rfl

theorem parse_of_lex {s : List Char} {v : Value} (h : lex s = some v.tokens) :
    parse s = some v := by
  have hread := (read_tokens v.tokens.length).1 v [] (Nat.le_refl _)
  rw [List.append_nil] at hread
  rw [parse, h]
  simp [hread]

/-- What the three readers accept is what is written. -/
theorem read_sound (n : Nat) :
    (∀ ts v r, value n ts = some (v, r) → ts = v.tokens ++ r) ∧
    (∀ ts vs r, elements n ts = some (vs, r) →
      ∃ v vs', vs = v :: vs' ∧ ts = v.tokens ++ (elementTokens vs' ++ r)) ∧
    ∀ ts ms r, members n ts = some (ms, r) →
      ∃ key v ms', ms = (key, v) :: ms' ∧
        ts = .str key :: .colon :: (v.tokens ++ (memberTokens ms' ++ r)) := by
  induction n with
  | zero =>
    refine ⟨fun ts v r h => ?_, fun ts vs r h => ?_, fun ts ms r h => ?_⟩
    · cases h
    · cases h
    · cases h
  | succ n ih =>
    obtain ⟨hvalue, helements, hmembers⟩ := ih
    refine ⟨fun ts v r h => ?_, fun ts vs r h => ?_, fun ts ms r h => ?_⟩
    · unfold value at h
      split at h
      case h_6 =>
        obtain ⟨⟨vs, r'⟩, hvs, heq⟩ := Option.map_eq_some_iff.mp h
        obtain ⟨rfl, rfl⟩ := Prod.mk.inj heq
        obtain ⟨v, vs', rfl, rfl⟩ := helements _ _ _ hvs
        rw [Value.tokens, List.cons_append, List.append_assoc]
      case h_8 =>
        obtain ⟨⟨ms, r'⟩, hms, heq⟩ := Option.map_eq_some_iff.mp h
        obtain ⟨rfl, rfl⟩ := Prod.mk.inj heq
        obtain ⟨key, v, ms', rfl, rfl⟩ := hmembers _ _ _ hms
        rw [Value.tokens, List.cons_append, List.cons_append, List.cons_append, List.append_assoc]
      case h_9 => cases h
      all_goals
        obtain ⟨rfl, rfl⟩ := Prod.mk.inj (Option.some.inj h)
        rfl
    · unfold elements at h
      split at h
      · rename_i v r' hv
        obtain ⟨⟨vs', r''⟩, hvs, heq⟩ := Option.map_eq_some_iff.mp h
        obtain ⟨rfl, rfl⟩ := Prod.mk.inj heq
        obtain ⟨w, ws, rfl, rfl⟩ := helements _ _ _ hvs
        refine ⟨v, w :: ws, rfl, ?_⟩
        rw [hvalue _ _ _ hv, elementTokens, List.cons_append, List.append_assoc]
      · rename_i v r' hv
        obtain ⟨rfl, rfl⟩ := Prod.mk.inj (Option.some.inj h)
        exact ⟨v, [], rfl, hvalue _ _ _ hv⟩
      · cases h
    · unfold members at h
      split at h
      · rename_i key ts
        split at h
        · rename_i v r' hv
          obtain ⟨⟨ms', r''⟩, hms, heq⟩ := Option.map_eq_some_iff.mp h
          obtain ⟨rfl, rfl⟩ := Prod.mk.inj heq
          obtain ⟨key', w, ws, rfl, rfl⟩ := hmembers _ _ _ hms
          refine ⟨key, v, (key', w) :: ws, rfl, ?_⟩
          rw [hvalue _ _ _ hv, memberTokens, List.cons_append, List.cons_append, List.cons_append,
            List.append_assoc]
        · rename_i v r' hv
          obtain ⟨rfl, rfl⟩ := Prod.mk.inj (Option.some.inj h)
          exact ⟨key, v, [], rfl, by rw [hvalue _ _ _ hv]; rfl⟩
        · cases h
      · cases h

/-- **What the parser accepts**: a document whose tokens are those of the value. -/
theorem parse_eq_some_iff {s : List Char} {v : Value} :
    parse s = some v ↔ lex s = some v.tokens := by
  refine ⟨fun h => ?_, parse_of_lex⟩
  rw [parse] at h
  cases hlex : lex s with
  | none => simp [hlex] at h
  | some ts =>
    simp only [hlex, Option.bind_eq_bind, Option.bind_some] at h
    split at h
    · rename_i w hw
      obtain rfl := Option.some.inj h
      rw [(read_sound _).1 _ _ _ hw, List.append_nil]
    · cases h

/-- The last token of an object is its brace. -/
theorem getLast?_memberTokens (ms : List (List Char × Value)) :
    (memberTokens ms).getLast? = some .rbrace := by
  induction ms with
  | nil => rfl
  | cons m ms ih =>
    obtain ⟨key, v⟩ := m
    have hsplit : memberTokens ((key, v) :: ms) =
        (.comma :: .str key :: .colon :: v.tokens) ++ memberTokens ms := by
      simp [memberTokens]
    rw [hsplit, List.getLast?_append, ih]
    rfl

theorem getLast?_tokens_obj (ms : List (List Char × Value)) :
    (Value.obj ms).tokens.getLast? = some .rbrace := by
  cases ms with
  | nil => rfl
  | cons m ms =>
    obtain ⟨key, v⟩ := m
    have hsplit : (Value.obj ((key, v) :: ms)).tokens =
        (.lbrace :: .str key :: .colon :: v.tokens) ++ memberTokens ms := by
      simp [Value.tokens]
    rw [hsplit, List.getLast?_append, getLast?_memberTokens]
    rfl

/-- An array that is not closed is no document. -/
theorem parse_of_unclosed {s : List Char} {ts : List Token} (h : lex s = some (.lbracket :: ts))
    (hlast : ts.getLast? ≠ some .rbracket) : parse s = none := by
  cases hparse : parse s with
  | none => rfl
  | some v =>
    have htokens : v.tokens = .lbracket :: ts :=
      Option.some.inj ((parse_eq_some_iff.mp hparse).symm.trans h)
    cases v with
    | null | bool | num | str => cases htokens
    | obj ms => cases ms <;> cases htokens
    | arr vs =>
      cases vs with
      | nil =>
        rw [Value.tokens, List.cons.injEq] at htokens
        rw [← htokens.2] at hlast
        exact absurd rfl hlast
      | cons v vs =>
        rw [Value.tokens, List.cons.injEq, elementTokens_eq, ← List.append_assoc] at htokens
        rw [← htokens.2, List.getLast?_concat] at hlast
        exact absurd rfl hlast

/-! ## Strings -/

/-- A character that stands for itself in a string. -/
def plain (c : Char) : Bool := c ≠ '"' && c ≠ '\\' && 0x20 ≤ c.toNat

theorem step_string_of_plain {acc : List Char} {c : Char} (h : plain c = true) :
    step (.string acc) c = some ([], .string (c :: acc)) := by
  simp only [plain, Bool.and_eq_true, decide_eq_true_eq] at h
  obtain ⟨⟨hquote, hslash⟩, hcontrol⟩ := h
  rw [step, if_neg hquote, if_neg hslash, if_neg (by omega)]

theorem run_string_of_plain {s : List Char} (h : ∀ c ∈ s, plain c = true) (acc : List Char) :
    run (.string acc) s = some ([], .string (s.reverse ++ acc)) := by
  induction s generalizing acc with
  | nil => rfl
  | cons c s ih =>
    rw [run, step_string_of_plain (h c List.mem_cons_self), Option.bind_some,
      ih fun d hd => h d (List.mem_cons_of_mem _ hd)]
    simp

/-- The end of a string and the text after it. -/
theorem run_close {closing l : List Char} {ts : List Token} {m : Mode} (h : closing = '"' :: l)
    (hl : run .outside l = some (ts, m)) (acc : List Char) :
    run (.string acc) closing = some (.str acc.reverse :: ts, m) := by
  rw [h, run, step, if_pos rfl, Option.bind_some, hl]
  rfl

/-- A string of such characters, the text from its end to a mode `m`, and what
follows. -/
theorem run_string_then {s closing : List Char} {ts : List Token} {m : Mode}
    (h : ∀ c ∈ s, plain c = true)
    (hclose : ∀ acc, run (.string acc) closing = some (.str acc.reverse :: ts, m))
    (t : List Char) :
    run (.string []) (s ++ (closing ++ t)) =
      (run m t).map fun q => (.str s :: (ts ++ q.1), q.2) := by
  rw [run_append, run_string_of_plain h, Option.bind_some, run_append, hclose, Option.bind_some,
    List.append_nil, List.reverse_reverse]
  cases run m t with
  | none => rfl
  | some q => rfl

/-- A control character in a string is an error. -/
theorem run_string_control {s : List Char} (h : ∀ c ∈ s, plain c = true) {c : Char}
    (hc : c.toNat < 0x20) (t : List Char) : run (.string []) (s ++ c :: t) = none := by
  have hquote : c ≠ '"' := by
    rintro rfl
    exact absurd hc (by decide)
  have hslash : c ≠ '\\' := by
    rintro rfl
    exact absurd hc (by decide)
  rw [run_append, run_string_of_plain h, Option.bind_some, run, step, if_neg hquote, if_neg hslash,
    if_pos hc]
  rfl

/-- A text between two modes, and what follows. -/
theorem run_then {m m' : Mode} {s : List Char} {ts : List Token} (h : run m s = some (ts, m'))
    (t : List Char) : run m (s ++ t) = (run m' t).map fun q => (ts ++ q.1, q.2) := by
  rw [run_append, h]
  rfl

/-- A string that is written character by character, as `write` says: it is read as
`read` says, when that can be done for every character. -/
theorem run_string_flatMap {α : Type*} {write : α → List Char} {read : α → Char} {ok : α → Bool}
    (h : ∀ a acc, run (.string acc) (write a) =
      if ok a then some ([], .string (read a :: acc)) else none) (s : List α) (acc : List Char) :
    run (.string acc) (s.flatMap write) =
      if s.all ok then some ([], .string ((s.map read).reverse ++ acc)) else none := by
  induction s generalizing acc with
  | nil => rfl
  | cons a s ih =>
    rw [List.flatMap_cons, run_append, h, List.all_cons]
    cases ok a with
    | false => rfl
    | true =>
      rw [if_pos rfl, Option.bind_some, ih, Bool.true_and]
      cases s.all ok <;> simp

/-! ## Numbers -/

theorem stepOutside_of_isWordChar {c : Char} (h : isWordChar c = true) :
    stepOutside c = some ([], .word [c]) := by
  unfold stepOutside
  split
  case h_12 => rw [if_pos h]
  all_goals exact absurd h (by decide)

theorem run_word {w : List Char} (h : ∀ c ∈ w, isWordChar c = true) (acc : List Char) :
    run (.word acc) w = some ([], .word (w.reverse ++ acc)) := by
  induction w generalizing acc with
  | nil => rfl
  | cons c w ih =>
    rw [run, step, if_pos (h c List.mem_cons_self), Option.bind_some,
      ih fun d hd => h d (List.mem_cons_of_mem _ hd)]
    simp

/-- A word and what follows, when that does not belong to it. -/
theorem run_word_then {w : List Char} {t : Token} (hw : ∀ c ∈ w, isWordChar c = true)
    (hne : w ≠ []) (ht : classify w = some t) {s : List Char}
    (hs : ∃ c u, s = c :: u ∧ isWordChar c = false) :
    run .outside (w ++ s) = (run .outside s).map fun q => (t :: q.1, q.2) := by
  obtain ⟨c, u, rfl, hc⟩ := hs
  cases w with
  | nil => exact absurd rfl hne
  | cons d w =>
    have hbegin : run .outside (d :: w) = some ([], .word (d :: w).reverse) := by
      rw [run, step, stepOutside_of_isWordChar (hw d List.mem_cons_self), Option.bind_some,
        run_word fun e he => hw e (List.mem_cons_of_mem _ he)]
      simp
    rw [run_then hbegin, run, run, step, step, if_neg (by simp [hc]), List.reverse_reverse, ht]
    cases stepOutside c with
    | none => rfl
    | some p =>
      obtain ⟨ts, m⟩ := p
      simp only [Option.bind_eq_bind, Option.bind_some, Option.pure_def]
      cases run m u with
      | none => rfl
      | some q => simp

/-- A number in decimal has no leading zero. -/
theorem head_toDigits {n : Nat} (h : 0 < n) : (Nat.toDigits 10 n).head? ≠ some '0' := by
  induction n using Nat.strongRecOn with
  | _ n ih =>
    by_cases hlt : n < 10
    · have hsmall : ∀ k < 10, 0 < k → [Nat.digitChar k].head? ≠ some '0' := by decide
      rw [Nat.toDigits_of_lt_base hlt]
      exact hsmall n hlt h
    · have hle : 10 ≤ n := Nat.le_of_not_lt hlt
      have hhead := ih (n / 10) (by omega) (by omega)
      rw [Nat.toDigits_of_base_le (by decide) hle]
      cases hd : Nat.toDigits 10 (n / 10) with
      | nil => exact absurd hd Nat.toDigits_ne_nil
      | cons d ds =>
        rw [hd] at hhead
        exact hhead

theorem isWordChar_of_isDigit {c : Char} (h : c.isDigit = true) : isWordChar c = true := by
  simp [isWordChar, Char.isAlphanum, h]

theorem isNumber_toDigits (n : Nat) : isNumber (Nat.toDigits 10 n) = true := by
  have hdigits : ∀ c ∈ Nat.toDigits 10 n, c.isDigit = true := fun _ hc =>
    Nat.isDigit_of_mem_toDigits (by decide) (by decide) hc
  have hzero : Nat.toDigits 10 n = ['0'] ∨ (Nat.toDigits 10 n).head? ≠ some '0' := by
    rcases Nat.eq_zero_or_pos n with rfl | hpos
    · exact .inl (Nat.toDigits_zero 10)
    · exact .inr (head_toDigits hpos)
  have hsign : ∀ t, Nat.toDigits 10 n ≠ '-' :: t := by
    intro t ht
    exact absurd (hdigits '-' (ht ▸ List.mem_cons_self)) (by decide)
  have htake : (Nat.toDigits 10 n).takeWhile Char.isDigit = Nat.toDigits 10 n :=
    List.takeWhile_eq_self_iff.mpr hdigits
  have hdrop : (Nat.toDigits 10 n).dropWhile Char.isDigit = [] :=
    List.dropWhile_eq_nil_iff.mpr hdigits
  rw [isNumber]
  · simp only [htake, hdrop]
    simpa [isExponent, Nat.toDigits_ne_nil] using hzero
  · exact fun t ht => hsign t ht

theorem classify_toDigits (n : Nat) :
    classify (Nat.toDigits 10 n) = some (.num (Nat.toDigits 10 n)) := by
  have hname : ∀ w : List Char, w.any (fun c => !c.isDigit) = true → Nat.toDigits 10 n ≠ w := by
    rintro w hw rfl
    obtain ⟨c, hc, hnot⟩ := List.any_eq_true.mp hw
    simp [Nat.isDigit_of_mem_toDigits (by decide) (by decide) hc] at hnot
  rw [classify, if_neg (hname _ (by decide)), if_neg (hname _ (by decide)),
    if_neg (hname _ (by decide)), if_pos (isNumber_toDigits n)]

/-- A number and what follows. -/
theorem run_toDigits_then (n : Nat) {s : List Char}
    (hs : ∃ c u, s = c :: u ∧ isWordChar c = false) :
    run .outside (Nat.toDigits 10 n ++ s) =
      (run .outside s).map fun q => (.num (Nat.toDigits 10 n) :: q.1, q.2) := by
  refine run_word_then (fun c hc => isWordChar_of_isDigit ?_) Nat.toDigits_ne_nil
    (classify_toDigits n) hs
  exact Nat.isDigit_of_mem_toDigits (by decide) (by decide) hc

end Json
