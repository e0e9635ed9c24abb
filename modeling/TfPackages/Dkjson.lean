import TfPackages.DkjsonStrings
import Mathlib.Data.Rat.Floor

/-! # The JSON module of the scripts

`encode` writes a value of a script as a text, `decode` reads one.  A table is an
array or an object depending on its keys (`isarray`), and nothing in a text that is
read keeps the two apart but the bracket: `scantable` takes elements and pairs, with
or without commas between them, into one table.

A table is what indexing it gives, so two values are the same if their tables have
the same keys with the same values; metatables do not count, nor does the
order in which `pairs` finds the entries.

`decode` ends on every text (`decode_ends`), whatever is in it.
-/
namespace TfPackages.Dkjson
open CStrings (lit isBlank decimalText)

/-! ## Values -/

/-- `__jsontype` of a metatable. -/
inductive Jsontype where
  | object
  | array
deriving DecidableEq, Repr

/-- A value of a script, `nil` apart.  A table has its entries in the order in which
`pairs` finds them; `json.null` is a table of its own. -/
inductive Value where
  | null
  | boolean (b : Bool)
  | number (x : ℚ)
  | string (s : List UInt8)
  | table (jsontype : Option Jsontype) (entries : List (Value × Value))

/-- Whether two values are one key of a table.  A table is only itself. -/
def Value.sameKey : Value → Value → Bool
  | .null, .null => true
  | .boolean b, .boolean b' => b = b'
  | .number x, .number x' => x = x'
  | .string s, .string s' => s = s'
  | _, _ => false

/-- `tbl[key]` -/
def index {α : Type*} (entries : List (Value × α)) (key : Value) : Option α :=
  (entries.find? fun e => key.sameKey e.1).map Prod.snd

/-- `tbl[key] = value`, where `nil` removes the key. -/
def setIndex (entries : List (Value × Value)) (key : Value) : Option Value → List (Value × Value)
  | none => entries.filter fun e => !key.sameKey e.1
  | some value =>
    if entries.any fun e => key.sameKey e.1 then
      entries.map fun e => if key.sameKey e.1 then (e.1, value) else e
    else entries ++ [(key, value)]

/-! ## Numbers -/

/-- How the C library prints and reads numbers. -/
structure Numerals where
  tostring : ℚ → List UInt8
  tonumber : List UInt8 → Option ℚ

def isDigit (c : UInt8) : Bool := 0x30 ≤ c && c ≤ 0x39

def isAlpha (c : UInt8) : Bool := (0x41 ≤ c && c ≤ 0x5a) || (0x61 ≤ c && c ≤ 0x7a)

/-- `strmatch(tostring(0.5), "([^05+])")` -/
def Numerals.decpoint (c : Numerals) : UInt8 :=
  ((c.tostring (1 / 2)).find? fun b => b != 0x30 && b != 0x35 && b != 0x2b).getD 0x2e

/-- What `numfilter` leaves in the text of a number. -/
def Numerals.keeps (c : Numerals) (b : UInt8) : Bool :=
  isDigit b || b == 0x2d || b == 0x2b || b == 0x65 || b == 0x45 || b == c.decpoint

def num2str (c : Numerals) (x : ℚ) : List UInt8 :=
  ((c.tostring x).filter c.keeps).replace c.decpoint 0x2e

def str2num (c : Numerals) (str : List UInt8) : Option ℚ := c.tonumber (str.replace 0x2e c.decpoint)

/-! ## Writing -/

/-- The variables of `isarray`. -/
structure Counting where
  max : ℚ
  n : Nat
  arraylen : ℚ

def countEntry (s : Counting) : Value × Value → Option Counting
  | (.string [0x6e], .number v) =>
    some { s with arraylen := v, max := if s.max < v then v else s.max }
  | (.number k, _) =>
    if k < 1 ∨ (k.floor : ℚ) ≠ k then none
    else some { s with max := if s.max < k then k else s.max, n := s.n + 1 }
  | _ => none

/-- The length of a table that is written as an array. -/
def isarray (entries : List (Value × Value)) : Option ℚ := do
  let s ← entries.foldlM countEntry ⟨0, 0, 0⟩
  -- an array does not have too many holes
  if 10 < s.max ∧ s.arraylen < s.max ∧ (s.n * 2 : ℚ) < s.max then none else some s.max

/-- `addnewline2` -/
def addnewline (level : Nat) : List UInt8 := 0x0a :: List.replicate (2 * level) 0x20

/-- The text of a key, or the message that it cannot be one. -/
def keyText (c : Numerals) : Value → Except (List UInt8) (List UInt8)
  | .string s => .ok (quotestring s)
  | .number x => .ok (quotestring (c.tostring x))
  | .boolean _ => .error (lit "type 'boolean' is not supported as a key by JSON.")
  | .null | .table _ _ => .error (lit "type 'table' is not supported as a key by JSON.")

/-- `addpair`, without the separator before the pair. -/
def addpair (c : Numerals) (indent : Bool) (level : Nat)
    (pair : Value × Except (List UInt8) (List UInt8)) : Except (List UInt8) (List UInt8) := do
  let key ← keyText c pair.1
  let value ← pair.2
  return (if indent then addnewline level else []) ++ (key ++ 0x3a :: value)

/-- A table as an array with `for i = 1, n`: after an index below `n` there is a comma. -/
def arrayText (n : ℚ) (values : List (Value × Except (List UInt8) (List UInt8))) :
    Except (List UInt8) (List UInt8) := do
  let items ← (List.range n.floor.toNat).mapM fun i : Nat =>
    (index values (.number (i + 1))).getD (.ok (lit "null"))
  let last := if items ≠ [] ∧ (n.floor : ℚ) < n then [0x2c] else []
  return 0x5b :: ([0x2c].intercalate items ++ (last ++ [0x5d]))

def objectText (c : Numerals) (indent : Bool) (level : Nat)
    (values : List (Value × Except (List UInt8) (List UInt8))) :
    Except (List UInt8) (List UInt8) := do
  let pairs ← values.mapM (addpair c indent (level + 1))
  return 0x7b :: ([0x2c].intercalate pairs ++ ((if indent then addnewline level else []) ++ [0x7d]))

mutual

/-- `encode2`, for a state without a key order and without an exception handler. -/
def encode2 (c : Numerals) (indent : Bool) (level : Nat) : Value → Except (List UInt8) (List UInt8)
  | .null => .ok (lit "null")
  | .boolean b => .ok (if b then lit "true" else lit "false")
  | .number x => .ok (num2str c x)
  | .string s => .ok (quotestring s)
  | .table jsontype entries =>
    let values := encodeEntries c indent (level + 1) entries
    match isarray entries with
    | some n =>
      if n = 0 ∧ jsontype = some .object then objectText c indent level values
      else arrayText n values
    | none => objectText c indent level values

/-- The values of the entries. -/
def encodeEntries (c : Numerals) (indent : Bool) (level : Nat) :
    List (Value × Value) → List (Value × Except (List UInt8) (List UInt8))
  | [] => []
  | (k, v) :: entries => (k, encode2 c indent level v) :: encodeEntries c indent level entries

end

/-- `json.encode(value, { indent = indent })`, or the message of its error. -/
def encode (c : Numerals) (indent : Bool) (value : Value) : Except (List UInt8) (List UInt8) :=
  encode2 c indent 0 value

/-! ## Reading -/

/-- What `scanwhite` is in the middle of. -/
inductive White where
  | space
  | lineComment
  | blockComment
deriving DecidableEq, Repr

/-- The text from the first character on that is not white space, a byte order mark or
in a comment. -/
def scanwhite : White → List UInt8 → Option (List UInt8)
  | .space, 0xef :: 0xbb :: 0xbf :: s => scanwhite .space s
  | .space, 0x2f :: 0x2f :: s => scanwhite .lineComment s
  | .space, 0x2f :: 0x2a :: s => scanwhite .blockComment s
  | .space, c :: s => if isBlank c then scanwhite .space s else some (c :: s)
  | .lineComment, c :: s =>
    if c = 0x0a ∨ c = 0x0d then scanwhite .space s else scanwhite .lineComment s
  | .blockComment, 0x2a :: 0x2f :: s => scanwhite .space s
  | .blockComment, _ :: s => scanwhite .blockComment s
  | _, [] => none

/-- Why a text is not read, with the text from the place on that the message names. -/
inductive ScanError where
  | unterminated (what : List UInt8) (start : List UInt8)
  | reachedEnd
  | nilIndex (start : List UInt8)
  | noValue (start : List UInt8)
  /-- The bound on the calls was too low (`decode_ends`). -/
  | stuck
deriving DecidableEq, Repr

/-- A class followed by `?`: what it takes, and the rest. -/
def scanOptional (p : UInt8 → Bool) : List UInt8 → List UInt8 × List UInt8
  | b :: t => if p b then ([b], t) else ([], b :: t)
  | [] => ([], [])

/-- `^%-?[%d%.]+[eE]?[%+%-]?%d*`: the match and the text after it. -/
def scanNumeral (s : List UInt8) : Option (List UInt8 × List UInt8) :=
  let (sign, t) := scanOptional (· == 0x2d) s
  let mantissa := t.takeWhile fun b => isDigit b || b == 0x2e
  let t := t.dropWhile fun b => isDigit b || b == 0x2e
  let (e, t) := scanOptional (fun b => b == 0x65 || b == 0x45) t
  let (sign', t) := scanOptional (fun b => b == 0x2b || b == 0x2d) t
  if mantissa = [] then none
  else some (sign ++ (mantissa ++ (e ++ (sign' ++ t.takeWhile isDigit))), t.dropWhile isDigit)

/-- A number or one of the three names. -/
def scanWord (c : Numerals) (nullval : Option Value) (s : List UInt8) :
    Except ScanError (Option Value × List UInt8) :=
  let number := do
    let (t, rest) ← scanNumeral s
    let x ← str2num c t
    return (x, rest)
  match number with
  | some (x, rest) => .ok (some (.number x), rest)
  | none =>
    -- `^%a%w*`
    let name := if s.head?.any isAlpha then s.takeWhile fun b => isAlpha b || isDigit b else []
    let rest := s.drop name.length
    if name = lit "true" then .ok (some (.boolean true), rest)
    else if name = lit "false" then .ok (some (.boolean false), rest)
    else if name = lit "null" then .ok (nullval, rest)
    else .error (.noValue s)

/-- `scanwhite` in the middle of a table or of a pair. -/
def scanwhiteIn (what start s : List UInt8) : Except ScanError (List UInt8) :=
  match scanwhite .space s with
  | some t => .ok t
  | none => .error (.unterminated what start)

def Jsontype.what : Jsontype → List UInt8
  | .object => lit "object"
  | .array => lit "array"

def Jsontype.closechar : Jsontype → UInt8
  | .object => 0x7d
  | .array => 0x5d

/-- `if char == "," then pos = pos + 1 end` -/
def dropComma (s : List UInt8) : List UInt8 := if s.head? = some 0x2c then s.tail else s

mutual

/-- `scanvalue`, which calls itself through `scantable` as often as the text is long. -/
def scanvalue (c : Numerals) (nullval : Option Value) : (fuel : Nat) → List UInt8 →
    Except ScanError (Option Value × List UInt8)
  | 0, _ => .error .stuck
  | fuel + 1, str =>
    match scanwhite .space str with
    | none => .error .reachedEnd
    | some s =>
      if s.head? = some 0x7b then scantable c nullval .object s fuel [] 0 s.tail
      else if s.head? = some 0x5b then scantable c nullval .array s fuel [] 0 s.tail
      else if s.head? = some 0x22 then
        match scanstring s.tail with
        | some (value, rest) => .ok (some (.string value), rest)
        | none => .error (.unterminated (lit "string") s)
      else scanWord c nullval s

/-- The loop of `scantable`, with the table and the number of its elements so far. -/
def scantable (c : Numerals) (nullval : Option Value) (what : Jsontype) (start : List UInt8) :
    (fuel : Nat) → List (Value × Value) → Nat → List UInt8 →
    Except ScanError (Option Value × List UInt8)
  | 0, _, _, _ => .error .stuck
  | fuel + 1, tbl, n, str => do
    let s ← scanwhiteIn what.what start str
    if s.head? = some what.closechar then return (some (.table (some what) tbl), s.tail)
    let (val1, t) ← scanvalue c nullval fuel s
    let t ← scanwhiteIn what.what start t
    if t.head? = some 0x3a then
      match val1 with
      | none => .error (.nilIndex t)
      | some key =>
        let t ← scanwhiteIn what.what start t.tail
        let (val2, u) ← scanvalue c nullval fuel t
        let u ← scanwhiteIn what.what start u
        scantable c nullval what start fuel (setIndex tbl key val2) n (dropComma u)
    else
      scantable c nullval what start fuel (setIndex tbl (.number (n + 1)) val1) (n + 1)
        (dropComma t)

end

/-- `json.decode(str, 1, nullval)`: the value and the text behind it. -/
def decode (c : Numerals) (nullval : Option Value) (str : List UInt8) :
    Except ScanError (Option Value × List UInt8) :=
  scanvalue c nullval (2 * str.length + 1) str

/-! ## What is reported -/

/-- `loc(str, where)`, for the text before the place. -/
def loc (before : List UInt8) : List UInt8 :=
  let line := before.count 0x0a + 1
  let column := (before.reverse.takeWhile (· != 0x0a)).length + 1
  lit "line " ++ (decimalText line ++ (lit ", column " ++ decimalText column))

/-- The position and the message that `decode` returns. -/
def ScanError.report (str : List UInt8) : ScanError → Nat × List UInt8
  | .unterminated what start =>
    (str.length + 1, lit "unterminated " ++ (what ++ (lit " at " ++ loc (before start))))
  | .reachedEnd => (str.length + 1, lit "no valid JSON value (reached the end)")
  | .nilIndex start => (position start,
    lit "cannot use nil as table index (at " ++ (loc (before start) ++ lit ")"))
  | .noValue start => (position start, lit "no valid JSON value at " ++ loc (before start))
  | .stuck => (0, [])
where
  before (start : List UInt8) : List UInt8 := str.take (str.length - start.length)
  position (start : List UInt8) : Nat := str.length - start.length + 1

/-! ## Any text -/

/-- The place that an error names lies in the text, and the search has not been given up. -/
def ScanError.Within (whole : List UInt8) : ScanError → Prop
  | .unterminated _ start | .nilIndex start | .noValue start => start <:+ whole
  | .reachedEnd => True
  | .stuck => False

/-- What is reported is a position in the text, or the one behind its end, and a message
with the line and the column of a place. -/
structure ScanError.Located (whole : List UInt8) (e : ScanError) : Prop where
  position : 1 ≤ (e.report whole).1 ∧ (e.report whole).1 ≤ whole.length + 1
  message : e = .reachedEnd ∨
    ∃ before rest, whole = before ++ rest ∧ loc before <:+: (e.report whole).2

theorem ScanError.Within.located {whole : List UInt8} {e : ScanError} (h : e.Within whole) :
    e.Located whole := by
  have htake : ∀ before start : List UInt8,
      ScanError.report.before (before ++ start) start = before := by
    intro before start
    rw [ScanError.report.before, List.length_append, Nat.add_sub_cancel, List.take_left]
  have hposition : ∀ before start : List UInt8,
      ScanError.report.position (before ++ start) start = before.length + 1 := by
    intro before start
    rw [ScanError.report.position, List.length_append, Nat.add_sub_cancel]
  cases e with
  | unterminated what start =>
    obtain ⟨before, rfl⟩ := h
    refine ⟨⟨Nat.le_add_left 1 _, le_rfl⟩, .inr ⟨before, start, rfl, ?_⟩⟩
    rw [ScanError.report, htake]
    exact ⟨lit "unterminated " ++ (what ++ lit " at "), [], by simp⟩
  | reachedEnd => exact ⟨⟨Nat.le_add_left 1 _, le_rfl⟩, .inl rfl⟩
  | nilIndex start =>
    obtain ⟨before, rfl⟩ := h
    refine ⟨?_, .inr ⟨before, start, rfl, ?_⟩⟩
    · rw [ScanError.report, hposition, List.length_append]
      omega
    · rw [ScanError.report, htake]
      exact ⟨lit "cannot use nil as table index (at ", lit ")", by simp⟩
  | noValue start =>
    obtain ⟨before, rfl⟩ := h
    refine ⟨?_, .inr ⟨before, start, rfl, ?_⟩⟩
    · rw [ScanError.report, hposition, List.length_append]
      omega
    · rw [ScanError.report, htake]
      exact ⟨lit "no valid JSON value at ", [], by simp⟩
  | stuck => exact absurd h id

/-- What a scan of `str`, within the whole text, may result in. -/
def Ends (whole str : List UInt8) : Except ScanError (Option Value × List UInt8) → Prop
  | .ok (_, rest) => rest <:+ str ∧ rest.length < str.length
  | .error e => e.Within whole

theorem scanwhite_suffix {mode : White} {str s : List UInt8} (h : scanwhite mode str = some s) :
    s <:+ str ∧ s ≠ [] := by
  fun_induction scanwhite mode str with
  | case1 str ih => exact ⟨(ih h).1.trans ⟨[0xef, 0xbb, 0xbf], rfl⟩, (ih h).2⟩
  | case2 str ih => exact ⟨(ih h).1.trans ⟨[0x2f, 0x2f], rfl⟩, (ih h).2⟩
  | case3 str ih => exact ⟨(ih h).1.trans ⟨[0x2f, 0x2a], rfl⟩, (ih h).2⟩
  | case4 b str _ _ _ _ ih => exact ⟨(ih h).1.trans ⟨[b], rfl⟩, (ih h).2⟩
  | case5 b str =>
    cases h
    exact ⟨List.suffix_rfl, List.cons_ne_nil _ _⟩
  | case6 b str _ ih => exact ⟨(ih h).1.trans ⟨[b], rfl⟩, (ih h).2⟩
  | case7 b str _ ih => exact ⟨(ih h).1.trans ⟨[b], rfl⟩, (ih h).2⟩
  | case8 str ih => exact ⟨(ih h).1.trans ⟨[0x2a, 0x2f], rfl⟩, (ih h).2⟩
  | case9 b str _ ih => exact ⟨(ih h).1.trans ⟨[b], rfl⟩, (ih h).2⟩
  | case10 => cases h

theorem scanstringFrom_suffix {buffer str value rest : List UInt8} {skip : Nat}
    (h : scanstringFrom buffer skip str = some (value, rest)) : rest <:+ str := by
  induction str generalizing buffer skip with
  | nil => cases h
  | cons b str ih =>
    refine List.IsSuffix.trans ?_ ⟨[b], rfl⟩
    cases skip with
    | succ skip => exact ih h
    | zero =>
      unfold scanstringFrom at h
      split at h
      · cases h
        exact List.suffix_rfl
      · split at h
        · exact ih h
        · exact ih h

theorem scanOptional_suffix (p : UInt8 → Bool) (s : List UInt8) : (scanOptional p s).2 <:+ s := by
  cases s with
  | nil => exact List.suffix_rfl
  | cons b s =>
    rw [scanOptional]
    split
    · exact List.suffix_cons b s
    · exact List.suffix_rfl

theorem scanNumeral_suffix {s t rest : List UInt8} (h : scanNumeral s = some (t, rest)) :
    rest <:+ s ∧ rest.length < s.length := by
  unfold scanNumeral at h
  dsimp only at h
  split at h
  · cases h
  · rename_i hmantissa
    cases h
    -- the digits of the mantissa are gone, and the rest of the pattern takes more
    have hsign := scanOptional_suffix (· == 0x2d) s
    have hdigits := List.takeWhile_append_dropWhile (p := fun b => isDigit b || b == 0x2e)
      (l := (scanOptional (· == 0x2d) s).2)
    have hlength := congrArg List.length hdigits
    rw [List.length_append] at hlength
    have hpos := List.length_pos_iff.mpr hmantissa
    have hrest := (List.dropWhile_suffix isDigit).trans ((scanOptional_suffix
      (fun b => b == 0x2b || b == 0x2d) _).trans (scanOptional_suffix
      (fun b => b == 0x65 || b == 0x45) ((scanOptional (· == 0x2d) s).2.dropWhile fun b =>
        isDigit b || b == 0x2e)))
    refine ⟨hrest.trans ((List.dropWhile_suffix _).trans hsign), ?_⟩
    have h₁ := hrest.length_le
    have h₂ := hsign.length_le
    omega

theorem scanWord_ends (c : Numerals) (nullval : Option Value) {whole s : List UInt8}
    (hs : s <:+ whole) (hne : s ≠ []) : Ends whole s (scanWord c nullval s) := by
  have hpos := List.length_pos_iff.mpr hne
  have hname : ∀ (k : Nat) v, 0 < k → Ends whole s (.ok (v, s.drop k)) := by
    intro k v hk
    refine ⟨List.drop_suffix k s, ?_⟩
    rw [List.length_drop]
    omega
  unfold scanWord
  dsimp only
  split
  · rename_i x rest hnumber
    cases hscan : scanNumeral s with
    | none =>
      rw [hscan] at hnumber
      cases hnumber
    | some q =>
      obtain ⟨t, rest'⟩ := q
      rw [hscan] at hnumber
      simp only [Option.bind_eq_bind, Option.bind_some] at hnumber
      obtain ⟨y, -, hy⟩ := Option.bind_eq_some_iff.mp hnumber
      cases hy
      exact scanNumeral_suffix hscan
  · generalize (if s.head?.any isAlpha then s.takeWhile fun b => isAlpha b || isDigit b else []) =
      name
    split
    · rename_i htrue
      rw [htrue]
      exact hname _ _ (by decide)
    · split
      · rename_i hfalse
        rw [hfalse]
        exact hname _ _ (by decide)
      · split
        · rename_i hnull
          rw [hnull]
          exact hname _ _ (by decide)
        · exact hs

theorem scanwhiteIn_eq_ok {what start s t : List UInt8} (h : scanwhiteIn what start s = .ok t) :
    t <:+ s ∧ t ≠ [] := by
  unfold scanwhiteIn at h
  split at h
  · rename_i hwhite
    cases h
    exact scanwhite_suffix hwhite
  · cases h

theorem scanwhiteIn_within {what start s whole : List UInt8} {e : ScanError}
    (hstart : start <:+ whole) (h : scanwhiteIn what start s = .error e) : e.Within whole := by
  unfold scanwhiteIn at h
  split at h
  · cases h
  · cases h
    exact hstart

theorem dropComma_suffix (s : List UInt8) : dropComma s <:+ s := by
  unfold dropComma
  split
  · exact List.tail_suffix s
  · exact List.suffix_rfl

theorem length_tail_lt {s : List UInt8} (h : s ≠ []) : s.tail.length < s.length := by
  have := List.length_pos_iff.mpr h
  rw [List.length_tail]
  omega

section Ends
variable {whole str s : List UInt8} {α : Type}

theorem Ends.mono {r : Except ScanError (Option Value × List UInt8)} (h : Ends whole s r)
    (hs : s <:+ str) : Ends whole str r := by
  cases r with
  | error e => exact h
  | ok q => exact ⟨h.1.trans hs, h.2.trans_le hs.length_le⟩

/-- One step of the loop. -/
theorem ends_bind {x : Except ScanError α} {f : α → Except ScanError (Option Value × List UInt8)}
    (herror : ∀ e, x = .error e → e.Within whole) (hok : ∀ a, x = .ok a → Ends whole str (f a)) :
    Ends whole str (x >>= f) := by
  cases x with
  | error e => exact herror e rfl
  | ok a => exact hok a rfl

end Ends

/-- **The bound is enough**: every call of `scanvalue` and every round of `scantable`
takes something from the text. -/
theorem scan_ends (c : Numerals) (nullval : Option Value) (whole : List UInt8) (fuel : Nat) :
    (∀ str, str <:+ whole → 2 * str.length + 1 ≤ fuel →
      Ends whole str (scanvalue c nullval fuel str)) ∧
    ∀ what start tbl n str, start <:+ whole → str <:+ whole → 2 * str.length + 2 ≤ fuel →
      Ends whole str (scantable c nullval what start fuel tbl n str) := by
  induction fuel with
  | zero => exact ⟨fun _ _ h => absurd h (by omega), fun _ _ _ _ _ _ _ h => absurd h (by omega)⟩
  | succ fuel ih =>
    obtain ⟨ihvalue, ihtable⟩ := ih
    refine ⟨fun str hstr hfuel => ?_, fun what start tbl n str hstart hstr hfuel => ?_⟩
    · rw [scanvalue]
      split
      · trivial
      · rename_i s hwhite
        obtain ⟨hs, hne⟩ := scanwhite_suffix hwhite
        have hlt := length_tail_lt hne
        have hle := hs.length_le
        have htail := (List.tail_suffix s).trans hs
        have htable : ∀ what, Ends whole str (scantable c nullval what s fuel [] 0 s.tail) :=
          fun what => (ihtable what s [] 0 s.tail (hs.trans hstr) (htail.trans hstr)
            (by omega)).mono htail
        split
        · exact htable .object
        · split
          · exact htable .array
          · split
            · split
              · rename_i hstring
                have hrest := scanstringFrom_suffix hstring
                have hrest_le := hrest.length_le
                exact ⟨hrest.trans htail, by omega⟩
              · exact hs.trans hstr
            · exact (scanWord_ends c nullval (hs.trans hstr) hne).mono hs
    · rw [scantable]
      refine ends_bind (fun e => scanwhiteIn_within hstart) fun s hwhite => ?_
      obtain ⟨hs, hne⟩ := scanwhiteIn_eq_ok hwhite
      have hlt := length_tail_lt hne
      have hle := hs.length_le
      split
      · exact ⟨(List.tail_suffix s).trans hs, by omega⟩
      · -- an element or the key of a pair
        have hvalue := ihvalue s (hs.trans hstr) (by omega)
        refine ends_bind (fun e he => by rwa [he] at hvalue) fun q hq => ?_
        obtain ⟨val1, t⟩ := q
        rw [hq] at hvalue
        obtain ⟨ht, htlt⟩ := hvalue
        refine ends_bind (fun e => scanwhiteIn_within hstart) fun t' hbehind => ?_
        have ht' := (scanwhiteIn_eq_ok hbehind).1
        have ht'le := ht'.length_le
        have ht'str := ht'.trans (ht.trans hs)
        have hround : ∀ tbl n u, u <:+ t' →
            Ends whole str (scantable c nullval what start fuel tbl n (dropComma u)) := by
          intro tbl n u hu
          have hu' := (dropComma_suffix u).trans hu
          have hle' := hu'.length_le
          exact (ihtable what start tbl n _ hstart (hu'.trans (ht'str.trans hstr))
            (by omega)).mono (hu'.trans ht'str)
        split
        · cases val1 with
          | none => exact ht'str.trans hstr
          | some key =>
            refine ends_bind (fun e => scanwhiteIn_within hstart) fun v hbefore => ?_
            have hv := (scanwhiteIn_eq_ok hbefore).1.trans (List.tail_suffix t')
            have hvle := hv.length_le
            have hvalue' := ihvalue v (hv.trans (ht'str.trans hstr)) (by omega)
            refine ends_bind (fun e he => by rwa [he] at hvalue') fun q' hq' => ?_
            obtain ⟨val2, u⟩ := q'
            rw [hq'] at hvalue'
            refine ends_bind (fun e => scanwhiteIn_within hstart) fun u' hafter => ?_
            exact hround _ _ u' ((scanwhiteIn_eq_ok hafter).1.trans (hvalue'.1.trans hv))
        · exact hround _ _ t' List.suffix_rfl

/-- **Every text is read to an end**: `decode` returns a value and a shorter rest of the
text, or an error, and what is reported then is a place in the text. -/
theorem decode_ends (c : Numerals) (nullval : Option Value) (str : List UInt8) :
    Ends str str (decode c nullval str) ∧
      ∀ e, decode c nullval str = .error e → e.Located str := by
  have hends : Ends str str (decode c nullval str) :=
    (scan_ends c nullval str (2 * str.length + 1)).1 str List.suffix_rfl le_rfl
  refine ⟨hends, fun e he => ?_⟩
  rw [he] at hends
  exact ScanError.Within.located hends

end TfPackages.Dkjson
