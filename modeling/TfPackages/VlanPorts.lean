import TfPackages.LuaPatterns

/-! # Port names and ranges of the VLAN commands

The port list of a VLAN holds names like `lan3`, or `lan3:t` for a port that is
tagged in it.  `getPort` takes them apart with Lua patterns.  In the pattern for
tagged ports the first repetition also takes digits, so that only the last digit
is left for the number: `getPort_text` says what number a name is read as.
-/
namespace TfPackages.Vlan

/-- An entry of a port list. -/
structure LanPort where
  num : Nat
  tagged : Bool
deriving DecidableEq, Repr

/-- The name of a port: `"lan" .. num`, with `":t"` if it is tagged. -/
def LanPort.text (p : LanPort) : List Char :=
  "lan".toList ++ Nat.toDigits 10 p.num ++ if p.tagged then ":t".toList else []

/-- `port.state`. -/
inductive PortState where
  | untagged
  | tagged
deriving DecidableEq, Repr

/-- What `getPort` returns; `portNumber` may be `nil`. -/
structure Port where
  portNumber : Option Nat
  state : PortState
deriving DecidableEq, Repr

/-- `tonumber` of a capture `(%d+)`. -/
def tonumber (digits : List Char) : Nat := Nat.ofDigitChars 10 digits 0

/-- `getPort`. -/
def getPort (portStr : List Char) : Port :=
  if [':', 't'] <:+: portStr then
    { portNumber := ((LuaPatterns.luaMatch
        [.plus Char.isAlphanum, .plus Char.isDigit, .char ':', .plus Char.isAlpha] portStr).bind
          (·[1]?)).map tonumber
      state := .tagged }
  else
    { portNumber := ((LuaPatterns.luaMatch [.plus Char.isAlpha, .plus Char.isDigit] portStr).bind
        (·[1]?)).map tonumber
      state := .untagged }

/-- The argument of `checkPortRange`: `all`, a number, or two numbers with a `-`
between them. -/
inductive RangeArg where
  | all
  | one (n : Nat)
  | span (a b : Nat)
deriving DecidableEq, Repr

/-- `result[3]` of `checkPortRange`: `"all"`, 0 or 1. -/
inductive RangeFlag where
  | all
  | span
  | one
deriving DecidableEq, Repr

/-- The result of `checkPortRange`. -/
structure Range where
  first : Nat
  last : Nat
  flag : RangeFlag
  first_le : first ≤ last
deriving DecidableEq, Repr

/-- `checkPortRange`. -/
def checkPortRange : RangeArg → Option Range
  | .all => some ⟨1, 1, .all, le_refl 1⟩
  | .one n => some ⟨n, n, .one, le_refl n⟩
  | .span a b => if h : a > b then none else some ⟨a, b, .span, Nat.le_of_not_lt h⟩

/-- The values of `for p = first, last`. -/
def Range.values (r : Range) : List Nat := List.range' r.first (r.last + 1 - r.first)

theorem Range.mem_values (r : Range) (n : Nat) : n ∈ r.values ↔ r.first ≤ n ∧ n ≤ r.last := by
  have := r.first_le
  rw [Range.values, List.mem_range'_1]
  omega

theorem Range.nodup_values (r : Range) : r.values.Nodup := List.nodup_range'

/-- `portNumber < portRangeMin or portNumber > portRangeMax`. -/
def Range.outside (r : Range) (n : Nat) : Bool := n < r.first || r.last < n

theorem Range.outside_iff (r : Range) (n : Nat) : r.outside n = true ↔ n ∉ r.values := by
  rw [Range.outside, r.mem_values]
  simp only [Bool.or_eq_true, decide_eq_true_eq]
  omega

/-! ## How names are read -/

/-- The number a name is read as. -/
def LanPort.seen (p : LanPort) : Nat := if p.tagged then p.num % 10 else p.num

def LanPort.state (p : LanPort) : PortState := if p.tagged then .tagged else .untagged

/-- A number in decimal, and its last digit. -/
theorem toDigits_eq_append (n : Nat) :
    ∃ ds, Nat.toDigits 10 n = ds ++ [(n % 10).digitChar] := by
  rw [Nat.toDigits_eq_if (by decide)]
  split
  · rename_i h
    exact ⟨[], by rw [Nat.mod_eq_of_lt h]; rfl⟩
  · exact ⟨_, rfl⟩

theorem isDigit_of_mem_toDigits {c : Char} {n : Nat} (h : c ∈ Nat.toDigits 10 n) :
    c.isDigit = true :=
  Nat.isDigit_of_mem_toDigits (by decide) (by decide) h

theorem isAlphanum_of_isDigit {c : Char} (h : c.isDigit = true) : c.isAlphanum = true := by
  simp [Char.isAlphanum, h]

theorem isAlpha_of_isDigit {c : Char} (h : c.isDigit = true) : c.isAlpha = false := by
  simp only [Char.isDigit, Bool.and_eq_true, decide_eq_true_eq, UInt32.le_iff_toNat_le, ge_iff_le]
    at h
  by_contra hne
  rw [Bool.not_eq_false] at hne
  delta Char.isAlpha Char.isUpper Char.isLower at hne
  simp only [Bool.or_eq_true, Bool.and_eq_true, decide_eq_true_eq, UInt32.le_iff_toNat_le,
    ge_iff_le] at hne
  have h9 : '9'.val.toNat = 57 := rfl
  have hA : 'A'.val.toNat = 65 := rfl
  have ha : 'a'.val.toNat = 97 := rfl
  omega

theorem isAlpha_of_mem_lan {c : Char} (h : c ∈ "lan".toList) : c.isAlpha = true := by
  have hc : c = 'l' ∨ c = 'a' ∨ c = 'n' := by simpa using h
  rcases hc with rfl | rfl | rfl <;> rfl

theorem getPort_untagged (n : Nat) : getPort (LanPort.text ⟨n, false⟩) = ⟨some n, .untagged⟩ := by
  have htext : LanPort.text ⟨n, false⟩ = "lan".toList ++ Nat.toDigits 10 n := by
    simp [LanPort.text]
  have hno : ¬ [':', 't'] <:+: "lan".toList ++ Nat.toDigits 10 n := by
    intro h
    have hmem : ':' ∈ "lan".toList ++ Nat.toDigits 10 n := h.subset List.mem_cons_self
    rcases List.mem_append.mp hmem with hmem | hmem
    · exact absurd (isAlpha_of_mem_lan hmem) (by decide)
    · exact absurd (isDigit_of_mem_toDigits hmem) (by decide)
  have hdigits : LuaPatterns.matchHere [.plus Char.isDigit] (Nat.toDigits 10 n ++ []) =
      some [Nat.toDigits 10 n] :=
    LuaPatterns.matchHere_plus_of_all (fun c hc => isDigit_of_mem_toDigits hc)
      Nat.toDigits_ne_nil (by simp) rfl
  have hhead : ∀ c ∈ (Nat.toDigits 10 n).head?, c.isAlpha = false := by
    intro c hc
    exact isAlpha_of_isDigit (isDigit_of_mem_toDigits (List.mem_of_mem_head? hc))
  rw [List.append_nil] at hdigits
  have hmatch := LuaPatterns.luaMatch_of_matchHere
    (LuaPatterns.matchHere_plus_of_all (fun c hc => isAlpha_of_mem_lan hc) (by simp) hhead hdigits)
  rw [htext, getPort, if_neg hno, hmatch]
  simp [tonumber]

theorem getPort_tagged (n : Nat) :
    getPort (LanPort.text ⟨n, true⟩) = ⟨some (n % 10), .tagged⟩ := by
  obtain ⟨ds, hds⟩ := toDigits_eq_append n
  have htext : LanPort.text ⟨n, true⟩ =
      ("lan".toList ++ ds) ++ (n % 10).digitChar :: [':', 't'] := by
    simp [LanPort.text, hds]
  have hlast : (n % 10).digitChar.isDigit = true :=
    isDigit_of_mem_toDigits (n := n) (by rw [hds]; simp)
  have hyes : [':', 't'] <:+: ("lan".toList ++ ds) ++ (n % 10).digitChar :: [':', 't'] :=
    ⟨("lan".toList ++ ds) ++ [(n % 10).digitChar], [], by simp⟩
  have hword : ∀ c ∈ "lan".toList ++ ds, c.isAlphanum = true := by
    intro c hc
    rcases List.mem_append.mp hc with hc | hc
    · rw [Char.isAlphanum, isAlpha_of_mem_lan hc, Bool.true_or]
    · refine isAlphanum_of_isDigit (isDigit_of_mem_toDigits (n := n) ?_)
      rw [hds]
      exact List.mem_append_left _ hc
  -- with all of `lan` and the digits taken there is no digit left, so one is given back
  have hnone : LuaPatterns.matchHere [.plus Char.isDigit, .char ':', .plus Char.isAlpha]
      [':', 't'] = none := by decide
  have hrest : LuaPatterns.matchHere [.char ':', .plus Char.isAlpha] [':', 't'] = some [['t']] := by
    decide
  have hdigit : LuaPatterns.matchHere [.plus Char.isDigit, .char ':', .plus Char.isAlpha]
      ([(n % 10).digitChar] ++ [':', 't']) = some [[(n % 10).digitChar], ['t']] :=
    LuaPatterns.matchHere_plus_of_all (by simpa using hlast) (by simp)
      (fun c hc => by cases hc; rfl) hrest
  have hmatch := LuaPatterns.luaMatch_of_matchHere
    (LuaPatterns.matchHere_plus_give_back hword (by simp) (isAlphanum_of_isDigit hlast)
      (fun c hc => by cases hc; rfl) hnone hdigit)
  have hnum : tonumber [(n % 10).digitChar] = n % 10 := by
    rw [tonumber, Nat.ofDigitChars_cons_digitChar_of_lt_ten (Nat.mod_lt n (by decide))]
    simp
  rw [htext, getPort, if_pos hyes, hmatch]
  simp [hnum]

/-- **How a port name is read**: an untagged one as what it says, a tagged one as
its last digit. -/
theorem getPort_text (p : LanPort) : getPort p.text = ⟨some p.seen, p.state⟩ := by
  obtain ⟨n, tagged⟩ := p
  cases tagged with
  | false => exact getPort_untagged n
  | true => exact getPort_tagged n

example : getPort "lan10:t".toList = ⟨some 0, .tagged⟩ := by decide

/-! ## Reading a name and writing it again -/

/-- `lanStr` of `vlan_add_untagged` for a port that `getPort` returned; without a
number there is nothing to write. -/
def Port.lanStr (p : Port) : Option (List Char) :=
  p.portNumber.map fun num =>
    match p.state with
    | .tagged => "lan".toList ++ Nat.toDigits 10 num ++ ":t".toList
    | .untagged => "lan".toList ++ Nat.toDigits 10 num

/-- The names of port `n` are read as what they say, and written again they are the
same. -/
structure RoundTrips (n : Nat) : Prop where
  untagged : getPort (LanPort.text ⟨n, false⟩) = ⟨some n, .untagged⟩
  tagged : getPort (LanPort.text ⟨n, true⟩) = ⟨some n, .tagged⟩
  rewritten : ∀ tagged,
    (getPort (LanPort.text ⟨n, tagged⟩)).lanStr = some (LanPort.text ⟨n, tagged⟩)

theorem lanStr_port (p : LanPort) : Port.lanStr ⟨some p.num, p.state⟩ = some p.text := by
  obtain ⟨n, tagged⟩ := p
  cases tagged <;> simp [Port.lanStr, LanPort.state, LanPort.text]

/-- **Port names survive exactly with one digit.** -/
theorem round_trips_iff (n : Nat) : RoundTrips n ↔ n < 10 := by
  constructor
  · rintro ⟨-, htagged, -⟩
    rw [getPort_tagged] at htagged
    have hnum : n % 10 = n := by simpa using congrArg Port.portNumber htagged
    omega
  · intro hn
    have htagged : getPort (LanPort.text ⟨n, true⟩) = ⟨some n, .tagged⟩ := by
      rw [getPort_tagged, Nat.mod_eq_of_lt hn]
    refine ⟨getPort_untagged n, htagged, fun tagged => ?_⟩
    cases tagged with
    | false =>
      rw [getPort_untagged]
      exact lanStr_port ⟨n, false⟩
    | true =>
      rw [htagged]
      exact lanStr_port ⟨n, true⟩

/-- Port 10, tagged, is read as port 0. -/
theorem port_ten_misread : ¬ RoundTrips 10 := by
  rintro ⟨-, htagged, -⟩
  rw [getPort_tagged] at htagged
  cases htagged

end TfPackages.Vlan
