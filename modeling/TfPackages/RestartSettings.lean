import Mathlib.Computability.RegularExpressions
import TfPackages.Scanf

/-! # The two validators of the auto-restart settings

`config_autorestart.lua` checks a time or a host before it is stored, and the
daemon checks what it reads back from `uci`.  The script looks for the parts
anywhere in the text and bounds the numbers; the daemon reads the time with
`sscanf` from the beginning of the line, and matches the whole host, of which at
most sixteen characters are kept, against a regular expression.

The script's time is the one that the daemon reads if only blanks and a sign are
before it, unless the daemon has found another one before, and a host passes both
checks if it has the line for itself.
-/
namespace TfPackages.Restart
open Scanf

/-! ## The script -/

/-- `(%d+):(%d+)` -/
def timePattern : List LuaPatterns.Item := [.plus Char.isDigit, .char ':', .plus Char.isDigit]

/-- `is_valid_time`. -/
def luaIsValidTime (time : List Char) : Bool :=
  match LuaPatterns.luaMatch timePattern time with
  | some [hh, mm] => !(decimal mm > 59 || decimal hh > 24)
  | _ => false

/-- `(%d+)%.(%d+)%.(%d+)%.(%d+)` -/
def ipPattern : List LuaPatterns.Item :=
  [.plus Char.isDigit, .char '.', .plus Char.isDigit, .char '.', .plus Char.isDigit, .char '.',
    .plus Char.isDigit]

/-- A part of the address is rejected. -/
def badPart (part : List Char) : Bool :=
  decimal part > 255 || (part.length > 1 && part.head? = some '0')

/-- `is_valid_ip`. -/
def luaIsValidIp (ip : List Char) : Bool :=
  match LuaPatterns.luaMatch ipPattern ip with
  | some parts => parts.length = 4 && !parts.any badPart
  | none => false

/-! ## The daemon -/

/-- `fgets(output, size, stream)`: the rest of the line with its end, as far as it
fits. -/
def fgets (size : Nat) (stream : List Char) : List Char :=
  (stream.takeWhile (· ≠ '\n') ++ (stream.dropWhile (· ≠ '\n')).take 1).take (size - 1)

/-- What the daemon reads of the line that `uci get` prints; `OUTPUT_MAX_LENGTH`
is 64. -/
def output (value : List Char) : List Char := fgets 64 (value ++ ['\n'])

/-- The value `%d` stores.  What it is for a number that does not fit in an `int`
is not defined. -/
def toInt (overflow : Int → Int) (v : Int) : Int :=
  if -2 ^ 31 ≤ v ∧ v < 2 ^ 31 then v else overflow v

/-- `sscanf(timeString, "%d:%d", &hour, &minute)` with both numbers stored. -/
def sscanfTime (timeString : List Char) : Option (Int × Int) :=
  match scanInt timeString with
  | some (hour, ':' :: s) => (scanInt s).map fun (minute, _) => (hour, minute)
  | _ => none

/-- `isValidTime` returns `ERR_OK`. -/
def isValidTime (overflow : Int → Int) (timeString : List Char) : Bool :=
  match sscanfTime timeString with
  | none => false
  | some (hour, minute) =>
    let hour := toInt overflow hour
    let minute := toInt overflow minute
    !(hour < 0 || hour > 23 || minute < 0 || minute > 59)

/-- `[0-9]` -/
def digit : RegularExpression Char := "0123456789".toList.foldr (fun c r => .char c + r) 0

/-- `[0-9]{1,3}` -/
def oneToThreeDigits : RegularExpression Char := digit + digit * digit + digit * digit * digit

/-- `^([0-9]{1,3}\.){3}[0-9]{1,3}$` -/
def hostExpression : RegularExpression Char :=
  (oneToThreeDigits * .char '.') ^ 3 * oneToThreeDigits

/-- `paramPort->host` after `port_setHostParam`.  The record starts with zeros, and
so does the field behind `host`. -/
def hostParam (value : List Char) : List Char := ((output value).take 16).takeWhile (· ≠ '\n')

/-- `checkValidIp` gives `ERR_OK`. -/
def checkValidIp (ipStr : List Char) : Bool := hostExpression.rmatch ipStr

/-! ## Agreement -/

/-- What the script accepts the daemon accepts, as a time and as a host. -/
def ValidatorsAgree (overflow : Int → Int) (s : List Char) : Prop :=
  (luaIsValidTime s = true → isValidTime overflow (output s) = true) ∧
    (luaIsValidIp s = true → checkValidIp (hostParam s) = true)

/-- The line, as the daemon reads it, begins with a time in which `pre` and `gap`
are skipped. -/
structure BeginsWithTime (line pre hh gap mm : List Char) : Prop where
  eq_append : ∃ rest, NoDigitHead rest ∧ line = pre ++ (hh ++ ':' :: (gap ++ (mm ++ rest)))
  skipped_pre : Skipped pre
  skipped_gap : Skipped gap
  digits_hh : Digits hh
  digits_mm : Digits mm

/-- A time that the daemon reads.  Without anything before the minutes it is the
one that the script has seen, and only the sign and the hour 24 are left to be
excluded. -/
def TimeLine (overflow : Int → Int) (s : List Char) : Prop :=
  ∃ pre hh gap mm, BeginsWithTime (output s) pre hh gap mm ∧
    (gap = [] ∧ decimal hh ≠ 24 ∧ ('-' ∈ pre → decimal hh = 0) ∨
      gap ≠ [] ∧ (0 ≤ toInt overflow (signed pre hh) ∧ toInt overflow (signed pre hh) ≤ 23) ∧
        0 ≤ toInt overflow (signed gap mm) ∧ toInt overflow (signed gap mm) ≤ 59)

/-- Four numbers with dots between them, and what is behind them. -/
def dotted (a b c d rest : List Char) : List Char :=
  a ++ '.' :: (b ++ '.' :: (c ++ '.' :: (d ++ rest)))

/-- Four numbers have the first line for themselves. -/
def HostLine (s : List Char) : Prop :=
  ∃ a b c d rest, (Digits a ∧ Digits b ∧ Digits c ∧ Digits d) ∧ s = dotted a b c d rest ∧
    (rest = [] ∨ rest.head? = some '\n')

/-! ## What the daemon reads -/

theorem firstLine_append_newline (s : List Char) :
    (s ++ ['\n']).takeWhile (· ≠ '\n') = s.takeWhile (· ≠ '\n') ∧
      ((s ++ ['\n']).dropWhile (· ≠ '\n')).take 1 = ['\n'] := by
  induction s with
  | nil => decide
  | cons c s ih =>
    rw [List.cons_append, List.takeWhile_cons, List.takeWhile_cons, List.dropWhile_cons]
    split
    · exact ⟨congrArg _ ih.1, ih.2⟩
    · rename_i hc
      obtain rfl : c = '\n' := by simpa using hc
      exact ⟨rfl, rfl⟩

theorem output_eq (s : List Char) : output s = (s.takeWhile (· ≠ '\n') ++ ['\n']).take 63 := by
  rw [output, fgets, (firstLine_append_newline s).1, (firstLine_append_newline s).2]

/-- What does not end with the end of the line is the beginning of the value. -/
theorem prefix_of_output {s x : List Char} {c : Char} (h : x ++ [c] <+: output s) (hc : c ≠ '\n') :
    x ++ [c] <+: s := by
  rw [output_eq] at h
  have hline := h.trans (List.take_prefix _ _)
  rcases List.prefix_concat_iff.mp hline with heq | hpre
  · exact absurd (List.append_inj' heq rfl).2 (by simpa using hc)
  · exact hpre.trans (List.takeWhile_prefix _)

theorem hostParam_eq (s : List Char) : hostParam s = (s.takeWhile (· ≠ '\n')).take 16 := by
  have hno : ∀ c ∈ (s.takeWhile (· ≠ '\n')).take 16, decide (c ≠ '\n') = true := by
    intro c hc
    have hmem := List.mem_of_mem_take hc
    exact List.mem_takeWhile_imp (p := fun c => decide (c ≠ '\n')) hmem
  rw [hostParam, output_eq, List.take_take, List.take_append]
  refine LuaPatterns.takeWhile_run hno fun c hc => ?_
  have hmem := List.mem_of_mem_take (List.mem_of_mem_head? hc)
  rw [List.mem_singleton] at hmem
  simp [hmem]

theorem sscanfTime_eq_some_iff (line : List Char) (h m : Int) :
    sscanfTime line = some (h, m) ↔ ∃ pre hh gap mm, BeginsWithTime line pre hh gap mm ∧
      h = signed pre hh ∧ m = signed gap mm := by
  constructor
  · intro hscan
    unfold sscanfTime at hscan
    split at hscan
    · rename_i hour s hhour
      obtain ⟨⟨minute, rest⟩, hminute, hpair⟩ := Option.map_eq_some_iff.mp hscan
      cases hpair
      obtain ⟨pre, hh, hline, hpre, hhh, -, hh_eq⟩ := (scanInt_eq_some_iff ..).mp hhour
      obtain ⟨gap, mm, hs, hgap, hmm, hrest, hm_eq⟩ := (scanInt_eq_some_iff ..).mp hminute
      exact ⟨pre, hh, gap, mm, ⟨⟨rest, hrest, by rw [hline, hs]⟩, hpre, hgap, hhh, hmm⟩,
        hh_eq, hm_eq⟩
    · cases hscan
  · rintro ⟨pre, hh, gap, mm, ⟨⟨rest, hrest, rfl⟩, hpre, hgap, hhh, hmm⟩, rfl, rfl⟩
    have hminute : scanInt (gap ++ (mm ++ rest)) = some (signed gap mm, rest) :=
      (scanInt_eq_some_iff ..).mpr ⟨gap, mm, rfl, hgap, hmm, hrest, rfl⟩
    have hhour : scanInt (pre ++ (hh ++ ':' :: (gap ++ (mm ++ rest)))) =
        some (signed pre hh, ':' :: (gap ++ (mm ++ rest))) :=
      (scanInt_eq_some_iff ..).mpr ⟨pre, hh, rfl, hpre, hhh, by rintro c ⟨⟩; decide, rfl⟩
    rw [sscanfTime, hhour]
    simp only [hminute, Option.map_some]

theorem isValidTime_iff (overflow : Int → Int) (line : List Char) :
    isValidTime overflow line = true ↔ ∃ pre hh gap mm, BeginsWithTime line pre hh gap mm ∧
      (0 ≤ toInt overflow (signed pre hh) ∧ toInt overflow (signed pre hh) ≤ 23) ∧
        0 ≤ toInt overflow (signed gap mm) ∧ toInt overflow (signed gap mm) ≤ 59 := by
  have hrange : ∀ hour minute : Int,
      (!(hour < 0 || hour > 23 || minute < 0 || minute > 59)) = true ↔
        (0 ≤ hour ∧ hour ≤ 23) ∧ 0 ≤ minute ∧ minute ≤ 59 := by
    intro hour minute
    simp only [Bool.not_eq_true', Bool.or_eq_false_iff, decide_eq_false_iff_not]
    omega
  unfold isValidTime
  cases hscan : sscanfTime line with
  | none =>
    simp only [Bool.false_eq_true, false_iff]
    rintro ⟨pre, hh, gap, mm, htime, -⟩
    rw [(sscanfTime_eq_some_iff ..).mpr ⟨pre, hh, gap, mm, htime, rfl, rfl⟩] at hscan
    cases hscan
  | some hm =>
    simp only [hrange]
    constructor
    · intro hr
      obtain ⟨pre, hh, gap, mm, htime, h1, h2⟩ := (sscanfTime_eq_some_iff ..).mp hscan
      rw [h1, h2] at hr
      exact ⟨pre, hh, gap, mm, htime, hr⟩
    · rintro ⟨pre, hh, gap, mm, htime, hr⟩
      rw [(sscanfTime_eq_some_iff ..).mpr ⟨pre, hh, gap, mm, htime, rfl, rfl⟩] at hscan
      cases hscan
      exact hr

/-! ## The time -/

/-- The first match of the script, if only `pre` is before it. -/
theorem luaMatch_time {pre hh t : List Char} (hpre : Skipped pre) (hhh : Digits hh)
    (ht : t.takeWhile Char.isDigit ≠ []) :
    LuaPatterns.luaMatch timePattern (pre ++ (hh ++ ':' :: t)) =
      some [hh, t.takeWhile Char.isDigit] := by
  rw [timePattern, LuaPatterns.luaMatch_append_of_not hpre.isDigit_of_mem]
  refine LuaPatterns.luaMatch_of_matchHere
    (LuaPatterns.matchHere_plus_of_all hhh.2 hhh.1 (by rintro c ⟨⟩; decide) ?_)
  rw [LuaPatterns.matchHere, if_pos rfl]
  exact LuaPatterns.matchHere_plus_last ht

theorem decimal_le_append (v w : List Char) : decimal v ≤ decimal (v ++ w) := by
  calc decimal v ≤ 10 ^ w.length * decimal v :=
        Nat.le_mul_of_pos_left _ (Nat.pow_pos (by decide))
    _ ≤ 10 ^ w.length * decimal v + decimal w := Nat.le_add_right ..
    _ = Nat.ofDigitChars 10 w (decimal v) := Nat.ofDigitChars_eq_ofDigitChars_zero.symm
    _ = decimal (v ++ w) := (Nat.ofDigitChars_append 0).symm

/-- With nothing before the minutes the script has seen the same hour, and minutes
of which the daemon may have read a beginning. -/
theorem script_sees_time {s pre hh mm : List Char} (hscript : luaIsValidTime s = true)
    (htime : BeginsWithTime (output s) pre hh [] mm) : decimal hh ≤ 24 ∧ decimal mm ≤ 59 := by
  obtain ⟨⟨rest, hrest, heq⟩, hpre, -, hhh, hmm⟩ := htime
  obtain ⟨mm', c, hlast⟩ : ∃ mm' c, mm = mm' ++ [c] :=
    ⟨_, _, (List.dropLast_concat_getLast hmm.1).symm⟩
  have hc : c ≠ '\n' := by
    rintro rfl
    exact absurd (hmm.2 '\n' (by rw [hlast]; simp)) (by decide)
  have hprefix : (pre ++ (hh ++ ':' :: mm')) ++ [c] <+: output s := by
    refine ⟨rest, ?_⟩
    rw [heq, hlast]
    simp
  obtain ⟨more, hs⟩ := prefix_of_output hprefix hc
  have hs' : s = pre ++ (hh ++ ':' :: (mm ++ more)) := by
    rw [← hs, hlast]
    simp
  have hrun : (mm ++ more).takeWhile Char.isDigit = mm ++ more.takeWhile Char.isDigit :=
    List.takeWhile_append_of_pos hmm.2
  rw [luaIsValidTime, hs', luaMatch_time hpre hhh (by rw [hrun]; simp [hmm.1]), hrun] at hscript
  simp only [gt_iff_lt, Bool.not_eq_true', Bool.or_eq_false_iff, decide_eq_false_iff_not,
    not_lt] at hscript
  exact ⟨hscript.2, (decimal_le_append ..).trans hscript.1⟩

theorem toInt_of_small (overflow : Int → Int) {v : Int} (h : -60 < v ∧ v < 60) :
    toInt overflow v = v := by
  rw [toInt, if_pos (by omega)]

theorem isValidTime_output_iff (overflow : Int → Int) {s : List Char}
    (hscript : luaIsValidTime s = true) :
    isValidTime overflow (output s) = true ↔ TimeLine overflow s := by
  rw [isValidTime_iff]
  refine exists_congr fun pre => exists_congr fun hh => exists_congr fun gap =>
    exists_congr fun mm => and_congr_right fun htime => ?_
  by_cases hgap : gap = []
  · subst hgap
    obtain ⟨hhour, hminute⟩ := script_sees_time hscript htime
    have hmm : toInt overflow (signed [] mm) = decimal mm :=
      toInt_of_small overflow (v := decimal mm) (by omega)
    rw [hmm]
    by_cases hminus : '-' ∈ pre
    · have hhh : signed pre hh = -(decimal hh : Int) := if_pos hminus
      rw [hhh, toInt_of_small overflow (by omega)]
      simp only [hminus, true_and, ne_eq, not_true_eq_false, false_and, or_false, true_imp_iff]
      omega
    · have hhh : signed pre hh = decimal hh := if_neg hminus
      rw [hhh, toInt_of_small overflow (by omega)]
      simp only [hminus, true_and, ne_eq, not_true_eq_false, false_and, or_false, false_imp_iff,
        and_true]
      omega
  · simp only [hgap, false_and, ne_eq, not_false_eq_true, true_and, false_or]

/-! ## The host -/

theorem mem_digits_iff (c : Char) : c ∈ "0123456789".toList ↔ c.isDigit = true := by
  constructor
  · intro h
    have hall : ∀ c ∈ "0123456789".toList, c.isDigit = true := List.all_eq_true.mp (by decide)
    exact hall c h
  · intro h
    obtain ⟨h0, h9⟩ := toNat_of_isDigit h
    have hall : ∀ n < 10, Char.ofNat (48 + n) ∈ "0123456789".toList := by decide
    have hmem := hall (c.toNat - 48) (by omega)
    rwa [show 48 + (c.toNat - 48) = c.toNat by omega, Char.ofNat_toNat] at hmem

theorem foldr_rmatch_iff (l x : List Char) :
    (l.foldr (fun c r => RegularExpression.char c + r) 0).rmatch x = true ↔
      ∃ c ∈ l, x = [c] := by
  induction l with
  | nil => simp
  | cons c l ih =>
    rw [List.foldr_cons, RegularExpression.add_rmatch_iff, RegularExpression.char_rmatch_iff, ih]
    simp

theorem digit_rmatch_iff (x : List Char) :
    digit.rmatch x = true ↔ ∃ c, c.isDigit = true ∧ x = [c] := by
  simp only [digit, foldr_rmatch_iff, mem_digits_iff]

theorem oneToThreeDigits_rmatch_iff (x : List Char) :
    oneToThreeDigits.rmatch x = true ↔ Digits x ∧ x.length ≤ 3 := by
  simp only [oneToThreeDigits, RegularExpression.add_rmatch_iff, RegularExpression.mul_rmatch_iff,
    digit_rmatch_iff]
  constructor
  · rintro ((⟨c, hc, rfl⟩ | ⟨_, _, rfl, ⟨c, hc, rfl⟩, d, hd, rfl⟩) |
      ⟨_, _, rfl, ⟨_, _, rfl, ⟨c, hc, rfl⟩, d, hd, rfl⟩, e, he, rfl⟩)
    · exact ⟨⟨by simp, by simpa using hc⟩, by simp⟩
    · exact ⟨⟨by simp, by simp [hc, hd]⟩, by simp⟩
    · exact ⟨⟨by simp, by simp [hc, hd, he]⟩, by simp⟩
  · rintro ⟨⟨hne, hdigits⟩, hlen⟩
    match x, hne, hdigits, hlen with
    | [c], _, hd, _ => exact .inl (.inl ⟨c, hd c (by simp), rfl⟩)
    | [c, d], _, hd, _ =>
      exact .inl (.inr ⟨[c], [d], rfl, ⟨c, hd c (by simp), rfl⟩, d, hd d (by simp), rfl⟩)
    | [c, d, e], _, hd, _ =>
      have hcd : ∃ t u, [c, d] = t ++ u ∧ (∃ c, c.isDigit = true ∧ t = [c]) ∧
          ∃ c, c.isDigit = true ∧ u = [c] :=
        ⟨[c], [d], rfl, ⟨c, hd c (by simp), rfl⟩, d, hd d (by simp), rfl⟩
      exact .inr ⟨[c, d], [e], rfl, hcd, e, hd e (by simp), rfl⟩

theorem checkValidIp_iff (t : List Char) :
    checkValidIp t = true ↔ ∃ a b c d, (Digits a ∧ a.length ≤ 3) ∧ (Digits b ∧ b.length ≤ 3) ∧
      (Digits c ∧ c.length ≤ 3) ∧ (Digits d ∧ d.length ≤ 3) ∧ t = dotted a b c d [] := by
  have hpow : hostExpression = 1 * (oneToThreeDigits * .char '.') * (oneToThreeDigits * .char '.') *
      (oneToThreeDigits * .char '.') * oneToThreeDigits := rfl
  rw [checkValidIp, hpow]
  simp only [RegularExpression.mul_rmatch_iff, RegularExpression.one_rmatch_iff,
    RegularExpression.char_rmatch_iff, oneToThreeDigits_rmatch_iff]
  constructor
  · rintro ⟨_, d, rfl, ⟨_, _, rfl, ⟨_, _, rfl, ⟨_, _, rfl, rfl, a, _, rfl, ha, rfl⟩,
      b, _, rfl, hb, rfl⟩, c, _, rfl, hc, rfl⟩, hd⟩
    exact ⟨a, b, c, d, ha, hb, hc, hd, by simp [dotted]⟩
  · rintro ⟨a, b, c, d, ha, hb, hc, hd, rfl⟩
    exact ⟨_, d, by simp [dotted], ⟨_, _, rfl, ⟨_, _, rfl, ⟨_, _, rfl, rfl, a, _, rfl, ha, rfl⟩,
      b, _, rfl, hb, rfl⟩, c, _, rfl, hc, rfl⟩, hd⟩

/-- A number without leading zeros that is not too large. -/
theorem length_le_three {part : List Char} (hpart : Digits part) (h : badPart part = false) :
    part.length ≤ 3 := by
  obtain ⟨hne, hdigits⟩ := hpart
  simp only [badPart, gt_iff_lt, Bool.or_eq_false_iff, Bool.and_eq_false_iff,
    decide_eq_false_iff_not, not_lt] at h
  obtain ⟨hvalue, hzero⟩ := h
  cases part with
  | nil => exact absurd rfl hne
  | cons c part =>
    rcases hzero with hone | hhead
    · exact hone.trans (by decide)
    · have hc := hdigits c List.mem_cons_self
      have hne0 : c.toNat ≠ 48 := by
        intro heq
        refine hhead ?_
        rw [List.head?_cons, ← Char.ofNat_toNat c, heq]
      have hpos : 1 ≤ c.toNat - '0'.toNat := by
        have h0 := (toNat_of_isDigit hc).1
        have hval : '0'.toNat = 48 := rfl
        omega
      have hbound : 10 ^ part.length ≤ 255 := by
        calc 10 ^ part.length ≤ 10 ^ part.length * (c.toNat - '0'.toNat) :=
              Nat.le_mul_of_pos_right _ hpos
          _ ≤ 10 ^ part.length * (c.toNat - '0'.toNat) + decimal part := Nat.le_add_right ..
          _ = Nat.ofDigitChars 10 part (c.toNat - '0'.toNat) :=
              Nat.ofDigitChars_eq_ofDigitChars_zero.symm
          _ = decimal (c :: part) := by
              rw [decimal, Nat.ofDigitChars_cons, Nat.mul_zero, Nat.zero_add]
          _ ≤ 255 := hvalue
      by_contra hlong
      have hthree : 3 ≤ part.length := by
        rw [List.length_cons] at hlong
        omega
      have := Nat.pow_le_pow_right (show 0 < 10 by decide) hthree
      omega

theorem luaMatch_ip {a b c d rest : List Char} (ha : Digits a) (hb : Digits b) (hc : Digits c)
    (hd : Digits d) (hrest : NoDigitHead rest) :
    LuaPatterns.luaMatch ipPattern (dotted a b c d rest) = some [a, b, c, d] := by
  have hdot : ∀ t : List Char, ∀ c ∈ ('.' :: t).head?, c.isDigit = false := by
    rintro t c ⟨⟩
    decide
  have hlast : LuaPatterns.matchHere [.plus Char.isDigit] (d ++ rest) = some [d] :=
    LuaPatterns.matchHere_plus_of_all hd.2 hd.1 hrest rfl
  have hpart : ∀ {w t items caps}, Digits w → LuaPatterns.matchHere items t = some caps →
      LuaPatterns.matchHere (.plus Char.isDigit :: .char '.' :: items) (w ++ '.' :: t) =
        some (w :: caps) := by
    intro w t items caps hw ht
    refine LuaPatterns.matchHere_plus_of_all hw.2 hw.1 (hdot t) ?_
    rw [LuaPatterns.matchHere, if_pos rfl]
    exact ht
  exact LuaPatterns.luaMatch_of_matchHere (hpart ha (hpart hb (hpart hc hlast)))

/-- There is no end of a line in an address. -/
theorem takeWhile_dotted {a b c d rest : List Char} (ha : Digits a) (hb : Digits b) (hc : Digits c)
    (hd : Digits d) (hrest : rest = [] ∨ rest.head? = some '\n') :
    (dotted a b c d rest).takeWhile (· ≠ '\n') = dotted a b c d [] := by
  have hsplit : dotted a b c d rest = dotted a b c d [] ++ rest := by simp [dotted]
  rw [hsplit]
  refine LuaPatterns.takeWhile_run (fun e he => ?_) (fun e he => ?_)
  · have hdigit : ∀ {w : List Char}, Digits w → e ∈ w → decide (e ≠ '\n') = true := by
      rintro w hw hmem
      rw [decide_eq_true_eq]
      rintro rfl
      exact absurd (hw.2 _ hmem) (by decide)
    simp only [dotted, List.mem_append, List.mem_cons, List.append_nil] at he
    rcases he with he | rfl | he | rfl | he | rfl | he
    · exact hdigit ha he
    · decide
    · exact hdigit hb he
    · decide
    · exact hdigit hc he
    · decide
    · exact hdigit hd he
  · rcases hrest with rfl | hhead
    · cases he
    · rw [hhead] at he
      cases he
      decide

/-- An address has fifteen characters at most, so the sixteen that are kept are
enough. -/
theorem checkValidIp_hostParam (s : List Char) :
    checkValidIp (hostParam s) = true ↔ ∃ a b c d, (Digits a ∧ a.length ≤ 3) ∧
      (Digits b ∧ b.length ≤ 3) ∧ (Digits c ∧ c.length ≤ 3) ∧ (Digits d ∧ d.length ≤ 3) ∧
        s.takeWhile (· ≠ '\n') = dotted a b c d [] := by
  rw [hostParam_eq, checkValidIp_iff]
  refine exists_congr fun a => exists_congr fun b => exists_congr fun c => exists_congr fun d =>
    and_congr_right fun ha => and_congr_right fun hb => and_congr_right fun hc =>
      and_congr_right fun hd => ?_
  have hlen : (dotted a b c d []).length ≤ 15 := by
    have h := And.intro (And.intro ha.2 hb.2) (And.intro hc.2 hd.2)
    simp only [dotted, List.length_append, List.length_cons, List.length_nil]
    omega
  constructor
  · intro htake
    have hshort : (s.takeWhile (· ≠ '\n')).length ≤ 16 := by
      rw [← htake, List.length_take] at hlen
      omega
    rwa [List.take_of_length_le hshort] at htake
  · intro htake
    rw [htake]
    exact List.take_of_length_le (hlen.trans (by decide))

theorem checkValidIp_hostParam_iff {s : List Char} (hscript : luaIsValidIp s = true) :
    checkValidIp (hostParam s) = true ↔ HostLine s := by
  rw [checkValidIp_hostParam]
  constructor
  · rintro ⟨a, b, c, d, ⟨ha, -⟩, ⟨hb, -⟩, ⟨hc, -⟩, ⟨hd, -⟩, htake⟩
    refine ⟨a, b, c, d, s.dropWhile (· ≠ '\n'), ⟨ha, hb, hc, hd⟩, ?_, ?_⟩
    · calc s = s.takeWhile (· ≠ '\n') ++ s.dropWhile (· ≠ '\n') := by
            rw [List.takeWhile_append_dropWhile]
        _ = dotted a b c d (s.dropWhile (· ≠ '\n')) := by
            rw [htake]
            simp [dotted]
    · cases hdrop : s.dropWhile (· ≠ '\n') with
      | nil => exact .inl rfl
      | cons e t =>
        have hnot := LuaPatterns.head_dropWhile (fun c => decide (c ≠ '\n')) s e
          (by rw [hdrop]; rfl)
        right
        simpa using hnot
  · rintro ⟨a, b, c, d, rest, ⟨ha, hb, hc, hd⟩, rfl, hrest⟩
    have hnodigit : NoDigitHead rest := by
      rcases hrest with rfl | hhead
      · rintro e ⟨⟩
      · intro e he
        rw [hhead] at he
        cases he
        decide
    rw [luaIsValidIp, luaMatch_ip ha hb hc hd hnodigit] at hscript
    simp only [List.any_cons, List.any_nil, Bool.and_eq_true, Bool.not_eq_true',
      Bool.or_eq_false_iff] at hscript
    obtain ⟨-, hbada, hbadb, hbadc, hbadd, -⟩ := hscript
    have ha3 := length_le_three ha hbada
    have hb3 := length_le_three hb hbadb
    have hc3 := length_le_three hc hbadc
    have hd3 := length_le_three hd hbadd
    exact ⟨a, b, c, d, ⟨ha, ha3⟩, ⟨hb, hb3⟩, ⟨hc, hc3⟩, ⟨hd, hd3⟩,
      takeWhile_dotted ha hb hc hd hrest⟩

/-- **When the two validators agree**: on a text that the script accepts as a time
or as a host they do exactly if the line is a time or a host to the daemon. -/
theorem validators_agree_iff (overflow : Int → Int) (s : List Char) :
    ValidatorsAgree overflow s ↔
      (luaIsValidTime s = true → TimeLine overflow s) ∧ (luaIsValidIp s = true → HostLine s) := by
  unfold ValidatorsAgree
  exact and_congr (imp_congr_right fun h => isValidTime_output_iff overflow h)
    (imp_congr_right fun h => checkValidIp_hostParam_iff h)

/-- The script lets hour 24 pass, and a host with something behind it. -/
theorem hour_24_and_suffix_disagree :
    ¬ ValidatorsAgree id "24:00".toList ∧ ¬ ValidatorsAgree id "10.0.0.1x".toList := by
  constructor
  · rintro ⟨htime, -⟩
    exact absurd (htime (by decide)) (by decide)
  · rintro ⟨-, hhost⟩
    exact absurd (hhost (by decide)) (by decide)

end TfPackages.Restart
