import Mathlib.Data.BitVec
import Mathlib.Data.Nat.ModEq
import Mathlib.Algebra.BigOperators.Group.List.Basic

/-! # One's complement sums

Two words are added in one's complement by adding the carry out of the top bit at
the bottom again.  Modulo `2 ^ w - 1` this is plain addition, and a sum is zero only
if all words are.  `Folds n x` says this of a number `n` and a word `x`, and it is
all that is needed: `folds_sum` gives it for a sum of words, and `folds_twice` for a
number of two words whose halves are added twice.

A checksum is the complement of such a sum.  `sum_set_not` says that a list of words
with its checksum in it adds up to ones.
-/
namespace OnesComplement
variable {w : Nat}

/-- Addition with the carry added in. -/
def add (x y : BitVec w) : BitVec w :=
  if x.toNat + y.toNat < 2 ^ w then x + y else x + y + 1#w

/-- The sum of some words. -/
def sum (xs : List (BitVec w)) : BitVec w := xs.foldl add 0#w

/-- The word is what is left of the number when all carries are added in. -/
structure Folds (n : Nat) (x : BitVec w) : Prop where
  modEq : n ≡ x.toNat [MOD 2 ^ w - 1]
  zero_iff : x.toNat = 0 ↔ n = 0

/-! ## Sums of words -/

theorem Folds.of_toNat (x : BitVec w) : Folds x.toNat x := ⟨rfl, Iff.rfl⟩

theorem toNat_add (x y : BitVec w) :
    (add x y).toNat =
      if x.toNat + y.toNat < 2 ^ w then x.toNat + y.toNat
      else x.toNat + y.toNat - (2 ^ w - 1) := by
  have hx := x.isLt
  have hy := y.isLt
  unfold add
  split
  case isTrue hlt => rw [BitVec.toNat_add, Nat.mod_eq_of_lt hlt]
  case isFalse hge =>
    have hcarry : (x + y + 1#w).toNat = (x.toNat + y.toNat + 1) % 2 ^ w := by
      simp only [BitVec.toNat_add, BitVec.toNat_ofNat, Nat.add_mod_mod, Nat.mod_add_mod]
    rw [hcarry, Nat.mod_eq_sub_mod (by omega), Nat.mod_eq_of_lt (by omega)]
    omega

theorem Folds.add {m n : Nat} {x y : BitVec w} (hx : Folds m x) (hy : Folds n y) :
    Folds (m + n) (add x y) := by
  have hsum : m + n ≡ x.toNat + y.toNat [MOD 2 ^ w - 1] := hx.modEq.add hy.modEq
  have hxlt := x.isLt
  have hylt := y.isLt
  have hxzero := hx.zero_iff
  have hyzero := hy.zero_iff
  constructor
  · rw [toNat_add]
    split
    case isTrue => exact hsum
    case isFalse hge =>
      refine hsum.trans ?_
      have hcarry : x.toNat + y.toNat = x.toNat + y.toNat - (2 ^ w - 1) + (2 ^ w - 1) := by omega
      rw [hcarry, Nat.add_sub_cancel]
      exact Nat.add_modEq_right
  · rw [toNat_add]
    split <;> omega

/-- What is added up so far, and the words still to come. -/
theorem folds_foldl {n : Nat} {x : BitVec w} (hx : Folds n x) (xs : List (BitVec w)) :
    Folds (n + (xs.map BitVec.toNat).sum) (xs.foldl OnesComplement.add x) := by
  induction xs generalizing n x with
  | nil => exact hx
  | cons y ys ih =>
    rw [List.map_cons, List.sum_cons, ← Nat.add_assoc]
    exact ih (hx.add (.of_toNat y))

/-- **The sum of words folds the sum of their numbers.** -/
theorem folds_sum (xs : List (BitVec w)) : Folds (xs.map BitVec.toNat).sum (sum xs) := by
  have hzero : Folds 0 (0#w) := by
    simpa using Folds.of_toNat (0#w)
  simpa [sum] using folds_foldl hzero xs

/-- A number folds to ones exactly if it is a positive multiple of them. -/
theorem Folds.eq_allOnes_iff (hw : 0 < w) {n : Nat} {x : BitVec w} (h : Folds n x) :
    x = BitVec.allOnes w ↔ 0 < n ∧ 2 ^ w - 1 ∣ n := by
  have hlt := x.isLt
  have htwo : 2 ≤ 2 ^ w := Nat.le_self_pow (by omega) 2
  have hzero := h.zero_iff
  rw [← Nat.modEq_zero_iff_dvd, BitVec.toNat_eq, BitVec.toNat_allOnes]
  constructor
  · intro hx
    refine ⟨by omega, h.modEq.trans ?_⟩
    rw [hx]
    exact Nat.modEq_zero_iff_dvd.mpr (Nat.dvd_refl _)
  · rintro ⟨hpos, hmod⟩
    have hdvd : 2 ^ w - 1 ∣ x.toNat := Nat.modEq_zero_iff_dvd.mp (h.modEq.symm.trans hmod)
    have hle := Nat.le_of_dvd (by omega) hdvd
    omega

/-- When the words add up to ones. -/
theorem sum_eq_allOnes_iff (hw : 0 < w) {xs : List (BitVec w)} :
    sum xs = BitVec.allOnes w ↔
      0 < (xs.map BitVec.toNat).sum ∧ 2 ^ w - 1 ∣ (xs.map BitVec.toNat).sum :=
  (folds_sum xs).eq_allOnes_iff hw

/-! ## Folding a number -/

/-- Adding the part above a word to the word below changes nothing. -/
theorem Folds.of_halves {n : Nat} {x : BitVec w} (h : Folds (n / 2 ^ w + n % 2 ^ w) x) :
    Folds n x := by
  have hpos : 0 < 2 ^ w := Nat.two_pow_pos w
  have hsplit := Nat.div_add_mod n (2 ^ w)
  have hzero := h.zero_iff
  constructor
  · refine Nat.ModEq.trans ?_ h.modEq
    have hone : 2 ^ w ≡ 1 [MOD 2 ^ w - 1] := Nat.modEq_sub hpos
    calc n = 2 ^ w * (n / 2 ^ w) + n % 2 ^ w := hsplit.symm
      _ ≡ 1 * (n / 2 ^ w) + n % 2 ^ w [MOD 2 ^ w - 1] := (hone.mul_right _).add_right _
      _ = n / 2 ^ w + n % 2 ^ w := by rw [Nat.one_mul]
  · rw [hzero]
    constructor
    · intro h
      rw [← hsplit, Nat.eq_zero_of_add_eq_zero_right h, Nat.eq_zero_of_add_eq_zero_left h,
        Nat.mul_zero]
    · rintro rfl
      rw [Nat.zero_div, Nat.zero_mod]

/-- **Two folds are enough for a number of two words.**  The second one adds the
carry without taking it away at the top, where it is cut off. -/
theorem folds_twice {n m : Nat} (hn : n < 2 ^ w * 2 ^ w) (hm : m = n / 2 ^ w + n % 2 ^ w) :
    Folds n (BitVec.ofNat w (m + m / 2 ^ w)) := by
  have hpos : 0 < 2 ^ w := Nat.two_pow_pos w
  have hhigh : n / 2 ^ w < 2 ^ w := Nat.div_lt_of_lt_mul hn
  have hlow : n % 2 ^ w < 2 ^ w := Nat.mod_lt _ hpos
  have hsplit := Nat.div_add_mod m (2 ^ w)
  -- only a sum of two words without the highest one has a carry
  have hfits : m / 2 ^ w + m % 2 ^ w < 2 ^ w := by
    rcases Nat.lt_or_ge m (2 ^ w) with hlt | hge
    · rw [Nat.div_eq_of_lt hlt, Nat.mod_eq_of_lt hlt]
      omega
    · have hcarry : m / 2 ^ w = 1 := Nat.div_eq_of_lt_le (by omega) (by omega)
      rw [hcarry] at hsplit ⊢
      omega
  have hvalue : (BitVec.ofNat w (m + m / 2 ^ w)).toNat = m / 2 ^ w + m % 2 ^ w := by
    have hmove : m + m / 2 ^ w = m / 2 ^ w + m % 2 ^ w + 2 ^ w * (m / 2 ^ w) := by omega
    rw [BitVec.toNat_ofNat, hmove, Nat.add_mul_mod_self_left, Nat.mod_eq_of_lt hfits]
  have hfolds := Folds.of_toNat (BitVec.ofNat w (m + m / 2 ^ w))
  rw [hvalue] at hfolds
  have hhalves := hfolds.of_halves
  rw [hm] at hhalves ⊢
  exact hhalves.of_halves

/-! ## Checksums -/

/-- A word in the place of a zero adds its own value. -/
theorem sum_toNat_set {xs : List (BitVec w)} {i : Nat} (hi : xs[i]? = some 0#w)
    (x : BitVec w) :
    ((xs.set i x).map BitVec.toNat).sum = (xs.map BitVec.toNat).sum + x.toNat := by
  induction xs generalizing i with
  | nil => cases hi
  | cons y ys ih =>
    cases i with
    | zero =>
      cases hi
      simp [Nat.add_comm]
    | succ i =>
      rw [List.set_cons_succ, List.map_cons, List.sum_cons, ih hi, List.map_cons, List.sum_cons,
        Nat.add_assoc]

/-- **Words with their checksum in the place of a zero add up to ones.** -/
theorem sum_set_not (hw : 0 < w) {xs : List (BitVec w)} {i : Nat} (hi : xs[i]? = some 0#w)
    {x : BitVec w} (hx : Folds (xs.map BitVec.toNat).sum x) :
    sum (xs.set i (~~~x)) = BitVec.allOnes w := by
  have hlt := x.isLt
  have htwo : 2 ≤ 2 ^ w := Nat.le_self_pow (by omega) 2
  have hzero := hx.zero_iff
  rw [sum_eq_allOnes_iff hw, sum_toNat_set hi, BitVec.toNat_not]
  refine ⟨by omega, Nat.modEq_zero_iff_dvd.mp ?_⟩
  calc (xs.map BitVec.toNat).sum + (2 ^ w - 1 - x.toNat)
      ≡ x.toNat + (2 ^ w - 1 - x.toNat) [MOD 2 ^ w - 1] := hx.modEq.add_right _
    _ = 2 ^ w - 1 := by omega
    _ ≡ 0 [MOD 2 ^ w - 1] := Nat.modEq_zero_iff_dvd.mpr (Nat.dvd_refl _)

end OnesComplement
