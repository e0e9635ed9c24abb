import Mathlib.Data.BitVec

/-! # Words of one-bit flags

C programs keep sets of conditions in one integer, a bit each: `x & m` reads a
flag, `x |= m` raises it and `x &= ~m` drops it.  This module gives the three
operations on `BitVec w` and the rules by which they pass each other.  Two masks
that share no bit do not disturb one another; for concrete masks that side
condition is closed by `decide`, so `simp (disch := decide)` runs a whole chain
of updates.
-/
namespace Flags
variable {w : Nat}

/-- `x & m` read as a condition: some bit of `m` is up in `x`. -/
def has (x m : BitVec w) : Bool := x &&& m != 0#w

/-- `x |= m`. -/
def set (x m : BitVec w) : BitVec w := x ||| m

/-- `x &= ~m`. -/
def clear (x m : BitVec w) : BitVec w := x &&& ~~~m

theorem has_eq_false_iff {x m : BitVec w} : has x m = false ↔ x &&& m = 0#w := by
  simp [has]

@[simp] theorem has_zero (m : BitVec w) : has 0#w m = false := by
  simp [has]

/-- A flag is up in `x | y` when it is up in one of the two words. -/
theorem has_or (x y m : BitVec w) : has (x ||| y) m = (has x m || has y m) := by
  have key : (x ||| y) &&& m = 0#w ↔ x &&& m = 0#w ∧ y &&& m = 0#w := by
    rw [BitVec.and_comm, BitVec.and_or_distrib_left, BitVec.and_comm m x, BitVec.and_comm m y]
    exact BitVec.or_eq_zero_iff
  cases hx : has x m <;> cases hy : has y m <;>
    simp_all [has, bne]

theorem has_set (x m k : BitVec w) : has (set x m) k = (has x k || has m k) :=
  has_or x m k

/-- Raising a flag raises it. -/
theorem has_set_self {m : BitVec w} (hm : m ≠ 0#w) (x : BitVec w) : has (set x m) m = true := by
  rw [has_set]
  simp [has, hm]

/-- Raising a flag leaves the flags outside its mask alone. -/
theorem has_set_of_disjoint {m k : BitVec w} (h : m &&& k = 0#w) (x : BitVec w) :
    has (set x m) k = has x k := by
  rw [has_set, has_eq_false_iff.mpr h, Bool.or_false]

/-- A dropped flag is down. -/
@[simp] theorem has_clear_self (x m : BitVec w) : has (clear x m) m = false := by
  rw [has_eq_false_iff, clear, BitVec.and_assoc]
  simp

/-- Dropping a flag leaves the flags outside its mask alone. -/
theorem has_clear_of_disjoint {m k : BitVec w} (h : m &&& k = 0#w) (x : BitVec w) :
    has (clear x m) k = has x k := by
  have key : (x &&& ~~~m) &&& k = x &&& k := by
    apply BitVec.eq_of_getLsbD_eq
    intro i hi
    have hb := congrArg (fun v => v.getLsbD i) h
    simp only [BitVec.getLsbD_and, BitVec.getLsbD_zero] at hb
    simp only [BitVec.getLsbD_and, BitVec.getLsbD_not, hi, decide_true, Bool.true_and]
    cases hm : m.getLsbD i <;> cases hk : k.getLsbD i <;> simp_all
  rw [has, has, clear, key]

/-- Dropping a flag never raises one. -/
theorem has_of_has_clear {x m k : BitVec w} (h : has (clear x m) k = true) : has x k = true := by
  by_contra hx
  have hz : x &&& k = 0#w := has_eq_false_iff.mp (by simpa using hx)
  have : has (clear x m) k = false := by
    rw [has_eq_false_iff, clear, BitVec.and_assoc, BitVec.and_comm (~~~m) k,
      ← BitVec.and_assoc, hz, BitVec.zero_and]
  rw [this] at h
  cases h

end Flags
