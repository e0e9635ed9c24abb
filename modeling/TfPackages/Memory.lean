import Mathlib.Data.List.GetD
import Mathlib.Data.List.OfFn

/-! # Bytes at addresses

A piece of memory as a function from offsets to bytes, with writing and reading
of consecutive bytes.  Bounds of arrays are not part of it: whoever writes says
where an array ends.
-/

/-- Bytes at all offsets from the start of an array. -/
abbrev Memory := Nat → UInt8

namespace Memory
variable (m : Memory)

/-- The bytes `l` are written from `off` on. -/
def write (off : Nat) (l : List UInt8) : Memory :=
  fun i => if off ≤ i ∧ i < off + l.length then l.getD (i - off) 0 else m i

/-- The `len` bytes from `off` on. -/
def read (off len : Nat) : List UInt8 := (List.range len).map fun i => m (off + i)

@[simp] theorem length_read (off len : Nat) : (m.read off len).length = len := by
  simp [read]

theorem getElem_read {off len i : Nat} (h : i < (m.read off len).length) :
    (m.read off len)[i] = m (off + i) := by
  simp [read]

/-- A byte that is written. -/
theorem write_of_mem (off : Nat) {i : Nat} {l : List UInt8} (h : i < l.length) :
    m.write off l (off + i) = l[i] := by
  rw [write, if_pos ⟨by omega, by omega⟩, Nat.add_sub_cancel_left, List.getD_eq_getElem _ _ h]

/-- A byte that is not written. -/
theorem write_of_not_mem {off i : Nat} {l : List UInt8} (h : i < off ∨ off + l.length ≤ i) :
    m.write off l i = m i :=
  if_neg fun ⟨hle, hlt⟩ => by omega

/-- Bytes that are copied from another place. -/
theorem write_read (m' : Memory) (off addr : Nat) {len i : Nat} (h : i < len) :
    m.write off (m'.read addr len) (off + i) = m' (addr + i) := by
  rw [write_of_mem m off (by rwa [length_read]), getElem_read]

/-- Bytes inside what is written. -/
theorem read_write_of_le (off : Nat) {len k : Nat} {l : List UInt8} (h : k + len ≤ l.length) :
    (m.write off l).read (off + k) len = (l.drop k).take len := by
  apply List.ext_getElem
  · rw [length_read, List.length_take, List.length_drop]
    omega
  · intro i h1 h2
    rw [length_read] at h1
    rw [getElem_read, Nat.add_assoc, write_of_mem m off (by omega), List.getElem_take,
      List.getElem_drop]

/-- What has been written is there. -/
theorem read_write_self (off : Nat) (l : List UInt8) : (m.write off l).read off l.length = l := by
  have h := read_write_of_le m off (k := 0) (l := l) (Nat.le_of_eq (Nat.zero_add l.length))
  rwa [Nat.add_zero, List.drop_zero, List.take_length] at h

/-- Bytes outside what is written. -/
theorem read_write_of_disjoint {off off' len : Nat} {l : List UInt8}
    (h : off' + len ≤ off ∨ off + l.length ≤ off') :
    (m.write off l).read off' len = m.read off' len := by
  refine List.map_congr_left fun i hi => ?_
  rw [List.mem_range] at hi
  exact write_of_not_mem m (by omega)

end Memory
