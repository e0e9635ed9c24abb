import Mathlib.Data.Prod.Lex
import Mathlib.Algebra.Order.Group.Nat

/-! # Priority vectors of the spanning tree protocol

`mstpd` orders what bridges say about the root by priority vectors: six numbers,
most significant first, compared by `memcmp` on their big-endian bytes.  Trees
other than the CIST leave out the first two.  `betterorsamePriority` is the one
comparison everything else uses; `betterorsamePriority_iff` says that it is a
lexicographic order with the port identifiers as the last component.
-/
namespace TfPackages.Mstp

/-- `bridge_identifier_t`: the number its eight bytes spell, the priority in the
first two and the MAC address in the other six. -/
abbrev BridgeIdentifier := UInt64

/-- `port_identifier_t`: priority in the first four bits, the port number in the
other twelve. -/
abbrev PortIdentifier := UInt16

/-- `port_priority_vector_t` -/
@[ext]
structure PriorityVector where
  rRootID : BridgeIdentifier
  intRootPathCost : UInt32
  designatedBridgeID : BridgeIdentifier
  designatedPortID : PortIdentifier
  rootID : BridgeIdentifier
  extRootPathCost : UInt32
deriving DecidableEq, Repr

/-- `times_t` -/
@[ext]
structure Times where
  remainingHops : UInt8
  forwardDelay : UInt8
  maxAge : UInt8
  messageAge : UInt8
  helloTime : UInt8
deriving DecidableEq, Repr

/-- `betterorsamePriority`: a difference decides, in this order. -/
def betterorsamePriority (vec1 vec2 : PriorityVector) (pId1 pId2 : PortIdentifier)
    (cist : Bool) : Bool :=
  if cist ∧ vec1.rootID ≠ vec2.rootID then vec1.rootID < vec2.rootID
  else if cist ∧ vec1.extRootPathCost ≠ vec2.extRootPathCost then
    vec1.extRootPathCost < vec2.extRootPathCost
  else if vec1.rRootID ≠ vec2.rRootID then vec1.rRootID < vec2.rRootID
  else if vec1.intRootPathCost ≠ vec2.intRootPathCost then
    vec1.intRootPathCost < vec2.intRootPathCost
  else if vec1.designatedBridgeID ≠ vec2.designatedBridgeID then
    vec1.designatedBridgeID < vec2.designatedBridgeID
  else if vec1.designatedPortID ≠ vec2.designatedPortID then
    vec1.designatedPortID < vec2.designatedPortID
  else pId1 ≤ pId2

/-- `samePriorityAndTimers` -/
def samePriorityAndTimers (vec1 vec2 : PriorityVector) (time1 time2 : Times) (cist : Bool) : Bool :=
  (!cist || (time1.forwardDelay = time2.forwardDelay ∧ time1.maxAge = time2.maxAge ∧
    time1.messageAge = time2.messageAge ∧ time1.helloTime = time2.helloTime ∧
    vec1.rootID = vec2.rootID ∧ vec1.extRootPathCost = vec2.extRootPathCost)) &&
  (time1.remainingHops = time2.remainingHops ∧ vec1.rRootID = vec2.rRootID ∧
    vec1.intRootPathCost = vec2.intRootPathCost ∧
    vec1.designatedBridgeID = vec2.designatedBridgeID ∧
    vec1.designatedPortID = vec2.designatedPortID)

/-! ## The order -/

/-- The numbers of a vector, most significant first, and a port identifier. -/
abbrev Key := ℕ ×ₗ ℕ ×ₗ ℕ ×ₗ ℕ ×ₗ ℕ ×ₗ ℕ ×ₗ ℕ

/-- What is compared of a vector and a port identifier. -/
def key (cist : Bool) (v : PriorityVector) (pId : PortIdentifier) : Key :=
  toLex (if cist then v.rootID.toNat else 0,
    toLex (if cist then v.extRootPathCost.toNat else 0,
      toLex (v.rRootID.toNat,
        toLex (v.intRootPathCost.toNat,
          toLex (v.designatedBridgeID.toNat,
            toLex (v.designatedPortID.toNat, pId.toNat))))))

/-- One step of the comparison, on the first component. -/
theorem toLex_le_iff {α β : Type} [LinearOrder α] [LE β] [DecidableLE β] (a b : α) (x y : β) :
    toLex (a, x) ≤ toLex (b, y) ↔ if a ≠ b then a < b else x ≤ y := by
  rw [Prod.Lex.toLex_le_toLex]
  by_cases h : a = b
  · simp [h]
  · simp [h]

/-- **`betterorsamePriority` is the lexicographic order.** -/
theorem betterorsamePriority_iff (vec1 vec2 : PriorityVector) (pId1 pId2 : PortIdentifier)
    (cist : Bool) :
    betterorsamePriority vec1 vec2 pId1 pId2 cist = true ↔
      key cist vec1 pId1 ≤ key cist vec2 pId2 := by
  unfold betterorsamePriority key
  simp only [toLex_le_iff]
  cases cist <;>
    simp only [Bool.false_eq_true, false_and, if_false, true_and, if_true, ne_eq,
      not_true_eq_false, ← UInt64.toNat_inj, ← UInt32.toNat_inj, ← UInt16.toNat_inj,
      UInt64.lt_iff_toNat_lt, UInt32.lt_iff_toNat_lt, UInt16.lt_iff_toNat_lt,
      UInt16.le_iff_toNat_le]
  all_goals
    split_ifs <;> simp_all

/-- Vectors with the same numbers are the same. -/
theorem key_inj {v w : PriorityVector} {p q : PortIdentifier}
    (h : key true v p = key true w q) : v = w ∧ p = q := by
  simp only [key, toLex_inj, Prod.mk.injEq, if_true, UInt64.toNat_inj, UInt32.toNat_inj,
    UInt16.toNat_inj] at h
  obtain ⟨h1, h2, h3, h4, h5, h6, h7⟩ := h
  exact ⟨PriorityVector.ext h3 h4 h5 h6 h1 h2, h7⟩

end TfPackages.Mstp
