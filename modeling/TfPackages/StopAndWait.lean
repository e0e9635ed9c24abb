import Mathlib.Data.List.Count
import Mathlib.Data.List.Nodup
import Mathlib.Algebra.Order.Group.Nat

/-! # Stop-and-wait senders

A sender with one queue and one message on the wire.  Messages are numbered in
the order in which they are queued; the queue is always the interval from `left`
to `queued`, and its first message is the only one ever transmitted.  A reply
either disposes of that message or rejects it; after a rejection the sender backs
off, and transmits the message again when it resumes.

`Step` is the sender's whole freedom: what it may transmit and when a message may
leave.  `Inv` follows from it alone — the log is in order, a message that is not
first has not been transmitted, and no message is transmitted more than
`limit + 1` times — so a concrete sender only has to be shown to take these
steps.
-/
namespace StopAndWait

/-- The state of a sender, and the log of its transmissions. -/
@[ext]
structure Sender where
  /-- Messages that have left the queue. -/
  left : Nat
  /-- Messages queued so far. -/
  queued : Nat
  /-- Rejections of the first message of the queue. -/
  retries : Nat
  /-- The sender waits before it transmits again. -/
  backoff : Bool
  /-- The messages transmitted, oldest first. -/
  log : List Nat

/-- What a sender may do. -/
inductive Step (limit : Nat) : Sender → Sender → Prop
  /-- A message queued on an empty queue is transmitted at once. -/
  | enqueueFirst {s : Sender} (hs : s.left = s.queued) :
      Step limit s { s with queued := s.queued + 1, log := s.log ++ [s.left] }
  /-- A message queued behind another one waits. -/
  | enqueue {s : Sender} (hs : s.left < s.queued) :
      Step limit s { s with queued := s.queued + 1 }
  /-- A reply disposes of the first message; the next one is transmitted. -/
  | complete {s : Sender} (hs : s.left < s.queued) (hb : s.backoff = false) :
      Step limit s { s with
        left := s.left + 1
        retries := 0
        log := s.log ++ if s.left + 1 < s.queued then [s.left + 1] else [] }
  /-- A reply rejects the first message, which stays. -/
  | reject {s : Sender} (hs : s.left < s.queued) (hb : s.backoff = false)
      (hr : s.retries < limit) :
      Step limit s { s with retries := s.retries + 1, backoff := true }
  /-- The sender resumes with the message that was rejected. -/
  | resume {s : Sender} (hs : s.left < s.queued) (hb : s.backoff = true) :
      Step limit s { s with backoff := false, log := s.log ++ [s.left] }
  /-- Nothing happens. -/
  | idle {s : Sender} : Step limit s s

/-- The sender's invariant. -/
structure Inv (limit : Nat) (s : Sender) : Prop where
  left_le : s.left ≤ s.queued
  idle : s.left = s.queued → s.backoff = false ∧ s.retries = 0
  retries_le : s.retries ≤ limit
  /-- Everything that has left was transmitted, and so was the first message. -/
  mem_log : ∀ i, i ∈ s.log ↔ i < s.left ∨ (i = s.left ∧ s.left < s.queued)
  sorted : s.log.Pairwise (· ≤ ·)
  count_le : ∀ i, s.log.count i ≤ limit + 1
  /-- Each rejection answered one transmission of the first message. -/
  count_left : s.left < s.queued →
    s.log.count s.left + (if s.backoff then 1 else 0) = s.retries + 1

/-- The sender with nothing queued. -/
def start : Sender := ⟨0, 0, 0, false, []⟩

theorem inv_start (limit : Nat) : Inv limit start := by
  constructor <;> simp [start]

section Append
variable {limit : Nat} {s : Sender}

/-- What has not been transmitted has a zero count. -/
theorem Inv.count_eq_zero (h : Inv limit s) {i : Nat}
    (hi : ¬ (i < s.left ∨ (i = s.left ∧ s.left < s.queued))) : s.log.count i = 0 :=
  List.count_eq_zero.mpr fun hm => hi ((h.mem_log i).mp hm)

/-- The log stays sorted when a message no earlier than the first is appended. -/
theorem Inv.sorted_append (h : Inv limit s) {i : Nat} (hi : s.left ≤ i) :
    (s.log ++ [i]).Pairwise (· ≤ ·) := by
  refine List.pairwise_append.mpr ⟨h.sorted, List.pairwise_singleton _ _, ?_⟩
  intro a ha b hb
  rw [List.mem_singleton] at hb
  rcases (h.mem_log a).mp ha with hlt | ⟨rfl, -⟩ <;> omega

/-- The counts stay bounded when one more transmission of `i` is allowed. -/
theorem Inv.count_append (h : Inv limit s) {i : Nat} (hi : s.log.count i ≤ limit) :
    ∀ j, (s.log ++ [i]).count j ≤ limit + 1 := by
  intro j
  rw [List.count_append]
  by_cases hj : i = j
  · subst hj
    rw [List.count_singleton_self]
    omega
  · rw [List.count_singleton, if_neg (by simpa using hj)]
    exact h.count_le j

end Append

/-- **Every step keeps the invariant.** -/
theorem inv_step {limit : Nat} {s t : Sender} (h : Inv limit s) (hst : Step limit s t) :
    Inv limit t := by
  cases hst with
  | enqueueFirst hs =>
    have hzero := h.count_eq_zero (i := s.left) (by omega)
    have hidle := h.idle hs
    refine ⟨by simp; omega, fun he => ?_, h.retries_le, fun i => ?_,
      h.sorted_append (Nat.le_refl _), h.count_append (by omega), fun _ => ?_⟩
    · simp only at he
      omega
    · rw [List.mem_append, List.mem_singleton, h.mem_log]
      simp only
      omega
    · simp [List.count_append, hzero, hidle.1, hidle.2]
  | enqueue hs =>
    refine ⟨Nat.le_succ_of_le h.left_le, fun he => ?_, h.retries_le, fun i => ?_, h.sorted,
      h.count_le, fun _ => h.count_left hs⟩
    · simp only at he
      omega
    · rw [h.mem_log]
      simp only
      omega
  | complete hs hb =>
    -- the next message, if there is one, is transmitted for the first time
    have hzero := h.count_eq_zero (i := s.left + 1) (by omega)
    have hmem : ∀ i, i ∈ s.log ↔ i < s.left + 1 := by
      intro i
      rw [h.mem_log]
      omega
    by_cases hn : s.left + 1 < s.queued
    · rw [if_pos hn]
      refine ⟨hs, fun he => ?_, Nat.zero_le _, fun i => ?_, h.sorted_append (Nat.le_succ _),
        h.count_append (by omega), fun _ => ?_⟩
      · simp only at he
        omega
      · rw [List.mem_append, List.mem_singleton, hmem]
        simp only
        omega
      · simp [List.count_append, hzero, hb]
    · rw [if_neg hn, List.append_nil]
      refine ⟨hs, fun _ => ⟨hb, rfl⟩, Nat.zero_le _, fun i => ?_, h.sorted, h.count_le,
        fun hlt => absurd hlt hn⟩
      rw [hmem]
      simp only
      omega
  | reject hs hb hr =>
    -- nothing is transmitted: the rejection stands for the transmission to come
    refine ⟨h.left_le, fun he => ?_, hr, h.mem_log, h.sorted, h.count_le, fun _ => ?_⟩
    · simp only at he
      omega
    · have := h.count_left hs
      simp only [hb, Bool.false_eq_true, if_false, if_true] at this ⊢
      omega
  | resume hs hb =>
    -- one more transmission of the same message, for one more rejection
    have hcount := h.count_left hs
    rw [hb, if_pos rfl] at hcount
    have hle := h.retries_le
    refine ⟨h.left_le, fun he => ?_, hle, fun i => ?_, h.sorted_append (Nat.le_refl _),
      h.count_append (by omega), fun _ => ?_⟩
    · simp only at he
      omega
    · rw [List.mem_append, List.mem_singleton, h.mem_log]
      simp only
      omega
    · simp only [List.count_append, List.count_singleton_self, Bool.false_eq_true, if_false]
      omega
  | idle => exact h

/-- **Messages are first transmitted in the order they were queued.** -/
theorem Inv.first_in_order {limit : Nat} {s : Sender} (h : Inv limit s) {i j : Nat} (hij : i < j)
    (hj : j ∈ s.log) : i ∈ s.log ∧ s.log.idxOf i < s.log.idxOf j := by
  have hi : i ∈ s.log := by
    rw [h.mem_log] at hj ⊢
    omega
  refine ⟨hi, ?_⟩
  by_contra hle
  have hji : s.log.idxOf j < s.log.idxOf i := by
    rcases Nat.lt_or_eq_of_le (Nat.le_of_not_lt hle) with hlt | heq
    · exact hlt
    · exact absurd (List.idxOf_inj hj |>.mp heq) (by omega)
  have hp := List.pairwise_iff_getElem.mp h.sorted _ _ (List.idxOf_lt_length_of_mem hj)
    (List.idxOf_lt_length_of_mem hi) hji
  rw [List.getElem_idxOf, List.getElem_idxOf] at hp
  omega

/-! ## Progress

Between the transmission of a message and its departure the sender goes through
at most `limit` rejections, each with its back-off.  `rank` counts these stages
over all messages; no step lowers it.  So a sender that never stays in a stage
for ever gets rid of every message. -/

/-- The stages behind the sender: `2 * (limit + 1)` for each message that has
left, and those of the first one. -/
def Sender.rank (limit : Nat) (s : Sender) : Nat :=
  s.left * (2 * (limit + 1)) + 2 * s.retries + if s.backoff then 0 else 1

/-- The sender is still in the stage of `s`: at most, messages were queued. -/
structure Stays (s t : Sender) : Prop where
  left : t.left = s.left
  retries : t.retries = s.retries
  backoff : t.backoff = s.backoff
  log : t.log = s.log
  queued : s.queued ≤ t.queued

theorem Stays.refl (s : Sender) : Stays s s := ⟨rfl, rfl, rfl, rfl, Nat.le_refl _⟩

theorem Stays.trans {s t u : Sender} (h : Stays s t) (h' : Stays t u) : Stays s u :=
  ⟨h'.left.trans h.left, h'.retries.trans h.retries, h'.backoff.trans h.backoff,
    h'.log.trans h.log, h.queued.trans h'.queued⟩

section Progress
variable {limit : Nat} {s t : Sender}

theorem Stays.rank_eq (h : Stays s t) : t.rank limit = s.rank limit := by
  unfold Sender.rank
  rw [h.left, h.retries, h.backoff]

/-- The stages of one message. -/
theorem Inv.rank_lt (h : Inv limit s) :
    s.rank limit < (s.left + 1) * (2 * (limit + 1)) := by
  have hle := h.retries_le
  rw [Sender.rank, Nat.add_one_mul s.left]
  split <;> omega

theorem Step.queued_le (hst : Step limit s t) : s.queued ≤ t.queued := by
  cases hst <;> simp

/-- **A step of a sender with something queued** stays in the stage or leaves it
for a later one. -/
theorem Step.stays_or_advances (hst : Step limit s t) (h : Inv limit s)
    (hs : s.left < s.queued) : Stays s t ∨ s.rank limit < t.rank limit := by
  cases hst with
  | enqueueFirst he => omega
  | enqueue => exact Or.inl ⟨rfl, rfl, rfl, rfl, Nat.le_succ _⟩
  | complete _ hb =>
    refine Or.inr (Nat.lt_of_lt_of_le h.rank_lt ?_)
    exact (Nat.le_add_right _ _).trans (Nat.le_add_right _ _)
  | reject _ hb =>
    right
    simp only [Sender.rank, hb]
    simp
    omega
  | resume _ hb =>
    right
    simp [Sender.rank, hb]
  | idle => exact Or.inl (Stays.refl s)

theorem Step.rank_le (hst : Step limit s t) (h : Inv limit s) : s.rank limit ≤ t.rank limit := by
  by_cases hs : s.left < s.queued
  · rcases hst.stays_or_advances h hs with hst | hlt
    · exact hst.rank_eq.ge
    · exact hlt.le
  · cases hst with
    | enqueueFirst => exact Nat.le_refl _
    | idle => exact Nat.le_refl _
    | enqueue hlt => exact absurd hlt hs
    | complete hlt => exact absurd hlt hs
    | reject hlt => exact absurd hlt hs
    | resume hlt => exact absurd hlt hs

end Progress

section InfiniteRun
variable {limit : Nat} {run : Nat → Sender} (hrun : ∀ t, Step limit (run t) (run (t + 1)))
  (hinv : ∀ t, Inv limit (run t))
include hrun

theorem queued_le_of_le {t u : Nat} (htu : t ≤ u) : (run t).queued ≤ (run u).queued := by
  induction u, htu using Nat.le_induction with
  | base => exact Nat.le_refl _
  | succ u _ ih => exact ih.trans (hrun u).queued_le

include hinv

theorem rank_le_of_le {t u : Nat} (htu : t ≤ u) : (run t).rank limit ≤ (run u).rank limit := by
  induction u, htu using Nat.le_induction with
  | base => exact Nat.le_refl _
  | succ u _ ih => exact ih.trans ((hrun u).rank_le (hinv u))

/-- A stage is only left for later ones. -/
theorem stays_or_advances_of_le {t u : Nat} (htu : t ≤ u) (hs : (run t).left < (run t).queued) :
    Stays (run t) (run u) ∨ (run t).rank limit < (run u).rank limit := by
  induction u, htu using Nat.le_induction with
  | base => exact Or.inl (Stays.refl _)
  | succ u _ ih =>
    rcases ih with hstays | hlt
    · have hs' : (run u).left < (run u).queued := by
        rw [hstays.left]
        exact hs.trans_le hstays.queued
      rcases (hrun u).stays_or_advances (hinv u) hs' with hst | hlt
      · exact Or.inl (hstays.trans hst)
      · exact Or.inr (hstays.rank_eq ▸ hlt)
    · exact Or.inr (hlt.trans_le ((hrun u).rank_le (hinv u)))

/-- The number of messages that have left only grows. -/
theorem left_le_of_le {t u : Nat} (htu : t ≤ u) : (run t).left ≤ (run u).left := by
  by_contra hlt
  have hu := (hinv u).rank_lt
  have ht : (run t).left * (2 * (limit + 1)) ≤ (run t).rank limit :=
    (Nat.le_add_right _ _).trans (Nat.le_add_right _ _)
  have hmul : ((run u).left + 1) * (2 * (limit + 1)) ≤ (run t).left * (2 * (limit + 1)) :=
    Nat.mul_le_mul_right _ (Nat.lt_of_not_le hlt)
  have := rank_le_of_le hrun hinv htu
  omega

/-- **A sender that never stays in a stage for ever gets rid of every message.** -/
theorem eventually_left
    (hmoves : ∀ t, (run t).left < (run t).queued → ∃ u, t ≤ u ∧ ¬ Stays (run t) (run u))
    (t i : Nat) (hi : i < (run t).queued) : ∃ u, t ≤ u ∧ i < (run u).left := by
  -- the stages up to the departure of message `i`, less those behind the sender
  induction hn : (i + 1) * (2 * (limit + 1)) - (run t).rank limit using Nat.strong_induction_on
    generalizing t with
  | _ n ih =>
    by_cases hleft : i < (run t).left
    · exact ⟨t, Nat.le_refl t, hleft⟩
    · obtain ⟨u, htu, hu⟩ := hmoves t (by omega)
      have hlt : (run t).rank limit < (run u).rank limit :=
        (stays_or_advances_of_le hrun hinv htu (by omega)).resolve_left hu
      have hrank := (hinv t).rank_lt
      have hmul : ((run t).left + 1) * (2 * (limit + 1)) ≤ (i + 1) * (2 * (limit + 1)) :=
        Nat.mul_le_mul_right _ (by omega)
      obtain ⟨v, huv, hv⟩ := ih _ (by omega) u (hi.trans_le (queued_le_of_le hrun htu)) rfl
      exact ⟨v, htu.trans huv, hv⟩

end InfiniteRun

end StopAndWait
