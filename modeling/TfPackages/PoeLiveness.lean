import TfPackages.PoeStopAndWait
import TfPackages.PoeTranslation

/-! # Every command is served

Commands keep being queued while others wait: the poll comes every two seconds,
requests on the bus at any time.  `Fair` is what the daemon needs from outside to
keep up: the recovery timer expires and the controller answers every frame, some
time, with anything, and runs never ahead.  Under it every command that is ever
queued is transmitted and leaves the queue — a command that the controller keeps
rejecting delays those behind it, but only `maxRetries` times.

The argument is `StopAndWait.eventually_left`; here it only remains to see that
the daemon stays in no stage for ever.
-/
namespace TfPackages.Poe

/-- The daemon at time `t`, when the event loop runs `ev t` at time `t`. -/
abbrev stateAt (ev : Nat → Event) (t : Nat) : State := Runs.states step initial ev t

/-- What the daemon is promised: the timer works, and every frame is answered. -/
structure Fair (ev : Nat → Event) : Prop where
  solicited : ∀ t, Solicited (stateAt ev t) (ev t)
  /-- An armed timer expires. -/
  expires : ∀ t, (stateAt ev t).mcuErrorTimeout = true → ∃ u, t ≤ u ∧ ev u = .expire
  /-- Every frame written is answered by twelve bytes. -/
  answers : ∀ t, ∃ u, t ≤ u ∧ 12 * (stateAt ev t).sent.length ≤ (stateAt ev u).received

namespace Fair
variable {ev : Nat → Event} (h : Fair ev)
include h

theorem wire (t : Nat) : Wire (stateAt ev t) :=
  Runs.states_of_meets (I := Wire) (C := Solicited) (fun _ _ hw hs => (wire_step hw hs).1)
    wire_initial h.solicited t

theorem sender_step (t : Nat) :
    StopAndWait.Step maxRetries (abs (stateAt ev t)) (abs (stateAt ev (t + 1))) :=
  (wire_step (h.wire t) (h.solicited t)).2

theorem inv (t : Nat) : StopAndWait.Inv maxRetries (abs (stateAt ev t)) := by
  induction t with
  | zero => exact StopAndWait.inv_start maxRetries
  | succ t ih => exact StopAndWait.inv_step ih (h.sender_step t)

/-- A back-off ends with the expiry of the timer. -/
theorem leaves_backoff {t : Nat} (ht : (stateAt ev t).mcuErrorTimeout = true) :
    ∃ u, t ≤ u ∧ ¬ StopAndWait.Stays (abs (stateAt ev t)) (abs (stateAt ev u)) := by
  obtain ⟨u, htu, hu⟩ := h.expires t ht
  refine ⟨u + 1, by omega, fun hstays => ?_⟩
  -- the timer is no longer pending after `u`, whether it was at `u` or not
  have hoff : (stateAt ev (u + 1)).mcuErrorTimeout = false := by
    show (step (stateAt ev u) (ev u)).mcuErrorTimeout = false
    rw [hu, step]
    split
    · rw [mcuClearTimeout, poeCmdNext_eq]
    · rename_i hne
      exact Bool.eq_false_of_not_eq_true hne
  have hback : (stateAt ev (u + 1)).mcuErrorTimeout = (stateAt ev t).mcuErrorTimeout :=
    hstays.backoff
  rw [hoff, ht] at hback
  cases hback

/-- A transmission ends with its reply. -/
theorem leaves_transmission {t : Nat} (ht : (stateAt ev t).mcuErrorTimeout = false)
    (hp : (stateAt ev t).cmdPending ≠ []) :
    ∃ u, t ≤ u ∧ ¬ StopAndWait.Stays (abs (stateAt ev t)) (abs (stateAt ev u)) := by
  obtain ⟨u, htu, hu⟩ := h.answers t
  refine ⟨u, htu, fun hstays => ?_⟩
  have hsent : (stateAt ev u).sent.length = (stateAt ev t).sent.length := by
    simpa [abs] using congrArg List.length hstays.log
  have hoff : (stateAt ev u).mcuErrorTimeout = false := hstays.backoff.trans ht
  -- the queue has not become empty, so the frame is still unanswered at `u`
  have hleft : (abs (stateAt ev u)).left < (abs (stateAt ev u)).queued := by
    have hlen := (h.wire t).len
    have hpos := List.length_pos_iff.mpr hp
    have hqueued := hstays.queued
    have hl := hstays.left
    simp only [abs] at hqueued hl ⊢
    omega
  have hpu : (stateAt ev u).cmdPending ≠ [] := by
    intro hnil
    simp [abs, hnil] at hleft
  obtain ⟨c, rest, hc⟩ := List.exists_cons_of_ne_nil hpu
  have hans := (h.wire u).answered
  simp only [awaiting, hoff, hc, Bool.false_eq_true, if_false, List.take_succ_cons, List.take_zero,
    List.length_singleton] at hans
  omega

/-- **The daemon stays in no stage for ever.** -/
theorem moves (t : Nat) (ht : (abs (stateAt ev t)).left < (abs (stateAt ev t)).queued) :
    ∃ u, t ≤ u ∧ ¬ StopAndWait.Stays (abs (stateAt ev t)) (abs (stateAt ev u)) := by
  by_cases hb : (stateAt ev t).mcuErrorTimeout = true
  · exact h.leaves_backoff hb
  · refine h.leaves_transmission (Bool.eq_false_of_not_eq_true hb) fun hnil => ?_
    simp [abs, hnil] at ht

end Fair

/-- The commands that wait are those that have not left. -/
theorem Wire.mem_ids_iff {s : State} (h : Wire s) (i : Nat) :
    i ∈ s.cmdPending.map Cmd.id ↔ (abs s).left ≤ i ∧ i < s.payloads.length := by
  have hlen := h.len
  rw [h.ids, List.mem_range'_1]
  simp only [abs]
  omega

theorem recorded_stateAt (ev : Nat → Event) (t : Nat) : Recorded (stateAt ev t) := by
  induction t with
  | zero => exact recorded_initial
  | succ t ih => exact recorded_step _ _ ih

/-- What was queued stays on record. -/
theorem payloads_step (s : State) (e : Event) : s.payloads <+: (step s e).payloads := by
  cases e with
  | queue payload =>
    rw [step, poeCmdQueue_eq]
    dsimp only
    split
    · rw [poeCmdNext_eq]
      exact List.prefix_append _ _
    · exact List.prefix_append _ _
  | expire =>
    rw [step]
    split
    · rw [mcuClearTimeout, poeCmdNext_eq]
    · exact List.prefix_rfl
  | receive bytes =>
    rw [step_receive]
    split
    · exact List.prefix_rfl
    · rw [poeCmdNext_eq]
      have hframe := (poeReplyConsume_frame
        { s with readBuf := s.readBuf ++ bytes, received := s.received + bytes.length }
        (firstReply (s.readBuf ++ bytes))).2.1
      exact hframe ▸ List.prefix_rfl

theorem payloads_stateAt (ev : Nat → Event) {t u : Nat} (htu : t ≤ u) :
    (stateAt ev t).payloads <+: (stateAt ev u).payloads := by
  induction u, htu using Nat.le_induction with
  | base => exact List.prefix_rfl
  | succ u _ ih => exact ih.trans (payloads_step _ _)

/-- A command has been written to the stream with the frame built for it. -/
def Transmitted (s : State) (i : Nat) (payload : List UInt8) : Prop :=
  ∃ t ∈ s.sent, t.id = i ∧ t.frame = buildFrame payload (UInt8.ofNat (i + 1))

/-- **Every command is served.**  Whatever is queued meanwhile and whatever the
controller answers, the command queued as number `i` is transmitted, and from
some time on it is no longer in the queue. -/
theorem served (ev : Nat → Event) (h : Fair ev) (t i : Nat) (payload : List UInt8)
    (hi : (stateAt ev t).payloads[i]? = some payload) :
    ∃ u, t ≤ u ∧ Transmitted (stateAt ev u) i payload ∧
      ∀ v, u ≤ v → i ∉ (stateAt ev v).cmdPending.map Cmd.id := by
  have hlt : i < (stateAt ev t).payloads.length := (List.getElem?_eq_some_iff.mp hi).1
  obtain ⟨u, htu, hu⟩ := StopAndWait.eventually_left h.sender_step h.inv h.moves t i hlt
  refine ⟨u, htu, ?_, fun v huv hmem => ?_⟩
  · -- what has left was transmitted, with the frame recorded for it
    obtain ⟨x, hx, hxi⟩ := List.mem_map.mp (((h.inv u).mem_log i).mpr (Or.inl hu))
    obtain ⟨p, hp, hframe⟩ := (recorded_stateAt ev u).sent x hx
    rw [hxi] at hp hframe
    obtain ⟨more, hmore⟩ := payloads_stateAt ev htu
    rw [← hmore, List.getElem?_append_left hlt, hi] at hp
    obtain rfl := Option.some.inj hp
    exact ⟨x, hx, hxi, hframe⟩
  · have hle := StopAndWait.left_le_of_le h.sender_step h.inv huv
    have := (((h.wire v).mem_ids_iff i).mp hmem).1
    omega

/-- Three commands.  The first one is rejected, the third is queued during the back-off, and
then each is answered with zeros; nothing happens afterwards. -/
def threeCommands : Nat → Event
  | 0 => .queue [0x20]
  | 1 => .queue [0x23]
  | 2 => .receive [0xfd, 0, 0, 0, 0, 0, 0, 0, 0, 0, 0, 0xfd]
  | 3 => .queue [0x30, 0x00, 0x01]
  | 4 => .expire
  | 5 => .receive (List.replicate 12 0)
  | 6 => .receive (List.replicate 12 0)
  | 7 => .receive (List.replicate 12 0)
  | _ => .expire

/-- What its states have to meet: the line until it is silent, and the back-off. -/
theorem states_threeCommands :
    (∀ t < 8, Solicited (stateAt threeCommands t) (threeCommands t)) ∧
      (∀ t < 9, 12 * (stateAt threeCommands t).sent.length ≤
        (stateAt threeCommands 8).received) ∧
      (stateAt threeCommands 8).mcuErrorTimeout = false ∧
      (stateAt threeCommands 4).mcuErrorTimeout = true ∧
      (stateAt threeCommands 4).cmdPending.map Cmd.id = [0, 1, 2] ∧
      (stateAt threeCommands 4).payloads[2]? = some [0x30, 0x00, 0x01] := by
  decide +kernel

theorem stateAt_threeCommands {t : Nat} (ht : 8 ≤ t) :
    stateAt threeCommands t = stateAt threeCommands 8 := by
  obtain ⟨-, -, hidle, -⟩ := states_threeCommands
  refine Runs.states_const (fun u hu => ?_) ht
  obtain ⟨k, rfl⟩ := Nat.exists_eq_add_of_le' hu
  show step (stateAt threeCommands 8) .expire = stateAt threeCommands 8
  rw [step, if_neg (by simp [hidle])]

theorem fair_threeCommands : Fair threeCommands where
  solicited t := by
    by_cases ht : t < 8
    · exact states_threeCommands.1 t ht
    · obtain ⟨k, rfl⟩ := Nat.exists_eq_add_of_le' (Nat.le_of_not_lt ht)
      trivial
  expires t _ := ⟨t + 8, by omega, rfl⟩
  answers t := by
    refine ⟨t + 8, by omega, ?_⟩
    rw [stateAt_threeCommands (show 8 ≤ t + 8 by omega)]
    by_cases ht : t < 8
    · exact states_threeCommands.2.1 t (by omega)
    · rw [stateAt_threeCommands (Nat.le_of_not_lt ht)]
      exact states_threeCommands.2.1 8 (by omega)

/-- The third command leaves the queue, although it waits behind two others and the timer
is armed. -/
theorem served_threeCommands :
    (stateAt threeCommands 4).mcuErrorTimeout = true ∧
      (stateAt threeCommands 4).cmdPending.map Cmd.id = [0, 1, 2] ∧
      ∃ u, 4 ≤ u ∧ Transmitted (stateAt threeCommands u) 2 [0x30, 0x00, 0x01] ∧
        ∀ v, u ≤ v → 2 ∉ (stateAt threeCommands v).cmdPending.map Cmd.id := by
  obtain ⟨-, -, -, harmed, hids, hqueued⟩ := states_threeCommands
  exact ⟨harmed, hids,
    served threeCommands fair_threeCommands 4 2 [0x30, 0x00, 0x01] hqueued⟩

end TfPackages.Poe
