import TfPackages.RestartAlarms
import TfPackages.RestartBounds
import TfPackages.RestartRequests

/-! # Every restart comes to its end

A restart takes five turns of the port at least: the request is taken, the deadline
is computed, the power is cut, the deadline is seen to have passed, the power comes
back.  In between `mainApp` reads other messages, the tests report their results and
`mainHandler` is called before the next tick is due.

`Fair` is what the daemon needs from the clock: the next tick becomes due again and
again, and the deadline of a port whose power is to be cut passes.  Then a restart
that has begun makes all the calls of `poe_Control` it still owes
(`Fair.completes`), whatever else happens.
-/
namespace TfPackages.Restart

/-- The daemon at time `t`, when `ev t` happens at time `t`. -/
abbrev stateAt (c : Config) (start : Nat) (ev : Nat → Event) (t : Nat) : Daemon :=
  Runs.states step (mainInit c start) ev t

/-- `mainHandler` is called with the readings `r` and finds the next tick due. -/
def TicksWith (d : Daemon) (e : Event) (r : Readings) : Prop := e = .tick r ∧ d.Due r

/-- What the daemon is promised: the clock goes on. -/
structure Fair (c : Config) (start : Nat) (ev : Nat → Event) : Prop where
  /-- There is always another tick. -/
  ticks : ∀ t, ∃ u, t ≤ u ∧ ∃ r, TicksWith (stateAt c start ev u) (ev u) r
  /-- The deadline of a restart passes, and a tick comes after it. -/
  passes : ∀ t (p : PortNum),
    ((stateAt c start ev t).rebootParam p.val).rebootState = .poeDown →
    ∃ u, t ≤ u ∧ ∃ r, TicksWith (stateAt c start ev u) (ev u) r ∧
      UInt32.ofNat (r.port p.val).check ≥
        ((stateAt c start ev t).rebootParam p.val).timeStartReboot

/-! ## The turns of a port that is being restarted -/

/-- The calls of `poe_Control` that a restart still has to make. -/
def RebootParam.owed (b : RebootParam) : List PoeControl :=
  match b.rebootState with
  | .idle => []
  | .init => [.poeDown, .poeUp]
  | .poeDown =>
    (if Flags.has b.rebootEvent rebootEventStart then [.poeDown] else []) ++ [.poeUp]
  | .poeUp => [.poeUp]

/-- The calls made for the port's restarts, with those still owed. -/
def View.committed (v : View) : List PoeControl := rebootControls v.calls ++ v.rebootParam.owed

/-- What is asked of a port for its turn to be the next step of its restart. -/
structure Restarting (v : View) : Prop where
  inv : PortInv v
  enabled : Flags.has v.portInfo.paramPort.errorCode errPortDisable = false
  busy : v.portInfo.state = .rebootState

/-- `v'` is later in the restart that `v` is in, at `s`. -/
structure Arrived (s : RebootState) (v v' : View) : Prop where
  busy : v'.portInfo.state = .rebootState
  state : v'.rebootParam.rebootState = s
  committed : v'.committed = v.committed

theorem Arrived.trans {s s' : RebootState} {v v' v'' : View} (h : Arrived s v v')
    (h' : Arrived s' v' v'') : Arrived s' v v'' :=
  ⟨h'.busy, h'.state, h'.committed.trans h.committed⟩

section Turns
variable {v : View} (h : Restarting v) (dp : DemonParam) (r : Reading)
include h

theorem Restarting.tick_eq : v.tick dp r =
    ⟨(rebootHandler v.portInfo v.rebootParam dp r).portInfo,
      (rebootHandler v.portInfo v.rebootParam dp r).rebootParam,
      v.calls ++ (rebootHandler v.portInfo v.rebootParam dp r).calls⟩ := by
  simp only [View.tick, handlePort, h.enabled, h.busy, Bool.false_eq_true, if_false]

/-- A manual request is taken. -/
theorem Restarting.tick_manual (hb : v.rebootParam.rebootState = .idle)
    (hm : Flags.has v.portInfo.event manualRestart = true) :
    (v.tick dp r).portInfo.state = .rebootState ∧
      (v.tick dp r).rebootParam.rebootState = .init ∧
      (v.tick dp r).committed = rebootControls v.calls ++ [.poeDown, .poeUp] := by
  have ha : Flags.has v.portInfo.event autoRestart = false := by
    by_contra hne
    exact h.inv.single ⟨by simpa using hne, hm⟩
  rw [h.tick_eq]
  simp [rebootHandler, hb, rebootIdle, ha, hm, manualResetHandler, h.busy, View.committed,
    RebootParam.owed]

/-- An automatic request is taken, unless there have been too many. -/
theorem Restarting.tick_auto (hb : v.rebootParam.rebootState = .idle)
    (ha : Flags.has v.portInfo.event autoRestart = true) :
    if v.portInfo.paramPort.resetCount ≥ dp.maxReset then
      (v.tick dp r).portInfo.state = .idleState ∧ (v.tick dp r).calls = v.calls
    else
      (v.tick dp r).portInfo.state = .rebootState ∧
        (v.tick dp r).rebootParam.rebootState = .init ∧
        (v.tick dp r).committed = rebootControls v.calls ++ [.poeDown, .poeUp] := by
  have hm : Flags.has v.portInfo.event manualRestart = false := by
    by_contra hne
    exact h.inv.single ⟨ha, by simpa using hne⟩
  rw [h.tick_eq]
  simp only [rebootHandler, hb, rebootIdle, ha, if_true, autoResetHandler]
  split <;>
    simp (disch := decide) [Flags.has_clear_of_disjoint, hm, h.busy, View.committed,
      RebootParam.owed]

/-- The deadline is computed. -/
theorem Restarting.tick_init (hb : v.rebootParam.rebootState = .init) :
    Arrived .poeDown v (v.tick dp r) := by
  have hstart : Flags.has (Flags.set v.rebootParam.rebootEvent rebootEventStart)
      rebootEventStart = true := Flags.has_set_self (by decide) _
  rw [h.tick_eq]
  simp only [rebootHandler, hb, rebootInit, List.append_nil]
  refine ⟨h.busy, rfl, ?_⟩
  simp only [View.committed, RebootParam.owed, hb, hstart, if_true]
  rfl

/-- The power is cut, and the state moves on when the deadline has passed. -/
theorem Restarting.tick_poeDown (hb : v.rebootParam.rebootState = .poeDown) :
    Arrived (if UInt32.ofNat r.check ≥ v.rebootParam.timeStartReboot then .poeUp else .poeDown)
        v (v.tick dp r) ∧
      (v.tick dp r).rebootParam.timeStartReboot = v.rebootParam.timeStartReboot := by
  have hstop : Flags.has v.rebootParam.rebootEvent rebootEventTimerStop = false := by
    by_contra hne
    have hup := h.inv.stop.mp (by simpa using hne)
    rw [hb] at hup
    cases hup
  obtain ⟨e, hstart, hstop', heq⟩ := rebootPoeDown_eq (i := v.portInfo) hb r
  rw [hstop, Bool.false_or] at hstop'
  rw [h.tick_eq]
  simp only [rebootHandler, hb]
  rw [heq]
  refine ⟨⟨h.busy, by simp [hstop'], ?_⟩, rfl⟩
  have howed : RebootParam.owed { v.rebootParam with
      rebootState := if Flags.has e rebootEventTimerStop then .poeUp else .poeDown
      rebootEvent := e } = [.poeUp] := by
    simp only [RebootParam.owed, hstart]
    cases Flags.has e rebootEventTimerStop <;> rfl
  -- the first call is made in this turn, or it has been made
  rw [View.committed, howed, View.committed, rebootControls_append, List.append_assoc]
  simp only [RebootParam.owed, hb]
  split <;> rfl

/-- The power comes back. -/
theorem Restarting.tick_poeUp (hb : v.rebootParam.rebootState = .poeUp) :
    (v.tick dp r).portInfo.state = .regularSate ∧
      rebootControls (v.tick dp r).calls = v.committed := by
  obtain ⟨e, c, -, -, heq⟩ := rebootPoeUp_eq (i := v.portInfo) (h.inv.stop.mpr hb) r
  rw [h.tick_eq]
  simp only [rebootHandler, hb]
  rw [heq]
  refine ⟨rfl, ?_⟩
  rw [rebootControls_append]
  simp only [View.committed, RebootParam.owed, hb]
  rfl

end Turns

/-! ## Along a run -/

/-- Nothing happens to the port but that its test results change. -/
structure Untouched (v v' : View) : Prop where
  state : v'.portInfo.state = v.portInfo.state
  event : v'.portInfo.event = v.portInfo.event
  resetCount : v'.portInfo.paramPort.resetCount = v.portInfo.paramPort.resetCount
  rebootParam : v'.rebootParam = v.rebootParam
  calls : v'.calls = v.calls

theorem Untouched.refl (v : View) : Untouched v v := ⟨rfl, rfl, rfl, rfl, rfl⟩

theorem Untouched.trans {v v' v'' : View} (h : Untouched v v') (h' : Untouched v' v'') :
    Untouched v v'' :=
  ⟨h'.state.trans h.state, h'.event.trans h.event, h'.resetCount.trans h.resetCount,
    h'.rebootParam.trans h.rebootParam, h'.calls.trans h.calls⟩

/-- A restart goes on with the ticks only. -/
theorem untouched_step {d : Daemon} (hn : Numbered d) {e : Event} (he : ∀ r, ¬ TicksWith d e r)
    {p : PortNum} (hbusy : (d.view p).portInfo.state = .rebootState) :
    Untouched (d.view p) ((step d e).view p) := by
  rw [view_step hn]
  cases e with
  | manual q =>
    dsimp only
    split
    · rw [requestReboot_of_rebootState hbusy]
      exact .refl _
    · exact .refl _
  | tick r =>
    dsimp only
    rw [if_neg fun hdue => he r ⟨rfl, hdue⟩]
    exact .refl _
  | results q code =>
    dsimp only
    split
    · exact ⟨rfl, rfl, rfl, rfl, rfl⟩
    · exact .refl _

/-- Without a turn of the ports their restarts stay as they are, and so does the schedule. -/
theorem restart_step {d : Daemon} (hn : Numbered d) {e : Event} (he : ∀ r, ¬ TicksWith d e r) :
    (step d e).demonParam = d.demonParam ∧
      ∀ p : PortNum, ((step d e).view p).rebootParam = (d.view p).rebootParam ∧
        ((step d e).view p).calls = (d.view p).calls := by
  refine ⟨?_, fun p => ?_⟩
  · cases e with
    | manual q => rfl
    | results q code => rfl
    | tick r => rw [step, mainHandler, if_neg fun hdue => he r ⟨rfl, hdue⟩]
  · rw [view_step hn]
    cases e with
    | manual q =>
      dsimp only
      split <;> exact ⟨rfl, rfl⟩
    | results q code =>
      dsimp only
      split <;> exact ⟨rfl, rfl⟩
    | tick r =>
      dsimp only
      rw [if_neg fun hdue => he r ⟨rfl, hdue⟩]
      exact ⟨rfl, rfl⟩

/-- A tick is a turn of every port. -/
theorem view_step_of_ticksWith {d : Daemon} (hn : Numbered d) {e : Event} {r : Readings}
    (he : TicksWith d e r) (p : PortNum) :
    (step d e).view p = (d.view p).tick d.demonParam.advance (r.port p.val) := by
  obtain ⟨rfl, hdue⟩ := he
  rw [view_step hn]
  exact if_pos hdue

/-- The restart stays where it is while the deadline has not passed. -/
theorem waits_step {d : Daemon} (hn : Numbered d) {e : Event} {p : PortNum}
    (h : Restarting (d.view p)) (hb : (d.view p).rebootParam.rebootState = .poeDown)
    (hno : ∀ r, TicksWith d e r →
      ¬ UInt32.ofNat (r.port p.val).check ≥ (d.view p).rebootParam.timeStartReboot) :
    Arrived .poeDown (d.view p) ((step d e).view p) ∧
      ((step d e).view p).rebootParam.timeStartReboot =
        (d.view p).rebootParam.timeStartReboot := by
  by_cases htick : ∃ r, TicksWith d e r
  · obtain ⟨r, hr⟩ := htick
    have hturn := h.tick_poeDown d.demonParam.advance (r.port p.val) hb
    rw [if_neg (hno r hr)] at hturn
    rwa [view_step_of_ticksWith hn hr]
  · have hsame := untouched_step hn (fun r hr => htick ⟨r, hr⟩) h.busy
    rw [hsame.rebootParam]
    refine ⟨⟨hsame.state.trans h.busy, by rw [hsame.rebootParam, hb], ?_⟩, rfl⟩
    rw [View.committed, hsame.calls, hsame.rebootParam]
    rfl

/-- A port that is not switched off at first never is. -/
theorem enabled_step {d : Daemon} (hn : Numbered d) (e : Event) {p : PortNum}
    (h : Flags.has (d.view p).portInfo.paramPort.errorCode errPortDisable = false) :
    Flags.has ((step d e).view p).portInfo.paramPort.errorCode errPortDisable = false := by
  rw [view_step hn]
  cases e with
  | manual q =>
    dsimp only
    split
    · unfold requestReboot
      split <;> exact h
    · exact h
  | tick r =>
    dsimp only
    split
    · exact (sameAlarms_handlePort _ _ _ _).enabled h
    · exact h
  | results q code =>
    dsimp only
    split
    · have hcode : Flags.has (code &&& testResultBits) errPortDisable = false := by
        rw [Flags.has_eq_false_iff, BitVec.and_assoc,
          show testResultBits &&& errPortDisable = 0#32 by decide, BitVec.and_zero]
      simp only [setResults, PortInfo.mapCode, Flags.has_or, hcode, Bool.or_false]
      rw [Flags.has_clear_of_disjoint (by decide), h]
    · exact h

/-- No port is switched off at the start. -/
theorem enabled_mainInit (c : Config) (start : Nat) (p : PortNum) :
    Flags.has ((mainInit c start).view p).portInfo.paramPort.errorCode errPortDisable = false := by
  have hno := (c.port p.val).no_results
  show Flags.has (c.port p.val).errorCode errPortDisable = false
  simp only [BitVec.and_or_distrib_left, BitVec.or_eq_zero_iff] at hno
  exact Flags.has_eq_false_iff.mpr hno.1.1.1.1

section Run
variable (c : Config) (start : Nat) (ev : Nat → Event)

theorem inv_stateAt (t : Nat) : Inv (stateAt c start ev t) := by
  induction t with
  | zero => exact inv_mainInit c start
  | succ t ih => exact inv_step _ _ ih

theorem enabled_stateAt (t : Nat) (p : PortNum) :
    Flags.has ((stateAt c start ev t).view p).portInfo.paramPort.errorCode errPortDisable =
      false := by
  induction t with
  | zero => exact enabled_mainInit c start p
  | succ t ih => exact enabled_step (inv_stateAt c start ev t).1 _ ih

theorem maxReset_stateAt (t : Nat) :
    (stateAt c start ev t).demonParam.maxReset = c.demon.maxReset := by
  induction t with
  | zero => rfl
  | succ t ih => exact (demonParam_step _ _).1.trans ih

theorem restarting_stateAt {t : Nat} {p : PortNum}
    (hbusy : ((stateAt c start ev t).view p).portInfo.state = .rebootState) :
    Restarting ((stateAt c start ev t).view p) :=
  ⟨(inv_stateAt c start ev t).2 p, enabled_stateAt c start ev t p, hbusy⟩

end Run

namespace Fair
variable {c : Config} {start : Nat} {ev : Nat → Event} (h : Fair c start ev) {t : Nat}
  {p : PortNum}
include h

/-- Nothing happens to the port until its next turn. -/
theorem next_turn (hbusy : ((stateAt c start ev t).view p).portInfo.state = .rebootState) :
    ∃ u r, t ≤ u ∧
      Untouched ((stateAt c start ev t).view p) ((stateAt c start ev u).view p) ∧
      (stateAt c start ev (u + 1)).view p =
        ((stateAt c start ev u).view p).tick (stateAt c start ev u).demonParam.advance r := by
  obtain ⟨u, htu, hsame, r, hr⟩ := Runs.wait
    (P := fun u => Untouched ((stateAt c start ev t).view p) ((stateAt c start ev u).view p))
    (Q := fun u => ∃ r, TicksWith (stateAt c start ev u) (ev u) r)
    (fun u hsame hno => hsame.trans (untouched_step (inv_stateAt c start ev u).1
      (fun r hr => hno ⟨r, hr⟩) (hsame.state.trans hbusy)))
    (.refl _) (h.ticks t)
  exact ⟨u, r.port p.val, htu, hsame, view_step_of_ticksWith (inv_stateAt c start ev u).1 hr p⟩

theorem leaves_init (hbusy : ((stateAt c start ev t).view p).portInfo.state = .rebootState)
    (hb : ((stateAt c start ev t).view p).rebootParam.rebootState = .init) :
    ∃ u, t < u ∧
      Arrived .poeDown ((stateAt c start ev t).view p) ((stateAt c start ev u).view p) := by
  obtain ⟨u, r, htu, hsame, hturn⟩ := h.next_turn hbusy
  have hrest := restarting_stateAt c start ev (hsame.state.trans hbusy)
  have harr := hrest.tick_init (stateAt c start ev u).demonParam.advance r
    (by rw [hsame.rebootParam, hb])
  rw [← hturn] at harr
  refine ⟨u + 1, by omega, harr.busy, harr.state, harr.committed.trans ?_⟩
  rw [View.committed, hsame.calls, hsame.rebootParam]
  rfl

theorem leaves_poeDown (hbusy : ((stateAt c start ev t).view p).portInfo.state = .rebootState)
    (hb : ((stateAt c start ev t).view p).rebootParam.rebootState = .poeDown) :
    ∃ u, t < u ∧
      Arrived .poeUp ((stateAt c start ev t).view p) ((stateAt c start ev u).view p) := by
  -- until the deadline has passed
  let waiting u :=
    Arrived .poeDown ((stateAt c start ev t).view p) ((stateAt c start ev u).view p) ∧
    ((stateAt c start ev u).view p).rebootParam.timeStartReboot =
      ((stateAt c start ev t).view p).rebootParam.timeStartReboot
  have hwaits : ∀ u, waiting u → ¬ (∃ r, TicksWith (stateAt c start ev u) (ev u) r ∧
      UInt32.ofNat (r.port p.val).check ≥
        ((stateAt c start ev t).view p).rebootParam.timeStartReboot) → waiting (u + 1) := by
    rintro u ⟨harr, hdeadline⟩ hno
    obtain ⟨harr', hdeadline'⟩ := waits_step (inv_stateAt c start ev u).1
      (restarting_stateAt c start ev harr.busy) harr.state
      (fun r hr hpast => hno ⟨r, hr, hdeadline ▸ hpast⟩)
    exact ⟨harr.trans harr', hdeadline'.trans hdeadline⟩
  obtain ⟨u, htu, ⟨harr, hdeadline⟩, r, hr, hpast⟩ :=
    Runs.wait hwaits ⟨⟨hbusy, hb, rfl⟩, rfl⟩ (h.passes t p hb)
  have hrest := restarting_stateAt c start ev harr.busy
  obtain ⟨harr', -⟩ := hrest.tick_poeDown (stateAt c start ev u).demonParam.advance
    (r.port p.val) harr.state
  rw [hdeadline, if_pos hpast, ← view_step_of_ticksWith (inv_stateAt c start ev u).1 hr] at harr'
  exact ⟨u + 1, by omega, harr.trans harr'⟩

theorem leaves_poeUp (hbusy : ((stateAt c start ev t).view p).portInfo.state = .rebootState)
    (hb : ((stateAt c start ev t).view p).rebootParam.rebootState = .poeUp) :
    ∃ u, t < u ∧ ((stateAt c start ev u).view p).portInfo.state = .regularSate ∧
      rebootControls ((stateAt c start ev u).view p).calls =
        ((stateAt c start ev t).view p).committed := by
  obtain ⟨u, r, htu, hsame, hturn⟩ := h.next_turn hbusy
  have hrest := restarting_stateAt c start ev (hsame.state.trans hbusy)
  obtain ⟨hstate, hcalls⟩ := hrest.tick_poeUp (stateAt c start ev u).demonParam.advance r
    (by rw [hsame.rebootParam, hb])
  rw [← hturn] at hstate hcalls
  refine ⟨u + 1, by omega, hstate, hcalls.trans ?_⟩
  rw [View.committed, hsame.calls, hsame.rebootParam]
  rfl

/-- **A restart that has begun makes all the calls it still owes.** -/
theorem completes (hb : ((stateAt c start ev t).view p).rebootParam.rebootState ≠ .idle) :
    ∃ u, t < u ∧ ((stateAt c start ev u).view p).portInfo.state = .regularSate ∧
      rebootControls ((stateAt c start ev u).view p).calls =
        ((stateAt c start ev t).view p).committed := by
  have hup : ∀ {t}, ((stateAt c start ev t).view p).portInfo.state = .rebootState →
      ((stateAt c start ev t).view p).rebootParam.rebootState = .poeDown →
      ∃ u, t < u ∧ ((stateAt c start ev u).view p).portInfo.state = .regularSate ∧
        rebootControls ((stateAt c start ev u).view p).calls =
          ((stateAt c start ev t).view p).committed := by
    intro t hbusy hdown
    obtain ⟨u, htu, harr⟩ := h.leaves_poeDown hbusy hdown
    obtain ⟨w, huw, hstate, hcalls⟩ := h.leaves_poeUp harr.busy harr.state
    exact ⟨w, by omega, hstate, hcalls.trans harr.committed⟩
  have hbusy := ((inv_stateAt c start ev t).2 p).busy hb
  cases hstate : ((stateAt c start ev t).view p).rebootParam.rebootState with
  | idle => exact absurd hstate hb
  | init =>
    obtain ⟨u, htu, harr⟩ := h.leaves_init hbusy hstate
    obtain ⟨w, huw, hregular, hcalls⟩ := hup harr.busy harr.state
    exact ⟨w, by omega, hregular, hcalls.trans harr.committed⟩
  | poeDown => exact hup hbusy hstate
  | poeUp => exact h.leaves_poeUp hbusy hstate

/-- A manual request that waits is taken, and the restart completes. -/
theorem completes_manual (hbusy : ((stateAt c start ev t).view p).portInfo.state = .rebootState)
    (hb : ((stateAt c start ev t).view p).rebootParam.rebootState = .idle)
    (hm : Flags.has ((stateAt c start ev t).view p).portInfo.event manualRestart = true) :
    ∃ u, t < u ∧ ((stateAt c start ev u).view p).portInfo.state = .regularSate ∧
      rebootControls ((stateAt c start ev u).view p).calls =
        rebootControls ((stateAt c start ev t).view p).calls ++ [.poeDown, .poeUp] := by
  obtain ⟨u, r, htu, hsame, hturn⟩ := h.next_turn hbusy
  have hrest := restarting_stateAt c start ev (hsame.state.trans hbusy)
  obtain ⟨-, hinit, hcommitted⟩ := hrest.tick_manual (stateAt c start ev u).demonParam.advance r
    (by rw [hsame.rebootParam, hb]) (by rw [hsame.event, hm])
  rw [← hturn] at hinit hcommitted
  obtain ⟨w, huw, hstate, hcalls⟩ := h.completes (t := u + 1) (p := p) (by rw [hinit]; decide)
  exact ⟨w, by omega, hstate, by rw [hcalls, hcommitted, hsame.calls]⟩

/-- An automatic request that waits is taken and the restart completes, or there
have been too many. -/
theorem completes_auto (hbusy : ((stateAt c start ev t).view p).portInfo.state = .rebootState)
    (hb : ((stateAt c start ev t).view p).rebootParam.rebootState = .idle)
    (ha : Flags.has ((stateAt c start ev t).view p).portInfo.event autoRestart = true) :
    ∃ u, t < u ∧
      if ((stateAt c start ev t).view p).portInfo.paramPort.resetCount ≥ c.demon.maxReset then
        ((stateAt c start ev u).view p).portInfo.state = .idleState ∧
          ((stateAt c start ev u).view p).calls = ((stateAt c start ev t).view p).calls
      else
        ((stateAt c start ev u).view p).portInfo.state = .regularSate ∧
          rebootControls ((stateAt c start ev u).view p).calls =
            rebootControls ((stateAt c start ev t).view p).calls ++ [.poeDown, .poeUp] := by
  obtain ⟨u, r, htu, hsame, hturn⟩ := h.next_turn hbusy
  have hrest := restarting_stateAt c start ev (hsame.state.trans hbusy)
  have htaken := hrest.tick_auto (stateAt c start ev u).demonParam.advance r
    (by rw [hsame.rebootParam, hb]) (by rw [hsame.event, ha])
  have hmax : (stateAt c start ev u).demonParam.advance.maxReset = c.demon.maxReset :=
    maxReset_stateAt c start ev u
  rw [← hturn, hmax, hsame.resetCount, hsame.calls] at htaken
  split at htaken
  · rename_i hmany
    exact ⟨u + 1, by omega, by rwa [if_pos hmany]⟩
  · rename_i hfew
    obtain ⟨-, hinit, hcommitted⟩ := htaken
    obtain ⟨w, huw, hstate, hcalls⟩ := h.completes (t := u + 1) (p := p) (by rw [hinit]; decide)
    refine ⟨w, by omega, ?_⟩
    rw [if_neg hfew]
    exact ⟨hstate, hcalls.trans hcommitted⟩

end Fair

/-- **Every manual request is carried out.**  Whatever the port was doing before,
even if it had been shut down: unless it is being restarted already, its power is
cut once and comes back, and the port is watched again. -/
theorem manual_restart_completes (c : Config) (start : Nat) (ev : Nat → Event)
    (h : Fair c start ev) (t : Nat) (p : PortNum) (he : ev t = .manual p)
    (hfree : ((stateAt c start ev t).portInfoArr p.val).state ≠ .rebootState) :
    ∃ u, t < u ∧ ((stateAt c start ev u).portInfoArr p.val).state = .regularSate ∧
      rebootControls ((stateAt c start ev u).view p).calls =
        rebootControls ((stateAt c start ev t).view p).calls ++ [.poeDown, .poeUp] := by
  have hinv := inv_stateAt c start ev t
  have hidle : ((stateAt c start ev t).view p).rebootParam.rebootState = .idle := by
    by_contra hne
    exact hfree ((hinv.2 p).busy hne)
  have hview : (stateAt c start ev (t + 1)).view p = { (stateAt c start ev t).view p with
      portInfo := requestReboot ((stateAt c start ev t).view p).portInfo } := by
    show (step (stateAt c start ev t) (ev t)).view p = _
    rw [he, view_step hinv.1]
    exact if_pos rfl
  have hevent : (requestReboot ((stateAt c start ev t).view p).portInfo).event = manualRestart := by
    unfold requestReboot
    rw [if_pos (show ((stateAt c start ev t).view p).portInfo.state ≠ .rebootState from hfree)]
  obtain ⟨u, htu, hstate, hcalls⟩ := h.completes_manual (t := t + 1) (p := p)
    (by rw [hview]; exact requestReboot_state _) (by rw [hview]; exact hidle)
    (by rw [hview, hevent]; decide)
  rw [hview] at hcalls
  exact ⟨u, by omega, hstate, hcalls⟩

/-- The automatic request that waits is one too many. -/
def View.Refused (maxReset : UInt8) (v : View) : Prop :=
  v.rebootParam.rebootState = .idle ∧ Flags.has v.portInfo.event autoRestart = true ∧
    v.portInfo.paramPort.resetCount ≥ maxReset

instance (maxReset : UInt8) (v : View) : Decidable (v.Refused maxReset) :=
  inferInstanceAs (Decidable (_ ∧ _ ∧ _))

/-- The calls of `poe_Control` that a port in `REBOOT_STATE` is about to make: both,
if the restart has not begun. -/
def View.due (v : View) : List PoeControl :=
  if v.rebootParam.rebootState = .idle then [.poeDown, .poeUp] else v.rebootParam.owed

/-- **No restart lasts for ever.**  A port in `REBOOT_STATE` makes the calls of
`poe_Control` that are due and is watched again; only an automatic restart that is
one too many shuts it down, with its power as it is. -/
theorem restart_ends (c : Config) (start : Nat) (ev : Nat → Event) (h : Fair c start ev)
    (t : Nat) (p : PortNum)
    (hbusy : ((stateAt c start ev t).portInfoArr p.val).state = .rebootState) :
    let v := (stateAt c start ev t).view p
    ∃ u, t < u ∧
      let v' := (stateAt c start ev u).view p
      if v.Refused c.demon.maxReset then
        v'.portInfo.state = .idleState ∧ v'.calls = v.calls
      else
        v'.portInfo.state = .regularSate ∧
          rebootControls v'.calls = rebootControls v.calls ++ v.due := by
  intro v
  have hinv : PortInv v := (inv_stateAt c start ev t).2 p
  by_cases hidle : v.rebootParam.rebootState = .idle
  · have hdue : v.due = [.poeDown, .poeUp] := if_pos hidle
    rw [hdue]
    rcases hinv.pending.mpr ⟨hbusy, hidle⟩ with ha | hm
    · have hrefused : v.Refused c.demon.maxReset ↔
          v.portInfo.paramPort.resetCount ≥ c.demon.maxReset :=
        ⟨fun h => h.2.2, fun h => ⟨hidle, ha, h⟩⟩
      obtain ⟨u, htu, hend⟩ := h.completes_auto hbusy hidle ha
      refine ⟨u, htu, ?_⟩
      simp only [hrefused]
      exact hend
    · have hnot : ¬ v.Refused c.demon.maxReset := fun h => hinv.single ⟨h.2.1, hm⟩
      obtain ⟨u, htu, hend⟩ := h.completes_manual hbusy hidle hm
      refine ⟨u, htu, ?_⟩
      rw [if_neg hnot]
      exact hend
  · have hdue : v.due = v.rebootParam.owed := if_neg hidle
    have hnot : ¬ v.Refused c.demon.maxReset := fun h => hidle h.1
    obtain ⟨u, htu, hend⟩ := h.completes hidle
    refine ⟨u, htu, ?_⟩
    rw [if_neg hnot, hdue]
    exact hend

/-! ## A run -/

/-- The fifth port. -/
def portFive : PortNum := ⟨5, by decide, by decide⟩

/-- A manual request for port 5 at first, and a tick every three seconds. -/
def threeSeconds : Nat → Event
  | 0 => .manual portFive
  | t + 1 => .tick ⟨3 * (t + 1), fun _ => ⟨3 * (t + 1), 3 * (t + 1), ""⟩⟩

theorem mainTime_threeSeconds (t : Nat) :
    (stateAt linkConfig 0 threeSeconds (t + 1)).demonParam =
      ⟨3, 10, 13, UInt32.ofNat (3 * (t + 1))⟩ := by
  induction t with
  | zero => rfl
  | succ t ih =>
    have hdue : (stateAt linkConfig 0 threeSeconds (t + 1)).Due
        ⟨3 * (t + 1), fun _ => ⟨3 * (t + 1), 3 * (t + 1), ""⟩⟩ := by
      rw [Daemon.Due, ih]
      exact UInt32.le_refl _
    show (step (stateAt linkConfig 0 threeSeconds (t + 1)) (threeSeconds (t + 1))).demonParam = _
    rw [threeSeconds, step, mainHandler, if_pos hdue, demonParam_turns]
    simp only [DemonParam.advance, ih]
    congr 1
    rw [Nat.mul_succ 3 (t + 1), UInt32.ofNat_add]
    rfl

theorem ticks_threeSeconds (t : Nat) :
    TicksWith (stateAt linkConfig 0 threeSeconds (t + 1)) (threeSeconds (t + 1))
      ⟨3 * (t + 1), fun _ => ⟨3 * (t + 1), 3 * (t + 1), ""⟩⟩ := by
  refine ⟨rfl, ?_⟩
  rw [Daemon.Due, mainTime_threeSeconds]
  exact UInt32.le_refl _

/-- The clock of the daemon shows its last second again and again. -/
theorem fair_threeSeconds : Fair linkConfig 0 threeSeconds where
  ticks t := ⟨t + 1, by omega, _, ticks_threeSeconds t⟩
  passes t p _ := by
    refine ⟨t * 2 ^ 32 + 0x55555554 + 1, by omega, _, ticks_threeSeconds _, ?_⟩
    have hlast : UInt32.ofNat (3 * (t * 2 ^ 32 + 0x55555554 + 1)) = UInt32.ofNat (2 ^ 32 - 1) := by
      apply UInt32.toNat_inj.mp
      rw [UInt32.toNat_ofNat', UInt32.toNat_ofNat']
      omega
    rw [hlast, ge_iff_le, UInt32.le_iff_toNat_le]
    have := ((stateAt linkConfig 0 threeSeconds t).rebootParam p.val).timeStartReboot.toNat_lt
    rw [UInt32.toNat_ofNat']
    omega

theorem manual_restart_completes_threeSeconds : ∃ u, 0 < u ∧
    ((stateAt linkConfig 0 threeSeconds u).portInfoArr portFive.val).state = .regularSate ∧
      rebootControls ((stateAt linkConfig 0 threeSeconds u).view portFive).calls =
        rebootControls ((stateAt linkConfig 0 threeSeconds 0).view portFive).calls ++
          [.poeDown, .poeUp] :=
  manual_restart_completes linkConfig 0 threeSeconds fair_threeSeconds 0 portFive rfl (by decide)

theorem restart_ends_threeSeconds : ∃ u, 1 < u ∧
    if ((stateAt linkConfig 0 threeSeconds 1).view portFive).Refused 13 then
      ((stateAt linkConfig 0 threeSeconds u).view portFive).portInfo.state = .idleState ∧
        ((stateAt linkConfig 0 threeSeconds u).view portFive).calls =
          ((stateAt linkConfig 0 threeSeconds 1).view portFive).calls
    else
      ((stateAt linkConfig 0 threeSeconds u).view portFive).portInfo.state = .regularSate ∧
        rebootControls ((stateAt linkConfig 0 threeSeconds u).view portFive).calls =
          rebootControls ((stateAt linkConfig 0 threeSeconds 1).view portFive).calls ++
            ((stateAt linkConfig 0 threeSeconds 1).view portFive).due :=
  restart_ends linkConfig 0 threeSeconds fair_threeSeconds 1 portFive (by decide)

end TfPackages.Restart
