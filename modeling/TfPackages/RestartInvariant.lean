import TfPackages.RestartDaemon
import Mathlib.Data.List.Induction

/-! # No port is stranded

`PortInv` ties a port's two state variables, its two words of flags and the
parity of its `poe_Control` calls together.  Every handler keeps it
(`portInv_tick`), a manual request and a change of the test results keep it
too, and `view_step` carries it over whole runs of the daemon.  Power that was
cut is therefore always on its way back: the port is in `REBOOT_STATE`, past
`REBOOT_STATE_INIT`, and `rebootHandler` is what the next tick calls for it.
-/
namespace TfPackages.Restart

/-! ## Alternating calls -/

/-- The controls alternate, starting with `POE_DOWN`. -/
def Alternates (l : List PoeControl) : Prop :=
  ∀ i c, l[i]? = some c → c = if i % 2 = 0 then .poeDown else .poeUp

theorem alternates_nil : Alternates [] := by
  intro i c h
  simp at h

theorem alternates_append_iff {l : List PoeControl} {c : PoeControl} :
    Alternates (l ++ [c]) ↔
      Alternates l ∧ c = if l.length % 2 = 0 then .poeDown else .poeUp := by
  constructor
  · intro h
    refine ⟨fun i d hi => h i d ?_, h l.length c (by simp)⟩
    rw [List.getElem?_append_left (List.getElem?_eq_some_iff.mp hi).1, hi]
  · rintro ⟨hl, hc⟩ i d hi
    rw [List.getElem?_append] at hi
    split at hi
    · exact hl i d hi
    · obtain ⟨hlt, hd⟩ := List.getElem?_eq_some_iff.mp hi
      simp only [List.length_singleton] at hlt
      simp only [List.getElem_singleton] at hd
      have hi' : i = l.length := by omega
      rw [← hd, hc, hi']

/-- In an alternating list the two controls are as frequent as they can be. -/
theorem Alternates.count {l : List PoeControl} (h : Alternates l) :
    l.count .poeDown = (l.length + 1) / 2 ∧ l.count .poeUp = l.length / 2 := by
  induction l using List.reverseRecOn with
  | nil => exact ⟨rfl, rfl⟩
  | append_singleton l c ih =>
    obtain ⟨hl, hc⟩ := alternates_append_iff.mp h
    obtain ⟨hdown, hup⟩ := ih hl
    rw [List.count_append, List.count_append, hdown, hup, List.length_append,
      List.length_singleton, hc]
    split
    · simp only [List.count_singleton]
      constructor <;> simp <;> omega
    · simp only [List.count_singleton]
      constructor <;> simp <;> omega

/-! ## The invariant of one port -/

/-- The calls of `poe_Control` made by `rebootHandler`. -/
def rebootCalls (calls : List PoeCall) : List PoeCall :=
  calls.filter fun c => c.caller = .rebootHandler

/-- The controls passed in these calls. -/
def rebootControls (calls : List PoeCall) : List PoeControl :=
  (rebootCalls calls).map PoeCall.control

theorem rebootCalls_append (l k : List PoeCall) :
    rebootCalls (l ++ k) = rebootCalls l ++ rebootCalls k := by
  simp [rebootCalls]

theorem rebootControls_append (l k : List PoeCall) :
    rebootControls (l ++ k) = rebootControls l ++ rebootControls k := by
  simp [rebootControls, rebootCalls_append]

/-- The port's power is cut by a restart. -/
def PoweredOff (b : RebootParam) : Prop :=
  b.rebootState = .poeUp ∨
    (b.rebootState = .poeDown ∧ Flags.has b.rebootEvent rebootEventStart = false)

instance (b : RebootParam) : Decidable (PoweredOff b) :=
  inferInstanceAs (Decidable (_ ∨ _))

/-- States, flags and calls of a port fit together. -/
structure PortInv (v : View) : Prop where
  /-- A restart under way keeps the port in `REBOOT_STATE`. -/
  busy : v.rebootParam.rebootState ≠ .idle → v.portInfo.state = .rebootState
  /-- A request is pending exactly in `REBOOT_STATE` before the restart begins. -/
  pending : Flags.has v.portInfo.event autoRestart = true ∨
      Flags.has v.portInfo.event manualRestart = true ↔
    v.portInfo.state = .rebootState ∧ v.rebootParam.rebootState = .idle
  single : ¬ (Flags.has v.portInfo.event autoRestart = true ∧
    Flags.has v.portInfo.event manualRestart = true)
  start : Flags.has v.rebootParam.rebootEvent rebootEventStart = true →
    v.rebootParam.rebootState = .poeDown
  stop : Flags.has v.rebootParam.rebootEvent rebootEventTimerStop = true ↔
    v.rebootParam.rebootState = .poeUp
  alternates : Alternates (rebootControls v.calls)
  parity : (rebootControls v.calls).length % 2 = if PoweredOff v.rebootParam then 1 else 0

theorem portInv_mainInit (c : Config) (now : Nat) (p : PortNum) :
    PortInv ((mainInit c now).view p) := by
  have hview : (mainInit c now).view p = ⟨(c.port p.val).toInfo p.val, rebootParamInit, []⟩ := rfl
  rw [hview]
  refine ⟨fun h => absurd rfl h, ?_, ?_, ?_, ?_, alternates_nil, ?_⟩
  · simp [PortConfig.toInfo, idleEvent]
  · simp [PortConfig.toInfo, idleEvent]
  · simp [rebootParamInit, rebootEventIdle]
  · simp [rebootParamInit, rebootEventIdle]
  · rfl

section Handlers
variable {i : PortInfo} {b : RebootParam} {calls : List PoeCall}

/-- Outside `REBOOT_STATE_POE_DOWN`, `REBOOT_EVENT_START` is down. -/
theorem PortInv.start_eq_false (h : PortInv ⟨i, b, calls⟩) (hb : b.rebootState ≠ .poeDown) :
    Flags.has b.rebootEvent rebootEventStart = false := by
  by_contra hs
  exact hb (h.start (by simpa using hs))

/-- `REBOOT_STATE_IDLE`: the one pending request is taken; either the restart
begins or the port is shut down. -/
theorem portInv_rebootIdle (h : PortInv ⟨i, b, calls⟩) (hi : i.state = .rebootState)
    (hb : b.rebootState = .idle) (dp : DemonParam) (r : Reading) :
    PortInv ⟨(rebootIdle i b dp r).portInfo, (rebootIdle i b dp r).rebootParam,
      calls ++ (rebootIdle i b dp r).calls⟩ := by
  have hpend := h.pending.mpr ⟨hi, hb⟩
  have hsingle := h.single
  have hstart := h.start_eq_false (by simp [hb])
  have hstop : Flags.has b.rebootEvent rebootEventTimerStop = false := by
    simpa [hb] using h.stop
  have hpar : (rebootControls calls).length % 2 = 0 := by
    simpa [PoweredOff, hb] using h.parity
  cases ha : Flags.has i.event autoRestart with
  | true =>
    have hm : Flags.has i.event manualRestart = false := by
      simpa [ha] using hsingle
    simp only [rebootIdle, ha, if_true, autoResetHandler]
    split <;>
      simp (disch := decide) only [Flags.has_clear_of_disjoint, hm, Bool.false_eq_true, if_false,
        List.append_nil]
    -- the port is shut down, or the restart begins
    · refine ⟨by simp, ?_, ?_, by simp [hstart], by simp [hstop], h.alternates, ?_⟩
      · simp (disch := decide) [Flags.has_clear_of_disjoint, hm]
      · simp
      · simpa [PoweredOff] using hpar
    · refine ⟨by simp [hi], ?_, ?_, by simp [hstart], by simp [hstop], h.alternates, ?_⟩
      · simp (disch := decide) [Flags.has_clear_of_disjoint, hm]
      · simp
      · simpa [PoweredOff] using hpar
  | false =>
    have hm : Flags.has i.event manualRestart = true := by
      simpa [ha] using hpend
    simp only [rebootIdle, ha, Bool.false_eq_true, if_false, hm, if_true, manualResetHandler,
      List.append_nil]
    refine ⟨by simp [hi], ?_, ?_, by simp [hstart], by simp [hstop], h.alternates, ?_⟩
    · simp (disch := decide) [Flags.has_clear_of_disjoint, ha]
    · simp
    · simpa [PoweredOff] using hpar

/-- `REBOOT_STATE_INIT`: `REBOOT_EVENT_START` is raised. -/
theorem portInv_rebootInit (h : PortInv ⟨i, b, calls⟩) (hb : b.rebootState = .init)
    (r : Reading) :
    PortInv ⟨(rebootInit i b r).portInfo, (rebootInit i b r).rebootParam,
      calls ++ (rebootInit i b r).calls⟩ := by
  have hi : i.state = .rebootState := h.busy (by simp [hb])
  have hpend := h.pending
  have hstop : Flags.has b.rebootEvent rebootEventTimerStop = false := by
    simpa [hb] using h.stop
  have hpar : (rebootControls calls).length % 2 = 0 := by
    simpa [PoweredOff, hb] using h.parity
  simp only [hb] at hpend
  simp only [rebootInit, List.append_nil]
  refine ⟨fun _ => hi, by simpa using hpend, h.single, fun _ => rfl, ?_, h.alternates, ?_⟩
  · simp (disch := decide) [Flags.has_set_of_disjoint, hstop]
  · simp only [hpar, PoweredOff, Flags.has_set_self (show rebootEventStart ≠ 0#32 by decide)]
    simp

/-- What `REBOOT_STATE_POE_DOWN` leaves: `REBOOT_EVENT_START` is down, and
`REBOOT_EVENT_TIMER_STOP` is up once the deadline has been seen. -/
theorem rebootPoeDown_eq (hb : b.rebootState = .poeDown) (r : Reading) :
    ∃ e, Flags.has e rebootEventStart = false ∧
      Flags.has e rebootEventTimerStop =
        (Flags.has b.rebootEvent rebootEventTimerStop ||
          decide (UInt32.ofNat r.check ≥ b.timeStartReboot)) ∧
      rebootPoeDown i b r =
        ⟨i, { b with
            rebootState := if Flags.has e rebootEventTimerStop then .poeUp else .poeDown
            rebootEvent := e },
          if Flags.has b.rebootEvent rebootEventStart then
            [⟨i.paramPort.portNum, .poeDown, .rebootHandler, r.now⟩] else []⟩ := by
  have hcheck : Flags.has (checkTimePoeUP b.timeStartReboot r.check) rebootEventStart = false ∧
      Flags.has (checkTimePoeUP b.timeStartReboot r.check) rebootEventTimerStop =
        decide (UInt32.ofNat r.check ≥ b.timeStartReboot) := by
    unfold checkTimePoeUP
    split
    · rename_i hge
      rw [decide_eq_true hge]
      decide
    · rename_i hge
      rw [decide_eq_false hge]
      decide
  refine ⟨(rebootPoeDown i b r).rebootParam.rebootEvent, ?_, ?_, ?_⟩
  · simp only [rebootPoeDown]
    rw [Flags.has_set, hcheck.1, Bool.or_false]
    split
    · exact Flags.has_clear_self _ _
    · exact (Bool.not_eq_true _).mp ‹_›
  · simp only [rebootPoeDown]
    rw [Flags.has_set, hcheck.2]
    split
    · rw [Flags.has_clear_of_disjoint (by decide)]
    · rfl
  · simp only [rebootPoeDown, hb]

/-- `REBOOT_STATE_POE_DOWN`: the power is cut on the first call, and the state
moves on once the deadline is reached. -/
theorem portInv_rebootPoeDown (h : PortInv ⟨i, b, calls⟩) (hb : b.rebootState = .poeDown)
    (r : Reading) :
    PortInv ⟨(rebootPoeDown i b r).portInfo, (rebootPoeDown i b r).rebootParam,
      calls ++ (rebootPoeDown i b r).calls⟩ := by
  have hi : i.state = .rebootState := h.busy (by simp [hb])
  have hpend : ¬ (Flags.has i.event autoRestart = true ∨ Flags.has i.event manualRestart = true) :=
    fun hp => by simpa [hb] using (h.pending.mp hp).2
  obtain ⟨e, hstart, -, heq⟩ := rebootPoeDown_eq (i := i) hb r
  have hoff : PoweredOff { b with
      rebootState := if Flags.has e rebootEventTimerStop then .poeUp else .poeDown
      rebootEvent := e } := by
    simp only [PoweredOff, hstart]
    split <;> simp
  rw [heq]
  refine ⟨fun _ => hi, ?_, h.single, ?_, ?_, ?_, ?_⟩
  · -- no restart is pending once one is under way
    refine ⟨fun hp => absurd hp hpend, fun hs => ?_⟩
    simp only at hs
    split at hs <;> simp at hs
  · simp [hstart]
  · simp only
    split <;> simp_all
  · -- a call is made exactly when their number is even
    rw [rebootControls_append]
    cases hs : Flags.has b.rebootEvent rebootEventStart with
    | true =>
      have hlen : (rebootControls calls).length % 2 = 0 := by
        simpa [PoweredOff, hb, hs] using h.parity
      exact alternates_append_iff.mpr ⟨h.alternates, by rw [if_pos hlen]⟩
    | false => simpa [rebootControls, rebootCalls] using h.alternates
  · rw [if_pos hoff, rebootControls_append, List.length_append]
    cases hs : Flags.has b.rebootEvent rebootEventStart with
    | true =>
      have hlen : (rebootControls calls).length % 2 = 0 := by
        simpa [PoweredOff, hb, hs] using h.parity
      have hone : (rebootControls [(⟨i.paramPort.portNum, .poeDown, .rebootHandler, r.now⟩ :
          PoeCall)]).length = 1 := rfl
      simp only [if_true, hone]
      omega
    | false =>
      have hlen : (rebootControls calls).length % 2 = 1 := by
        simpa [PoweredOff, hb, hs] using h.parity
      simpa [rebootControls, rebootCalls] using hlen

/-- What `REBOOT_STATE_POE_UP` does when the timer has stopped. -/
theorem rebootPoeUp_eq (hstop : Flags.has b.rebootEvent rebootEventTimerStop = true)
    (r : Reading) :
    ∃ e c, Flags.has e rebootEventTimerStop = false ∧
      Flags.has e rebootEventStart = Flags.has b.rebootEvent rebootEventStart ∧
      rebootPoeUp i b r =
        ⟨{ i with paramPort := { i.paramPort with errorCode := c }, state := .regularSate },
          { b with rebootState := .idle, rebootEvent := e },
          [⟨i.paramPort.portNum, .poeUp, .rebootHandler, r.now⟩]⟩ := by
  have hdone : Flags.has (Flags.set (Flags.clear b.rebootEvent rebootEventTimerStop)
      rebootEventDone) rebootEventDone = true := Flags.has_set_self (by decide) _
  refine ⟨Flags.set (Flags.set (Flags.clear b.rebootEvent rebootEventTimerStop) rebootEventDone)
      rebootEventIdle,
    Flags.clear (Flags.clear i.paramPort.errorCode errRebooting) errManualReboot, ?_, ?_, ?_⟩
  · simp (disch := decide) [Flags.has_set_of_disjoint]
  · simp (disch := decide) [Flags.has_set_of_disjoint, Flags.has_clear_of_disjoint]
  · simp only [rebootPoeUp, hstop, if_true, hdone, PortInfo.mapCode]

/-- `REBOOT_STATE_POE_UP`: the timer has stopped, so the power comes back and the
port leaves `REBOOT_STATE`. -/
theorem portInv_rebootPoeUp (h : PortInv ⟨i, b, calls⟩) (hb : b.rebootState = .poeUp)
    (r : Reading) :
    PortInv ⟨(rebootPoeUp i b r).portInfo, (rebootPoeUp i b r).rebootParam,
      calls ++ (rebootPoeUp i b r).calls⟩ := by
  have hpend : ¬ (Flags.has i.event autoRestart = true ∨ Flags.has i.event manualRestart = true) :=
    fun hp => by simpa [hb] using (h.pending.mp hp).2
  have hlen : (rebootControls calls).length % 2 = 1 := by
    simpa [PoweredOff, hb] using h.parity
  obtain ⟨e, c, hstop, hstart, heq⟩ := rebootPoeUp_eq (i := i) (h.stop.mpr hb) r
  rw [h.start_eq_false (by simp [hb])] at hstart
  have hcontrols : rebootControls (calls ++ [⟨i.paramPort.portNum, .poeUp, .rebootHandler, r.now⟩])
      = rebootControls calls ++ [.poeUp] := rebootControls_append _ _
  rw [heq]
  refine ⟨fun hne => absurd rfl hne, ?_, h.single, by simp [hstart], by simp [hstop], ?_, ?_⟩
  · exact ⟨fun hp => absurd hp hpend, fun hs => by simp at hs⟩
  · rw [hcontrols]
    exact alternates_append_iff.mpr ⟨h.alternates, by rw [if_neg (by omega)]⟩
  · rw [hcontrols, List.length_append, List.length_singleton, if_neg (by simp [PoweredOff])]
    omega

/-- `test_ErrorHandler` asks for a restart at most: it leaves the requests and
the state as they are, or raises `AUTO_RESTART` and enters `REBOOT_STATE`. -/
theorem testErrorHandler_cases (i : PortInfo) (b : RebootParam) (dp : DemonParam) (r : Reading) :
    rebootCalls (testErrorHandler i b dp r).calls = [] ∧
      (testErrorHandler i b dp r).rebootParam = b ∧
      ((testErrorHandler i b dp r).portInfo.event = i.event ∧
          (testErrorHandler i b dp r).portInfo.state = i.state ∨
        (testErrorHandler i b dp r).portInfo.event = Flags.set i.event autoRestart ∧
          (testErrorHandler i b dp r).portInfo.state = .rebootState) := by
  have halarm : ∀ j : PortInfo, rebootCalls (switchOnAlarm j r).2 = [] ∧
      (switchOnAlarm j r).1.event = j.event ∧ (switchOnAlarm j r).1.state = j.state := by
    intro j
    simp only [switchOnAlarm]
    split_ifs <;> exact ⟨rfl, rfl, rfl⟩
  obtain ⟨hcalls, hevent, hstate⟩ := halarm (countErrors i dp)
  refine ⟨hcalls, rfl, ?_⟩
  have hinfo : (testErrorHandler i b dp r).portInfo = (switchOnAlarm (countErrors i dp) r).1 := rfl
  rw [hinfo, hevent, hstate]
  simp only [countErrors]
  split
  · exact Or.inr ⟨rfl, rfl⟩
  · exact Or.inl ⟨rfl, rfl⟩

theorem portInv_testErrorHandler (h : PortInv ⟨i, b, calls⟩) (hi : i.state = .regularSate)
    (dp : DemonParam) (r : Reading) :
    PortInv ⟨(testErrorHandler i b dp r).portInfo, (testErrorHandler i b dp r).rebootParam,
      calls ++ (testErrorHandler i b dp r).calls⟩ := by
  have hb : b.rebootState = .idle := by
    by_contra hne
    have := h.busy hne
    simp only [hi] at this
    cases this
  have hpend : ¬ (Flags.has i.event autoRestart = true ∨ Flags.has i.event manualRestart = true) :=
    fun hp => by simpa [hi] using (h.pending.mp hp).1
  obtain ⟨ha, hm⟩ : Flags.has i.event autoRestart = false ∧
      Flags.has i.event manualRestart = false := by simpa using hpend
  obtain ⟨hcalls, hreboot, hcases⟩ := testErrorHandler_cases i b dp r
  have hcontrols : rebootControls (calls ++ (testErrorHandler i b dp r).calls) =
      rebootControls calls := by
    rw [rebootControls, rebootCalls_append, hcalls, List.append_nil]
    rfl
  rw [hreboot]
  refine ⟨fun hne => absurd hb hne, ?_, ?_, h.start, h.stop, ?_, ?_⟩
  · rcases hcases with ⟨he, hs⟩ | ⟨he, hs⟩
    · simp [he, hs, ha, hm, hi]
    · simp [he, hs, hb, Flags.has_set_self (show autoRestart ≠ 0#32 by decide)]
  · rcases hcases with ⟨he, hs⟩ | ⟨he, hs⟩
    · simp [he, ha]
    · simp (disch := decide) [he, hm, Flags.has_set_of_disjoint]
  · rw [hcontrols]
    exact h.alternates
  · rw [hcontrols]
    exact h.parity

/-- **A tick keeps the invariant of every port.** -/
theorem portInv_tick {v : View} (h : PortInv v) (dp : DemonParam) (r : Reading) :
    PortInv (v.tick dp r) := by
  obtain ⟨i, b, calls⟩ := v
  unfold View.tick handlePort
  simp only
  split
  · simpa using h
  split
  · rename_i hi
    unfold rebootHandler
    split
    · exact portInv_rebootIdle h hi ‹_› dp r
    · exact portInv_rebootInit h ‹_› r
    · exact portInv_rebootPoeDown h ‹_› r
    · exact portInv_rebootPoeUp h ‹_› r
  · exact portInv_testErrorHandler h ‹_› dp r
  · simpa using h

/-- A manual request is taken up outside `REBOOT_STATE` only. -/
theorem portInv_requestReboot (h : PortInv ⟨i, b, calls⟩) :
    PortInv ⟨requestReboot i, b, calls⟩ := by
  unfold requestReboot
  split
  · rename_i hi
    have hb : b.rebootState = .idle := by
      by_contra hne
      exact hi (h.busy hne)
    have hm : Flags.has manualRestart manualRestart = true := by decide
    have ha : Flags.has manualRestart autoRestart = false := by decide
    exact ⟨fun hne => absurd hb hne, by simp [hb, hm], by simp [ha], h.start, h.stop, h.alternates,
      h.parity⟩
  · exact h

/-- The test results are not part of the invariant. -/
theorem portInv_setResults (h : PortInv ⟨i, b, calls⟩) (code : ErrorCode) :
    PortInv ⟨setResults code i, b, calls⟩ :=
  ⟨h.busy, h.pending, h.single, h.start, h.stop, h.alternates, h.parity⟩

end Handlers

/-! ## Whole runs -/

/-- What a port can rely on. -/
structure NotStranded (v : View) : Prop where
  busy : v.rebootParam.rebootState ≠ .idle → v.portInfo.state = .rebootState
  pending : v.portInfo.state = .rebootState → v.rebootParam.rebootState = .idle →
    Xor (Flags.has v.portInfo.event autoRestart) (Flags.has v.portInfo.event manualRestart)
  alternates : Alternates (rebootControls v.calls)
  balanced : v.portInfo.state ≠ .rebootState →
    (rebootControls v.calls).count .poeUp = (rebootControls v.calls).count .poeDown

theorem PortInv.notStranded {v : View} (h : PortInv v) : NotStranded v := by
  refine ⟨h.busy, ?_, h.alternates, ?_⟩
  · intro hs hb
    have hsingle := h.single
    rcases h.pending.mpr ⟨hs, hb⟩ with ha | hm
    · exact Or.inl ⟨ha, fun hm => hsingle ⟨ha, hm⟩⟩
    · exact Or.inr ⟨hm, fun ha => hsingle ⟨ha, hm⟩⟩
  · intro hs
    have hb : v.rebootParam.rebootState = .idle := by
      by_contra hne
      exact hs (h.busy hne)
    have hpar := h.parity
    rw [if_neg (by simp [PoweredOff, hb])] at hpar
    obtain ⟨hdown, hup⟩ := h.alternates.count
    omega

/-- A step that is about one port leaves the others as they are.  In a tick that
holds for the turn of each port. -/
def Isolated (d : Daemon) : Event → Prop
  | .manual q => ∀ p, p ≠ q → (step d (.manual q)).view p = d.view p
  | .results q code => ∀ p, p ≠ q → (step d (.results q code)).view p = d.view p
  | .tick r => ∀ (q : PortNum) (before after : List Nat), ports = before ++ q.val :: after →
      let d' := before.foldl (portTurn r) { d with demonParam := d.demonParam.advance }
      ∀ p, p ≠ q → (portTurn r d' q.val).view p = d'.view p

theorem isolated_of_numbered {d : Daemon} (h : Numbered d) (e : Event) : Isolated d e := by
  cases e with
  | manual q =>
    intro p hp
    rw [view_step h]
    exact if_neg hp
  | results q code =>
    intro p hp
    rw [view_step h]
    exact if_neg hp
  | tick r =>
    intro q before after _ d' p hp
    have h0 : Numbered { d with demonParam := d.demonParam.advance } := h
    exact view_portTurn_of_ne (numbered_turns h0 r before) r hp

/-- The daemon's invariant. -/
def Inv (d : Daemon) : Prop := Numbered d ∧ ∀ p, PortInv (d.view p)

theorem inv_mainInit (c : Config) (now : Nat) : Inv (mainInit c now) :=
  ⟨numbered_mainInit c now, portInv_mainInit c now⟩

theorem inv_step (d : Daemon) (e : Event) (h : Inv d) : Inv (step d e) := by
  refine ⟨numbered_step d e h.1, fun p => ?_⟩
  rw [view_step h.1]
  cases e with
  | manual q =>
    simp only
    split
    · exact portInv_requestReboot (h.2 p)
    · exact h.2 p
  | tick r =>
    simp only
    split
    · exact portInv_tick (h.2 p) _ _
    · exact h.2 p
  | results q code =>
    simp only
    split
    · exact portInv_setResults (h.2 p) code
    · exact h.2 p

/-- **No port is ever stranded.**  For every configuration and every order of
manual requests, ticks at any clock readings and changes of test results. -/
theorem never_stranded (c : Config) (now : Nat) (es : List Event) :
    Runs.Always step (fun d => ∀ p, NotStranded (d.view p)) (mainInit c now) es ∧
      Runs.Meets step Isolated (mainInit c now) es := by
  have hinv : Runs.Always step Inv (mainInit c now) es :=
    Runs.always_of_step inv_step (inv_mainInit c now) es
  refine ⟨hinv.mono fun d h p => (h.2 p).notStranded, ?_⟩
  exact hinv.meets_of (fun d e h => isolated_of_numbered h.1 e)

end TfPackages.Restart
