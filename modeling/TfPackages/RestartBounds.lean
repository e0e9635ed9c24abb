import TfPackages.RestartInvariant

/-! # How often a port is restarted by itself

The daemon restarts a port whose test keeps failing, but at most `max_reset` times
in a row; then it gives the port up, and only a request brings it back.  The two
counters this rests on, `resetCount` and `errorTestCount`, are bytes that four
functions change.

What they are meant to count is kept beside the daemon in a `Ledger`: the
automatic restarts since start-up or the last manual one, and whether the port has
been given up.  `Kept` says that the counters follow the ledger and that a port
that was given up is left alone; every step keeps it.
-/
namespace TfPackages.Restart

/-- What a tick makes of the request that is pending for a port. -/
inductive Taken where
  | automatic
  | manual
  | refused
deriving DecidableEq, Repr

/-- The request that `rebootHandler` takes in `REBOOT_STATE_IDLE`, if it is the one
that is called.  An automatic restart is refused when `rebootState` does not move
on. -/
def View.taken (v : View) (demonParam : DemonParam) (r : Reading) : Option Taken :=
  if Flags.has v.portInfo.paramPort.errorCode errPortDisable = false ∧
      v.portInfo.state = .rebootState ∧ v.rebootParam.rebootState = .idle then
    if Flags.has v.portInfo.event autoRestart then
      if (v.tick demonParam r).rebootParam.rebootState = .idle then some .refused
      else some .automatic
    else if Flags.has v.portInfo.event manualRestart then some .manual else none
  else none

/-- What has happened to one port. -/
structure Ledger where
  /-- The automatic restarts since start-up or the last manual restart. -/
  automatic : Nat
  /-- The calls of `poe_Control` made until an automatic restart was refused, if
  no manual request has come since. -/
  givenUp : Option (List PoeCall)

/-- A port when the daemon starts. -/
def Ledger.start : Ledger := ⟨0, none⟩

/-- The entry for a request that is taken; `calls` are the calls made until then. -/
def Ledger.enter (l : Ledger) (calls : List PoeCall) : Option Taken → Ledger
  | some .automatic => { l with automatic := l.automatic + 1 }
  | some .manual => { l with automatic := 0 }
  | some .refused => { l with givenUp := some calls }
  | none => l

/-- The entry for one step. -/
def Ledger.record (l : Ledger) (p : PortNum) (d : Daemon) : Event → Ledger
  | .manual q => if p = q then { l with givenUp := none } else l
  | .results _ _ => l
  | .tick r =>
    if d.Due r then
      l.enter ((step d (.tick r)).view p).calls
        ((d.view p).taken d.demonParam.advance (r.port p.val))
    else l

/-- The daemon and the ledger of one port. -/
def track (p : PortNum) (s : Daemon × Ledger) (e : Event) : Daemon × Ledger :=
  (step s.1 e, s.2.record p s.1 e)

/-- **Automatic restarts are bounded**: the claims about one port, for parameters
`maxReset` and `testNum`. -/
structure Bounded (maxReset testNum : UInt8) (v : View) (l : Ledger) : Prop where
  automatic : l.automatic ≤ maxReset.toNat
  errors : v.portInfo.paramPort.errorTestCount ≤ testNum
  /-- A port that has been given up is left alone. -/
  givenUp : ∀ calls, l.givenUp = some calls → v.portInfo.state = .idleState ∧
    Flags.has v.portInfo.paramPort.errorCode errPortShutdown = true ∧ v.calls = calls

/-- The counters follow the ledger. -/
structure Kept (maxReset testNum : UInt8) (v : View) (l : Ledger) : Prop where
  count : v.portInfo.paramPort.resetCount.toNat = l.automatic
  bounded : Bounded maxReset testNum v l

/-! ## One tick -/

section Tick
variable {dp : DemonParam} {v : View} {l : Ledger}

/-- What a tick leaves for a port that has been given up and is not called. -/
theorem tick_of_idle (hi : v.portInfo.state = .idleState) (r : Reading) : v.tick dp r = v := by
  obtain ⟨i, b, calls⟩ := v
  unfold View.tick handlePort
  simp only at hi
  split
  · simp
  · simp [hi]

/-- The error counter stays below its threshold. -/
theorem nextErrorCount_le {p : ParamPort} {testNum : UInt8} (h : p.errorTestCount ≤ testNum) :
    nextErrorCount p testNum ≤ testNum := by
  unfold nextErrorCount
  dsimp only
  have hle : (if Flags.has p.errorCode errOk ∧ p.errorTestCount > 0 then
      p.errorTestCount - 1 else p.errorTestCount) ≤ testNum := by
    split
    · rename_i hpos
      have hone : (1 : UInt8) ≤ p.errorTestCount := by
        have := UInt8.lt_iff_toNat_lt.mp hpos.2
        rw [UInt8.le_iff_toNat_le, UInt8.toNat_one]
        simp only [UInt8.toNat_zero] at this
        omega
      rw [UInt8.le_iff_toNat_le] at h ⊢
      rw [UInt8.toNat_sub_of_le _ _ hone]
      omega
    · exact h
  generalize (if Flags.has p.errorCode errOk ∧ p.errorTestCount > 0 then
    p.errorTestCount - 1 else p.errorTestCount) = count at hle ⊢
  split
  · rename_i hlt
    have hlt := UInt8.lt_iff_toNat_lt.mp hlt.2
    have := testNum.toNat_lt
    rw [UInt8.le_iff_toNat_le, UInt8.toNat_add, UInt8.toNat_one]
    omega
  · exact hle

/-- Outside `REBOOT_STATE_IDLE` no request is taken. -/
theorem taken_eq_none (h : ¬ (v.portInfo.state = .rebootState ∧ v.rebootParam.rebootState = .idle))
    (r : Reading) : v.taken dp r = none :=
  if_neg fun hc => h hc.2

/-- A step that leaves the counters below their bounds and takes no request, for a
port that has not been given up. -/
theorem kept_of_active {m t : UInt8} {v' : View} (h : Kept m t v l)
    (hs : v.portInfo.state ≠ .idleState)
    (hreset : v'.portInfo.paramPort.resetCount = v.portInfo.paramPort.resetCount)
    (herror : v'.portInfo.paramPort.errorTestCount ≤ t) : Kept m t v' l := by
  refine ⟨by rw [hreset]; exact h.count, h.bounded.automatic, herror, fun calls hcalls => ?_⟩
  exact absurd (h.bounded.givenUp calls hcalls).1 hs

section RebootIdle
variable {i : PortInfo} {b : RebootParam}

/-- An automatic restart that is refused: the port is shut down. -/
theorem rebootIdle_refused (ha : Flags.has i.event autoRestart = true)
    (hm : Flags.has i.event manualRestart = false) (hmax : i.paramPort.resetCount ≥ dp.maxReset)
    (r : Reading) :
    ∃ p e, Flags.has p.errorCode errPortShutdown = true ∧
      p.resetCount = i.paramPort.resetCount ∧ p.errorTestCount = i.paramPort.errorTestCount ∧
      rebootIdle i b dp r = ⟨⟨p, e, .idleState⟩, { b with rebootState := .idle }, []⟩ := by
  have hm' : Flags.has (Flags.clear i.event autoRestart) manualRestart = false := by
    rwa [Flags.has_clear_of_disjoint (by decide)]
  simp only [rebootIdle, ha, if_true, autoResetHandler, if_pos hmax, hm', Bool.false_eq_true,
    if_false]
  refine ⟨_, _, ?_, ?_, ?_, rfl⟩
  · exact Flags.has_set_self (by decide) _
  · rfl
  · rfl

/-- An automatic restart that begins. -/
theorem rebootIdle_automatic (ha : Flags.has i.event autoRestart = true)
    (hm : Flags.has i.event manualRestart = false) (hmax : ¬ i.paramPort.resetCount ≥ dp.maxReset)
    (r : Reading) :
    ∃ p e, p.resetCount = i.paramPort.resetCount + 1 ∧ p.errorTestCount = 0 ∧
      rebootIdle i b dp r = ⟨⟨p, e, i.state⟩, { b with rebootState := .init }, []⟩ := by
  have hm' : Flags.has (Flags.clear i.event autoRestart) manualRestart = false := by
    rwa [Flags.has_clear_of_disjoint (by decide)]
  simp only [rebootIdle, ha, if_true, autoResetHandler, if_neg hmax, hm', Bool.false_eq_true,
    if_false]
  refine ⟨_, _, ?_, ?_, rfl⟩
  · rfl
  · rfl

/-- A manual restart. -/
theorem rebootIdle_manual (dp : DemonParam) (ha : Flags.has i.event autoRestart = false)
    (hm : Flags.has i.event manualRestart = true) (r : Reading) :
    ∃ p e, p.resetCount = 0 ∧ p.errorTestCount = 0 ∧
      rebootIdle i b dp r = ⟨⟨p, e, i.state⟩, { b with rebootState := .init }, []⟩ := by
  simp only [rebootIdle, ha, Bool.false_eq_true, if_false, hm, if_true, manualResetHandler]
  refine ⟨_, _, ?_, ?_, rfl⟩
  · rfl
  · rfl

end RebootIdle

/-- `REBOOT_STATE_IDLE`: the pending request is taken, and entered. -/
theorem kept_rebootIdle (hinv : PortInv v) (h : Kept dp.maxReset dp.testNum v l)
    (hd : Flags.has v.portInfo.paramPort.errorCode errPortDisable = false)
    (hs : v.portInfo.state = .rebootState) (hb : v.rebootParam.rebootState = .idle) (r : Reading) :
    Kept dp.maxReset dp.testNum (v.tick dp r)
      (l.enter (v.tick dp r).calls (v.taken dp r)) := by
  have hactive : v.portInfo.state ≠ .idleState := by
    rw [hs]
    decide
  have hnone : l.givenUp = none := by
    by_contra hne
    obtain ⟨calls, hcalls⟩ := Option.ne_none_iff_exists'.mp hne
    exact hactive (h.bounded.givenUp calls hcalls).1
  have htick : v.tick dp r = ⟨(rebootIdle v.portInfo v.rebootParam dp r).portInfo,
      (rebootIdle v.portInfo v.rebootParam dp r).rebootParam, v.calls⟩ := by
    simp only [View.tick, handlePort, hd, hs, rebootHandler, hb, Bool.false_eq_true, if_false]
    simp [rebootIdle]
  have hpend := hinv.pending.mpr ⟨hs, hb⟩
  have htaken : v.taken dp r = if Flags.has v.portInfo.event autoRestart then
      if (v.tick dp r).rebootParam.rebootState = .idle then some .refused else some .automatic
      else if Flags.has v.portInfo.event manualRestart then some .manual else none :=
    if_pos ⟨hd, hs, hb⟩
  -- One request is pending, and never both kinds of it.
  cases ha : Flags.has v.portInfo.event autoRestart with
  | true =>
    have hm : Flags.has v.portInfo.event manualRestart = false := by
      simpa [ha] using hinv.single
    rw [ha] at htaken
    by_cases hmax : v.portInfo.paramPort.resetCount ≥ dp.maxReset
    · obtain ⟨p, e, hshut, hreset, herror, hidle⟩ :=
        rebootIdle_refused (b := v.rebootParam) ha hm hmax r
      rw [hidle] at htick
      rw [htaken, htick]
      refine ⟨hreset ▸ h.count, h.bounded.automatic, herror ▸ h.bounded.errors, ?_⟩
      intro calls hcalls
      exact ⟨rfl, hshut, Option.some.inj hcalls⟩
    · obtain ⟨p, e, hreset, herror, hidle⟩ :=
        rebootIdle_automatic (b := v.rebootParam) ha hm hmax r
      have hlt := UInt8.lt_iff_toNat_lt.mp (UInt8.not_le.mp hmax)
      have hnext : p.resetCount.toNat = l.automatic + 1 := by
        have := dp.maxReset.toNat_lt
        rw [hreset, UInt8.toNat_add, UInt8.toNat_one, h.count]
        rw [h.count] at hlt
        omega
      rw [hidle] at htick
      rw [htaken, htick]
      refine ⟨hnext, ?_, ?_, ?_⟩
      · change l.automatic + 1 ≤ dp.maxReset.toNat
        rw [h.count] at hlt
        exact hlt
      · change p.errorTestCount ≤ dp.testNum
        rw [herror]
        exact UInt8.zero_le
      · intro calls hcalls
        exact absurd (hnone.symm.trans hcalls) (by simp)
  | false =>
    have hm : Flags.has v.portInfo.event manualRestart = true := by
      simpa [ha] using hpend
    obtain ⟨p, e, hreset, herror, hidle⟩ :=
      rebootIdle_manual dp (b := v.rebootParam) ha hm r
    rw [hidle] at htick
    rw [htaken, htick, ha, hm]
    refine ⟨?_, Nat.zero_le _, ?_, ?_⟩
    · change p.resetCount.toNat = 0
      rw [hreset]
      rfl
    · change p.errorTestCount ≤ dp.testNum
      rw [herror]
      exact UInt8.zero_le
    · intro calls hcalls
      exact absurd (hnone.symm.trans hcalls) (by simp)

/-- `test_ErrorHandler` changes the error counter only. -/
theorem testErrorHandler_counts (i : PortInfo) (b : RebootParam) (dp : DemonParam) (r : Reading) :
    (testErrorHandler i b dp r).portInfo.paramPort.resetCount = i.paramPort.resetCount ∧
      (testErrorHandler i b dp r).portInfo.paramPort.errorTestCount =
        nextErrorCount i.paramPort dp.testNum := by
  have halarm : ∀ j : PortInfo,
      (switchOnAlarm j r).1.paramPort.resetCount = j.paramPort.resetCount ∧
        (switchOnAlarm j r).1.paramPort.errorTestCount = j.paramPort.errorTestCount := by
    intro j
    simp only [switchOnAlarm]
    split_ifs <;> exact ⟨rfl, rfl⟩
  obtain ⟨hreset, herror⟩ := halarm (countErrors i dp)
  refine ⟨hreset.trans ?_, herror.trans ?_⟩
  · simp only [countErrors]
    split_ifs <;> rfl
  · simp only [countErrors]
    split_ifs <;> rfl

/-- The steps of a restart under way change neither counter. -/
theorem rebootHandler_counts {i : PortInfo} {b : RebootParam} (hb : b.rebootState ≠ .idle)
    (dp : DemonParam) (r : Reading) :
    (rebootHandler i b dp r).portInfo.paramPort.resetCount = i.paramPort.resetCount ∧
      (rebootHandler i b dp r).portInfo.paramPort.errorTestCount = i.paramPort.errorTestCount := by
  cases hs : b.rebootState with
  | idle => exact absurd hs hb
  | init =>
    simp only [rebootHandler, hs]
    exact ⟨rfl, rfl⟩
  | poeDown =>
    simp only [rebootHandler, hs]
    exact ⟨rfl, rfl⟩
  | poeUp =>
    simp only [rebootHandler, hs, rebootPoeUp]
    split_ifs <;> exact ⟨rfl, rfl⟩

/-- **A tick keeps the counters and the ledger together.** -/
theorem kept_tick (hinv : PortInv v) (h : Kept dp.maxReset dp.testNum v l) (r : Reading) :
    Kept dp.maxReset dp.testNum (v.tick dp r) (l.enter (v.tick dp r).calls (v.taken dp r)) := by
  cases hd : Flags.has v.portInfo.paramPort.errorCode errPortDisable with
  | true =>
    have htick : v.tick dp r = v := by
      obtain ⟨i, b, calls⟩ := v
      simp only at hd
      simp [View.tick, handlePort, hd]
    have htaken : v.taken dp r = none := if_neg (by simp [hd])
    rw [htaken, htick]
    exact h
  | false =>
    cases hs : v.portInfo.state with
    | idleState =>
      rw [taken_eq_none (by simp [hs]), tick_of_idle hs]
      exact h
    | regularSate =>
      rw [taken_eq_none (by simp [hs])]
      obtain ⟨hreset, herror⟩ := testErrorHandler_counts v.portInfo v.rebootParam dp r
      have htick : (v.tick dp r).portInfo =
          (testErrorHandler v.portInfo v.rebootParam dp r).portInfo := by
        simp only [View.tick, handlePort, hd, hs, Bool.false_eq_true, if_false]
      refine kept_of_active h (by simp [hs]) (by rw [htick, hreset]) ?_
      rw [htick, herror]
      exact nextErrorCount_le h.bounded.errors
    | rebootState =>
      by_cases hb : v.rebootParam.rebootState = .idle
      · exact kept_rebootIdle hinv h hd hs hb r
      · rw [taken_eq_none (by simp [hb])]
        obtain ⟨hreset, herror⟩ := rebootHandler_counts (i := v.portInfo) hb dp r
        have htick : (v.tick dp r).portInfo =
            (rebootHandler v.portInfo v.rebootParam dp r).portInfo := by
          simp only [View.tick, handlePort, hd, hs, Bool.false_eq_true, if_false]
        refine kept_of_active h (by simp [hs]) (by rw [htick, hreset]) ?_
        rw [htick, herror]
        exact h.bounded.errors

/-- A manual request puts the port back into service. -/
theorem kept_requestReboot {m t : UInt8} (h : Kept m t v l) :
    Kept m t { v with portInfo := requestReboot v.portInfo } { l with givenUp := none } := by
  have hparam : (requestReboot v.portInfo).paramPort = v.portInfo.paramPort := by
    unfold requestReboot
    split <;> rfl
  refine ⟨?_, h.bounded.automatic, ?_, fun calls hcalls => by cases hcalls⟩
  · change (requestReboot v.portInfo).paramPort.resetCount.toNat = l.automatic
    rw [hparam]
    exact h.count
  · change (requestReboot v.portInfo).paramPort.errorTestCount ≤ t
    rw [hparam]
    exact h.bounded.errors

/-- `ERR_PORT_SHUTDOWN` is not a test result. -/
theorem kept_setResults {m t : UInt8} (h : Kept m t v l) (code : ErrorCode) :
    Kept m t { v with portInfo := setResults code v.portInfo } l := by
  refine ⟨h.count, h.bounded.automatic, h.bounded.errors, fun calls hcalls => ?_⟩
  obtain ⟨hs, hshut, hc⟩ := h.bounded.givenUp calls hcalls
  refine ⟨hs, ?_, hc⟩
  change Flags.has (Flags.clear v.portInfo.paramPort.errorCode testResultBits |||
    (code &&& testResultBits)) errPortShutdown = true
  rw [Flags.has_or, Flags.has_clear_of_disjoint (by decide), hshut, Bool.true_or]

end Tick

/-! ## Whole runs -/

theorem demonParam_step (d : Daemon) (e : Event) :
    (step d e).demonParam.maxReset = d.demonParam.maxReset ∧
      (step d e).demonParam.testNum = d.demonParam.testNum := by
  cases e with
  | manual q => exact ⟨rfl, rfl⟩
  | results q code => exact ⟨rfl, rfl⟩
  | tick r =>
    simp only [step, mainHandler]
    split
    · rw [demonParam_turns]
      exact ⟨rfl, rfl⟩
    · exact ⟨rfl, rfl⟩

/-- The daemon's invariant, with the ledger of a port. -/
structure Tracked (p : PortNum) (maxReset testNum : UInt8) (s : Daemon × Ledger) : Prop where
  inv : Inv s.1
  maxReset_eq : s.1.demonParam.maxReset = maxReset
  testNum_eq : s.1.demonParam.testNum = testNum
  kept : Kept maxReset testNum (s.1.view p) s.2

theorem tracked_step {p : PortNum} {m t : UInt8} (s : Daemon × Ledger) (e : Event)
    (h : Tracked p m t s) : Tracked p m t (track p s e) := by
  obtain ⟨d, l⟩ := s
  obtain ⟨hmax, htest⟩ := demonParam_step d e
  refine ⟨inv_step d e h.inv, hmax.trans h.maxReset_eq, htest.trans h.testNum_eq, ?_⟩
  have hview := view_step h.inv.1 e p
  change Kept m t ((step d e).view p) (l.record p d e)
  cases e with
  | manual q =>
    rw [hview]
    simp only [Ledger.record]
    split
    · exact kept_requestReboot h.kept
    · exact h.kept
  | results q code =>
    rw [hview]
    simp only [Ledger.record]
    split
    · exact kept_setResults h.kept code
    · exact h.kept
  | tick r =>
    simp only [Ledger.record]
    rw [hview]
    dsimp only
    split
    · have hm : d.demonParam.advance.maxReset = m := h.maxReset_eq
      have ht : d.demonParam.advance.testNum = t := h.testNum_eq
      have hkept : Kept d.demonParam.advance.maxReset d.demonParam.advance.testNum
          (d.view p) l := by
        rw [hm, ht]
        exact h.kept
      have := kept_tick (h.inv.2 p) hkept (r.port p.val)
      rwa [hm, ht] at this
    · exact h.kept

/-- **Automatic restarts are bounded**, for every configuration, every port and
every order of manual requests, ticks and changes of test results. -/
theorem restarts_bounded (c : Config) (now : Nat) (p : PortNum) (es : List Event) :
    Runs.Always (track p)
      (fun s => Bounded c.demon.maxReset c.demon.testNum (s.1.view p) s.2)
      (mainInit c now, Ledger.start) es := by
  have hstart : Tracked p c.demon.maxReset c.demon.testNum (mainInit c now, Ledger.start) := by
    refine ⟨inv_mainInit c now, rfl, rfl, rfl, Nat.zero_le _, UInt8.zero_le, ?_⟩
    intro calls hcalls
    cases hcalls
  exact (Runs.always_of_step tracked_step hstart es).mono fun s h => h.kept.bounded

end TfPackages.Restart
