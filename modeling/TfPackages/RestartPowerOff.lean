import TfPackages.RestartLiveness

/-! # How long a restarted port stays without power

A restart passes three dates: the tick in `REBOOT_STATE_INIT` computes the
deadline `timeStartReboot`, fifteen seconds ahead; the next tick cuts the power;
and the tick after the one that has seen the deadline restores it.  The power is
off from the second to the third, while the fifteen seconds are counted from the
first.  A tick is scheduled for `mainTime`, which `mainHandler` moves on by
`test_delay` for each, and missed ticks are made up for back to back, so what is
off by how much depends on how late the ticks come.

`Lateness` bounds it: every tick comes at least `early` seconds after `mainTime`,
the one that cuts the power at most `cut`, the one that sees the deadline at most
`seen`.  `Allowed` says that such ticks are never so uneven that fifteen seconds
are missed.  Ticks that are all late by the same time never are, whatever
`test_delay` is, and that includes those of a daemon that is not late at all
(`off_long_enough_of_lateBy`).
-/
namespace TfPackages.Restart

/-- Every `POE_UP` of `rebootHandler` comes fifteen seconds after the `POE_DOWN`
before it, at least. -/
def OffLongEnough (calls : List PoeCall) : Prop :=
  ∀ i down up, (rebootCalls calls)[i]? = some down → (rebootCalls calls)[i + 1]? = some up →
    down.control = .poeDown → up.control = .poeUp → down.time + 15 ≤ up.time

/-! ## How late the ticks may be -/

/-- How many seconds after `mainTime` the turns of a port come while it is restarted. -/
structure Lateness where
  early : Nat
  cut : Nat
  seen : Nat

/-- If the deadline can be seen `n` ticks after it was computed, the power comes back late
enough for the moment it was cut. -/
def Lateness.Allowed (l : Lateness) (testDelay : Nat) : Prop :=
  ∀ n, 1 ≤ n → 15 + l.early ≤ n * testDelay + l.seen → 15 + l.cut ≤ n * testDelay + l.early

/-- A turn of the port that is scheduled for `mainTime` is as late as `l` says. -/
structure Lateness.Kept (l : Lateness) (mainTime : Nat) (b : RebootParam) (r : Reading) : Prop where
  early : b.rebootState ≠ .idle → mainTime + l.early ≤ r.now
  cut : b.rebootState = .poeDown → Flags.has b.rebootEvent rebootEventStart = true →
    r.now ≤ mainTime + l.cut
  seen : b.rebootState = .poeDown → b.timeStartReboot ≤ UInt32.ofNat r.check →
    r.check ≤ mainTime + l.seen

instance (l : Lateness) (mainTime : Nat) (b : RebootParam) (r : Reading) :
    Decidable (l.Kept mainTime b r) :=
  decidable_of_iff ((b.rebootState ≠ .idle → mainTime + l.early ≤ r.now) ∧
      (b.rebootState = .poeDown → Flags.has b.rebootEvent rebootEventStart = true →
        r.now ≤ mainTime + l.cut) ∧
      (b.rebootState = .poeDown → b.timeStartReboot ≤ UInt32.ofNat r.check →
        r.check ≤ mainTime + l.seen))
    ⟨fun h => ⟨h.1, h.2.1, h.2.2⟩, fun h => ⟨h.early, h.cut, h.seen⟩⟩

/-- Every port has its turn in time. -/
def TurnsInTime (late : PortNum → Lateness) (d : Daemon) : Event → Prop
  | .tick r => d.Due r → ∀ p : PortNum,
      (late p).Kept d.demonParam.mainTime.toNat (d.rebootParam p.val) (r.port p.val)
  | _ => True

instance (late : PortNum → Lateness) (d : Daemon) (e : Event) :
    Decidable (TurnsInTime late d e) := by
  cases e <;> unfold TurnsInTime <;> infer_instance

/-- Ticks that are all late by the same time do no harm. -/
theorem Lateness.allowed_of_le {l : Lateness} (hcut : l.cut ≤ l.early) (hseen : l.seen ≤ l.early)
    (testDelay : Nat) : l.Allowed testDelay := by
  intro n _ hn
  omega

theorem le_of_due {d : Daemon} {r : Readings} (h : d.Due r) :
    d.demonParam.mainTime.toNat ≤ r.now := by
  have hle : d.demonParam.mainTime.toNat ≤ r.now % 2 ^ 32 := UInt32.le_iff_toNat_le.mp h
  exact hle.trans (Nat.mod_le _ _)

/-- The ports have their turns `k` seconds after `mainTime`, with `k = 0` on time. -/
def LateBy (k : Nat) (d : Daemon) : Event → Prop
  | .tick r => d.Due r → ∀ p : PortNum,
      (r.port p.val).now = d.demonParam.mainTime.toNat + k ∧
        (r.port p.val).check ≤ d.demonParam.mainTime.toNat + k
  | _ => True

theorem turnsInTime_of_lateBy {k : Nat} {d : Daemon} {e : Event} (h : LateBy k d e) :
    TurnsInTime (fun _ => ⟨k, k, k⟩) d e := by
  cases e with
  | manual q => trivial
  | results q code => trivial
  | tick r =>
    intro hdue p
    obtain ⟨hnow, hcheck⟩ := h hdue p
    exact ⟨fun _ => hnow.ge, fun _ _ => hnow.le, fun _ _ => hcheck⟩

/-! ## One port -/

/-- Appending a call adds one pair. -/
theorem offLongEnough_append {calls : List PoeCall} {c : PoeCall}
    (h : OffLongEnough calls) (hc : c.caller = .rebootHandler)
    (hlast : ∀ down, (rebootCalls calls).getLast? = some down → down.control = .poeDown →
      c.control = .poeUp → down.time + 15 ≤ c.time) :
    OffLongEnough (calls ++ [c]) := by
  have happ : rebootCalls (calls ++ [c]) = rebootCalls calls ++ [c] := by
    simp [rebootCalls, hc]
  intro i down up hi hi'
  rw [happ] at hi hi'
  by_cases hlt : i + 1 < (rebootCalls calls).length
  · rw [List.getElem?_append_left (by omega)] at hi
    rw [List.getElem?_append_left hlt] at hi'
    exact h i down up hi hi'
  · -- the new call is the second of the pair
    obtain ⟨hlen, hup⟩ := List.getElem?_eq_some_iff.mp hi'
    rw [List.length_append, List.length_singleton] at hlen
    have hi1 : i + 1 = (rebootCalls calls).length := by omega
    rw [List.getElem?_append_left (by omega)] at hi
    have hupc : up = c := by
      rw [← hup, List.getElem_append_right (by omega)]
      simp
    have hdown : (rebootCalls calls).getLast? = some down := by
      rw [List.getLast?_eq_getElem?, ← hi, ← hi1, Nat.add_sub_cancel]
    rw [hupc]
    exact hlast down hdown

/-- A port along a run whose ticks are in time, before the tick that is scheduled for
`mainTime`. -/
structure Timed (l : Lateness) (testDelay mainTime : Nat) (v : View) : Prop where
  off : OffLongEnough v.calls
  timeDelay : v.rebootParam.timeDelay = 15
  /-- The power is still to be cut: the tick before computed the deadline. -/
  armed : v.rebootParam.rebootState = .poeDown →
    Flags.has v.rebootParam.rebootEvent rebootEventStart = true →
    mainTime + 15 + l.early ≤ v.rebootParam.timeStartReboot.toNat + testDelay
  /-- The power was cut by the tick that was scheduled for `due`, `n` ticks ago. -/
  cut : v.rebootParam.rebootState = .poeDown →
    Flags.has v.rebootParam.rebootEvent rebootEventStart = false →
    ∃ down due n, (rebootCalls v.calls).getLast? = some down ∧ 1 ≤ n ∧
      mainTime = due + n * testDelay ∧ down.time ≤ due + l.cut ∧
      due + 15 + l.early ≤ v.rebootParam.timeStartReboot.toNat + testDelay
  /-- The power is to be restored. -/
  up : v.rebootParam.rebootState = .poeUp →
    ∃ down, (rebootCalls v.calls).getLast? = some down ∧ down.time + 15 ≤ mainTime + l.early

/-- What does not concern the restart is not looked at. -/
theorem Timed.of_eq {l : Lateness} {testDelay mainTime : Nat} {v v' : View}
    (h : Timed l testDelay mainTime v) (hreboot : v'.rebootParam = v.rebootParam)
    (hcalls : v'.calls = v.calls) : Timed l testDelay mainTime v' := by
  obtain ⟨hoff, hdelay, harmed, hcut, hup⟩ := h
  rw [← hreboot] at hdelay harmed hcut hup
  rw [← hcalls] at hoff hcut hup
  exact ⟨hoff, hdelay, harmed, hcut, hup⟩

section Handlers
variable {l : Lateness} {testDelay mainTime : Nat} {i : PortInfo} {b : RebootParam}
  {calls : List PoeCall} {r : Reading}

/-- While no restart is past `REBOOT_STATE_INIT` nothing is owed. -/
theorem Timed.of_powered {v : View} (hoff : OffLongEnough v.calls)
    (hdelay : v.rebootParam.timeDelay = 15) (hdown : v.rebootParam.rebootState ≠ .poeDown)
    (hup : v.rebootParam.rebootState ≠ .poeUp) : Timed l testDelay mainTime v :=
  ⟨hoff, hdelay, fun h => absurd h hdown, fun h => absurd h hdown, fun h => absurd h hup⟩

theorem timed_rebootIdle (h : Timed l testDelay mainTime ⟨i, b, calls⟩)
    (hb : b.rebootState = .idle) (dp : DemonParam) (r : Reading) :
    Timed l testDelay (mainTime + testDelay)
      ⟨(rebootIdle i b dp r).portInfo, (rebootIdle i b dp r).rebootParam,
        calls ++ (rebootIdle i b dp r).calls⟩ := by
  refine Timed.of_powered (by simpa [rebootIdle] using h.off) h.timeDelay ?_ ?_
  · simp only [rebootIdle, autoResetHandler, manualResetHandler, hb]
    split_ifs <;> simp
  · simp only [rebootIdle, autoResetHandler, manualResetHandler, hb]
    split_ifs <;> simp

/-- The deadline is fifteen seconds ahead of a tick that is not early. -/
theorem timed_rebootInit (h : Timed l testDelay mainTime ⟨i, b, calls⟩)
    (hb : b.rebootState = .init) (hkept : l.Kept mainTime b r) (hrange : r.now + 60 < 2 ^ 32) :
    Timed l testDelay (mainTime + testDelay)
      ⟨(rebootInit i b r).portInfo, (rebootInit i b r).rebootParam,
        calls ++ (rebootInit i b r).calls⟩ := by
  have hstart : Flags.has (rebootInit i b r).rebootParam.rebootEvent rebootEventStart = true :=
    Flags.has_set_self (by decide) _
  have hdeadline : (rebootInit i b r).rebootParam.timeStartReboot.toNat = r.now + 15 := by
    have hdelay : b.timeDelay = 15 := h.timeDelay
    change (b.timeDelay + UInt32.ofNat r.now).toNat = r.now + 15
    rw [hdelay, UInt32.toNat_add, UInt32.toNat_ofNat', show (15 : UInt32).toNat = 15 from rfl]
    omega
  have hearly := hkept.early (by simp [hb])
  refine ⟨by simpa [rebootInit] using h.off, h.timeDelay, fun _ _ => ?_, fun _ hno => ?_, ?_⟩
  · change _ ≤ (rebootInit i b r).rebootParam.timeStartReboot.toNat + testDelay
    rw [hdeadline]
    omega
  · exact absurd (hstart.symm.trans hno) (by decide)
  · intro hup
    cases hup

/-- Once the power is cut: `n` ticks later the deadline is seen, or is still to be seen. -/
theorem timed_cut {due n : Nat} {down : PoeCall} {e : RebootEvent} (hl : l.Allowed testDelay)
    (hoff : OffLongEnough calls) (hdelay : b.timeDelay = 15)
    (hlast : (rebootCalls calls).getLast? = some down) (hdown : down.time ≤ due + l.cut)
    (hdeadline : due + 15 + l.early ≤ b.timeStartReboot.toNat + testDelay)
    (hstart : Flags.has e rebootEventStart = false)
    (hstop : Flags.has e rebootEventTimerStop = decide (UInt32.ofNat r.check ≥ b.timeStartReboot))
    (hseen : b.timeStartReboot ≤ UInt32.ofNat r.check → r.check ≤ due + n * testDelay + l.seen) :
    Timed l testDelay (due + n * testDelay + testDelay)
      ⟨i, { b with
        rebootState := if Flags.has e rebootEventTimerStop then .poeUp else .poeDown
        rebootEvent := e }, calls⟩ := by
  have hmul : (n + 1) * testDelay = n * testDelay + testDelay := Nat.succ_mul n testDelay
  refine ⟨hoff, hdelay, fun _ hyes => ?_, fun _ _ => ?_, fun hup => ?_⟩
  · exact absurd (hstart.symm.trans hyes) (by decide)
  · exact ⟨down, due, n + 1, hlast, by omega, by omega, hdown, hdeadline⟩
  · refine ⟨down, hlast, ?_⟩
    have hge : b.timeStartReboot ≤ UInt32.ofNat r.check := by
      by_contra hno
      rw [decide_eq_false hno] at hstop
      simp [hstop] at hup
    have hle : b.timeStartReboot.toNat ≤ r.check % 2 ^ 32 := UInt32.le_iff_toNat_le.mp hge
    have hcheck := hle.trans (Nat.mod_le _ _)
    have hlate := hseen hge
    have := hl (n + 1) (by omega) (by omega)
    omega

theorem timed_rebootPoeDown (hl : l.Allowed testDelay)
    (h : Timed l testDelay mainTime ⟨i, b, calls⟩) (hinv : PortInv ⟨i, b, calls⟩)
    (hb : b.rebootState = .poeDown) (hkept : l.Kept mainTime b r) :
    Timed l testDelay (mainTime + testDelay)
      ⟨(rebootPoeDown i b r).portInfo, (rebootPoeDown i b r).rebootParam,
        calls ++ (rebootPoeDown i b r).calls⟩ := by
  have hno : Flags.has b.rebootEvent rebootEventTimerStop = false := by
    by_contra hne
    have hup := hinv.stop.mp (by simpa using hne)
    exact absurd (hb.symm.trans hup) (by decide)
  obtain ⟨e, hstart, hstop, heq⟩ := rebootPoeDown_eq (i := i) hb r
  rw [hno, Bool.false_or] at hstop
  rw [heq]
  cases hs : Flags.has b.rebootEvent rebootEventStart with
  | true =>
    -- this tick cuts the power
    have hoff := offLongEnough_append h.off
      (c := ⟨i.paramPort.portNum, .poeDown, .rebootHandler, r.now⟩) rfl
      (fun _ _ _ hup => PoeControl.noConfusion hup)
    have hlast : (rebootCalls (calls ++
          [⟨i.paramPort.portNum, .poeDown, .rebootHandler, r.now⟩])).getLast? =
        some ⟨i.paramPort.portNum, .poeDown, .rebootHandler, r.now⟩ := by
      simp [rebootCalls]
    have hcut := timed_cut (n := 0) (i := i) hl hoff h.timeDelay hlast (hkept.cut hb hs)
      (h.armed hb hs) hstart hstop (by simpa using hkept.seen hb)
    simpa using hcut
  | false =>
    obtain ⟨down, due, n, hlast, -, rfl, hdown, hdeadline⟩ := h.cut hb hs
    have hcut := timed_cut (i := i) hl h.off h.timeDelay hlast hdown hdeadline hstart hstop
      (hkept.seen hb)
    simpa using hcut

theorem timed_rebootPoeUp (h : Timed l testDelay mainTime ⟨i, b, calls⟩)
    (hinv : PortInv ⟨i, b, calls⟩) (hb : b.rebootState = .poeUp) (hkept : l.Kept mainTime b r) :
    Timed l testDelay (mainTime + testDelay)
      ⟨(rebootPoeUp i b r).portInfo, (rebootPoeUp i b r).rebootParam,
        calls ++ (rebootPoeUp i b r).calls⟩ := by
  obtain ⟨e, c, -, -, heq⟩ := rebootPoeUp_eq (i := i) (hinv.stop.mpr hb) r
  rw [heq]
  obtain ⟨down, hlast, hdown⟩ := h.up hb
  have hearly := hkept.early (by simp [hb])
  refine Timed.of_powered (offLongEnough_append h.off rfl ?_) h.timeDelay (by simp) (by simp)
  intro down' hlast' _ _
  obtain rfl : down = down' := Option.some.inj (hlast.symm.trans hlast')
  exact hdown.trans hearly

/-- The tests leave a restart alone. -/
theorem timed_testErrorHandler (h : Timed l testDelay mainTime ⟨i, b, calls⟩)
    (hb : b.rebootState = .idle) (dp : DemonParam) (r : Reading) :
    Timed l testDelay (mainTime + testDelay)
      ⟨(testErrorHandler i b dp r).portInfo, (testErrorHandler i b dp r).rebootParam,
        calls ++ (testErrorHandler i b dp r).calls⟩ := by
  obtain ⟨hcalls, hreboot, -⟩ := testErrorHandler_cases i b dp r
  have happ : rebootCalls (calls ++ (testErrorHandler i b dp r).calls) = rebootCalls calls := by
    rw [rebootCalls_append, hcalls, List.append_nil]
  rw [hreboot]
  refine Timed.of_powered ?_ h.timeDelay (by simp [hb]) (by simp [hb])
  unfold OffLongEnough
  rw [happ]
  exact h.off

end Handlers

/-- **A turn in time keeps a port timed.** -/
theorem timed_tick {l : Lateness} {testDelay mainTime : Nat} {v : View} {r : Reading}
    (hl : l.Allowed testDelay) (h : Timed l testDelay mainTime v) (hinv : PortInv v)
    (henabled : Flags.has v.portInfo.paramPort.errorCode errPortDisable = false)
    (hkept : l.Kept mainTime v.rebootParam r) (hrange : r.now + 60 < 2 ^ 32) (dp : DemonParam) :
    Timed l testDelay (mainTime + testDelay) (v.tick dp r) := by
  obtain ⟨i, b, calls⟩ := v
  have hquiet : i.state ≠ .rebootState → b.rebootState = .idle := by
    intro hi
    by_contra hb
    exact hi (hinv.busy hb)
  simp only [View.tick, handlePort, henabled, Bool.false_eq_true, if_false]
  cases hi : i.state with
  | rebootState =>
    simp only [rebootHandler]
    cases hb : b.rebootState with
    | idle => exact timed_rebootIdle h hb dp r
    | init => exact timed_rebootInit h hb hkept hrange
    | poeDown => exact timed_rebootPoeDown hl h hinv hb hkept
    | poeUp => exact timed_rebootPoeUp h hinv hb hkept
  | regularSate =>
    exact timed_testErrorHandler h (hquiet (by simp [hi])) dp r
  | idleState =>
    have hb := hquiet (by simp [hi])
    exact Timed.of_powered (by simpa using h.off) h.timeDelay (by simp [hb]) (by simp [hb])

/-! ## Whole runs -/

/-- The invariant of a run whose ticks are in time. -/
structure TimedInv (late : PortNum → Lateness) (testDelay : UInt8) (d : Daemon) : Prop where
  inv : Inv d
  enabled : ∀ p, Flags.has (d.view p).portInfo.paramPort.errorCode errPortDisable = false
  testDelay_eq : d.demonParam.testDelay = testDelay
  timed : ∀ p, Timed (late p) testDelay.toNat d.demonParam.mainTime.toNat (d.view p)

/-- The readings of the tick fit `uint32_t`, with the next deadline. -/
def Event.InRange : Event → Prop
  | .tick r => r.now + 60 < 2 ^ 32 ∧ ∀ p : PortNum, (r.port p.val).now + 60 < 2 ^ 32
  | _ => True

/-- A tick that is due is scheduled anew. -/
theorem demonParam_step_of_due {d : Daemon} {r : Readings} (hdue : d.Due r) :
    (step d (.tick r)).demonParam = d.demonParam.advance := by
  simp only [step, mainHandler, if_pos hdue]
  rw [demonParam_turns]

theorem toNat_mainTime_advance {d : Daemon} {r : Readings} (hdue : d.Due r)
    (hrange : r.now + 60 < 2 ^ 32) (hdelay : d.demonParam.testDelay < 60) :
    d.demonParam.advance.mainTime.toNat =
      d.demonParam.mainTime.toNat + d.demonParam.testDelay.toNat := by
  have hle := le_of_due hdue
  have hlt : d.demonParam.testDelay.toNat < 60 := UInt8.lt_iff_toNat_lt.mp hdelay
  change (d.demonParam.mainTime + d.demonParam.testDelay.toUInt32).toNat = _
  rw [UInt32.toNat_add, UInt8.toNat_toUInt32]
  omega

theorem timedInv_step {late : PortNum → Lateness} {testDelay : UInt8} (hdelay : testDelay < 60)
    (hlate : ∀ p, (late p).Allowed testDelay.toNat) (d : Daemon) (e : Event)
    (h : TimedInv late testDelay d) (he : TurnsInTime late d e ∧ e.InRange) :
    TimedInv late testDelay (step d e) := by
  obtain ⟨hinv, henabled, htest, htimed⟩ := h
  obtain ⟨hkept, hrange⟩ := he
  have hinv' := inv_step d e hinv
  have henabled' := fun p => enabled_step hinv.1 e (henabled p)
  by_cases htick : ∃ r, TicksWith d e r
  · obtain ⟨r, rfl, hdue⟩ := htick
    have hdemon := demonParam_step_of_due hdue
    have hnext := toNat_mainTime_advance hdue hrange.1 (htest ▸ hdelay)
    rw [htest] at hnext
    refine ⟨hinv', henabled', by rw [hdemon]; exact htest, fun p => ?_⟩
    rw [hdemon, hnext, view_step_of_ticksWith hinv.1 ⟨rfl, hdue⟩]
    exact timed_tick (hlate p) (htimed p) (hinv.2 p) (henabled p) (hkept hdue p) (hrange.2 p) _
  · have hsame := restart_step hinv.1 fun r hr => htick ⟨r, hr⟩
    refine ⟨hinv', henabled', by rw [hsame.1]; exact htest, fun p => ?_⟩
    rw [hsame.1]
    exact (htimed p).of_eq (hsame.2 p).1 (hsame.2 p).2

/-- Every `time()` reading of a run, in order. -/
def timeReadings (es : List Event) : List Nat :=
  es.flatMap fun
    | .tick r => r.now :: ports.flatMap fun p => [(r.port p).now, (r.port p).check]
    | _ => []

theorem inRange_of_timeReadings {es : List Event} (h : ∀ t ∈ timeReadings es, t + 60 < 2 ^ 32)
    {e : Event} (he : e ∈ es) : e.InRange := by
  cases e with
  | manual q => trivial
  | results q code => trivial
  | tick r =>
    have hmem : ∀ t ∈ r.now :: ports.flatMap fun p => [(r.port p).now, (r.port p).check],
        t + 60 < 2 ^ 32 := fun t ht => h t (List.mem_flatMap.mpr ⟨_, he, ht⟩)
    refine ⟨hmem _ List.mem_cons_self, fun p => hmem _ (List.mem_cons_of_mem _ ?_)⟩
    exact List.mem_flatMap.mpr ⟨p.val, p.mem_ports, List.mem_cons_self⟩

/-- The invariant holds along the run. -/
theorem offLongEnough_run {c : Config} {now : Nat} {es : List Event} {late : PortNum → Lateness}
    (hlate : ∀ p, (late p).Allowed c.demon.testDelay.toNat)
    (hrange : ∀ t ∈ timeReadings es, t + 60 < 2 ^ 32)
    (hes : Runs.Meets step (TurnsInTime late) (mainInit c now) es) :
    Runs.Always step (fun d => ∀ p, OffLongEnough (d.view p).calls) (mainInit c now) es := by
  have hinit : TimedInv late c.demon.testDelay (mainInit c now) := by
    refine ⟨inv_mainInit c now, enabled_mainInit c now, rfl,
      fun p => Timed.of_powered ?_ rfl ?_ ?_⟩
    · intro i down up hi
      simp [Daemon.view, mainInit, rebootCalls] at hi
    · simp [Daemon.view, mainInit, rebootParamInit]
    · simp [Daemon.view, mainInit, rebootParamInit]
  have hmeets := hes.and_forall fun e he => inRange_of_timeReadings hrange he
  exact (Runs.always_of_meets (timedInv_step c.demon.testDelay_range.2 hlate) hinit hmeets).mono
    fun d h p => (h.timed p).off

/-- **With ticks in time, a restart keeps the power off for fifteen seconds.**  For
every configuration and every interleaving of manual requests, ticks and test
results of all ports, until the clock no longer fits `uint32_t`. -/
theorem off_long_enough (c : Config) (now : Nat) (es : List Event) (late : PortNum → Lateness)
    (hlate : ∀ p, (late p).Allowed c.demon.testDelay.toNat)
    (hrange : ∀ t ∈ timeReadings es, t + 60 < 2 ^ 32)
    (hes : Runs.Meets step (TurnsInTime late) (mainInit c now) es) :
    Runs.Always step (fun d => ∀ p, OffLongEnough (d.view p).calls) (mainInit c now) es :=
  offLongEnough_run hlate hrange hes

/-- **A daemon that is always late by the same time**, or on time, keeps the power off
for fifteen seconds. -/
theorem off_long_enough_of_lateBy (c : Config) (now k : Nat) (es : List Event)
    (hrange : ∀ t ∈ timeReadings es, t + 60 < 2 ^ 32)
    (hes : Runs.Meets step (LateBy k) (mainInit c now) es) :
    Runs.Always step (fun d => ∀ p, OffLongEnough (d.view p).calls) (mainInit c now) es :=
  offLongEnough_run (fun _ => Lateness.allowed_of_le (l := ⟨k, k, k⟩) le_rfl le_rfl _) hrange
    (hes.mono fun _ _ => turnsInTime_of_lateBy)

/-! ## Two runs -/

/-- A tick during which the clock does not move. -/
def tickAt (now : Nat) : Event := .tick ⟨now, fun _ => ⟨now, now, ""⟩⟩

/-- A manual restart of port 1 by a daemon that is one second late, and three seconds when
it sees the deadline. -/
theorem off_long_enough_in_time :
    Runs.Always step (fun d => ∀ p, OffLongEnough (d.view p).calls) (mainInit linkConfig 0)
      (.manual ⟨1, by decide, by decide⟩ :: [4, 7, 10, 13, 16, 19, 24, 25].map tickAt) := by
  have hlate : Lateness.Allowed ⟨1, 1, 3⟩ linkConfig.demon.testDelay.toNat := by
    have hdelay : linkConfig.demon.testDelay.toNat = 3 := rfl
    intro n _ hn
    rw [hdelay] at hn ⊢
    dsimp only at hn ⊢
    omega
  exact off_long_enough linkConfig 0 _ (fun _ => ⟨1, 1, 3⟩) (fun _ => hlate)
    (by decide +kernel) (by decide +kernel)

/-- The daemon stalls after the deadline was computed: the ticks that follow cut
the power and restore it in the same second. -/
theorem stall_cuts_power_for_no_time :
    (timeReadings (.manual ⟨1, by decide, by decide⟩ ::
        [3, 6, 100, 100].map tickAt)).Pairwise (· ≤ ·) ∧
      ¬ Runs.Always step (fun d => ∀ p, OffLongEnough (d.view p).calls) (mainInit linkConfig 0)
        (.manual ⟨1, by decide, by decide⟩ :: [3, 6, 100, 100].map tickAt) := by
  refine ⟨by decide +kernel, fun h => ?_⟩
  have hoff := h.last ⟨1, by decide, by decide⟩ 0
    ⟨1, .poeDown, .rebootHandler, 100⟩ ⟨1, .poeUp, .rebootHandler, 100⟩
    (by decide +kernel) (by decide +kernel) rfl rfl
  exact absurd hoff (by decide)

end TfPackages.Restart
