import TfPackages.RestartInvariant

/-! # The tests of the ports, and who runs them

The test functions `runTestLink`, `runTestPing` and `runTestSpeed` leave their
verdict in `errorCode`, where `test_ErrorHandler` looks for it.  In the source
they are started by `createTread`, one thread a port, and the calls of
`createTread` and `joinThread` in `mainHandler` are commented out.

`Round` is one round of the loop of `mainApp`, with everything the environment
decides: the message in the pipe, the clock, and what each port's test would
measure if it were run.  `mainRound` does not look at the last.  The test-result
bits of a port therefore keep what start-up left in them, nothing, and no round
ever asks for an automatic restart.
-/
namespace TfPackages.Restart

/-! ## The test functions -/

/-- What a port's test measures. -/
structure Measure where
  /-- The line read from `/sys/class/net/lanN/operstate`. -/
  operstate : String
  /-- The result and the reply time of `ping` for a host. -/
  ping : String → ErrorCode × UInt32
  /-- `(int32_t) strtol(output, NULL, 10)` of `statistics/rx_bytes`, as stored. -/
  rxBytes : UInt32
  /-- `time(NULL)` in `port_runTestSpeed`. -/
  now : Nat

/-- `port_runTestDisable`. -/
def portRunTestDisable (p : ParamPort) : ParamPort :=
  { p with errorCode := Flags.set (Flags.clear p.errorCode errOk) errTestDisable }

/-- `port_runTestLink`. -/
def portRunTestLink (p : ParamPort) (m : Measure) : ParamPort :=
  let errorCode := Flags.set (Flags.clear p.errorCode errTestLink) errOk
  { p with
    errorCode := if m.operstate ≠ "up\n" then
      Flags.set (Flags.clear errorCode errOk) errTestLink else errorCode }

/-- `port_runTestPing`. -/
def portRunTestPing (p : ParamPort) (m : Measure) : ParamPort :=
  let (pingResult, replyTime) := m.ping p.host
  if pingResult = errTestPing then
    { p with errorCode := Flags.set (Flags.clear p.errorCode errOk) errTestPing }
  else if pingResult = errOk then { p with replyTime := replyTime, errorCode := errOk }
  else p

/-- The rate `port_runTestSpeed` computes, in `uint32_t` arithmetic. -/
def rxSpeedKbit (rxDeltaByte deltaTime : UInt32) : UInt32 :=
  let rxDeltaBit := rxDeltaByte * 8
  if deltaTime = 0 then rxDeltaBit else rxDeltaBit / deltaTime / 1000

/-- The rate is outside the configured bounds, or no time has passed. -/
def speedOutside (p : ParamPort) (deltaTime speed : UInt32) : Bool :=
  deltaTime = 0 ∨ (p.minSpeed ≠ 0 ∧ speed < p.minSpeed) ∨ (p.maxSpeed ≠ 0 ∧ speed > p.maxSpeed)

/-- `port_runTestSpeed`. -/
def portRunTestSpeed (p : ParamPort) (m : Measure) : ParamPort :=
  let rxDeltaByte := m.rxBytes - p.rxBytePrev
  let deltaTime := UInt32.ofNat m.now - p.timePrev
  let speed := rxSpeedKbit rxDeltaByte deltaTime
  { p with
    rxByteCurrent := m.rxBytes
    rxDeltaByte := rxDeltaByte
    rxBytePrev := m.rxBytes
    timeCurrent := UInt32.ofNat m.now
    timePrev := UInt32.ofNat m.now
    errorCode := if speedOutside p deltaTime speed then
      Flags.set (Flags.clear p.errorCode errOk) errTestSpeed else p.errorCode
    rxSpeedKbit := speed }

/-- `runTestLink`. -/
def runTestLink (p : ParamPort) (m : Measure) : ParamPort :=
  if Flags.has p.errorCode errPortDisable then p else portRunTestLink p m

/-- `runTestPing`. -/
def runTestPing (p : ParamPort) (m : Measure) : ParamPort :=
  if Flags.has p.errorCode errPortDisable then p
  else
    let p := portRunTestLink p m
    if Flags.has p.errorCode errTestLink then p else portRunTestPing p m

/-- `runTestSpeed`. -/
def runTestSpeed (p : ParamPort) (m : Measure) : ParamPort :=
  if Flags.has p.errorCode errPortDisable then p
  else
    let p := portRunTestLink p m
    if Flags.has p.errorCode errTestLink then
      { p with errorCode := Flags.set p.errorCode errTestSpeed }
    else portRunTestSpeed p m

/-- The table `runTest`, for the three tests that look at the network. -/
def runTest (p : ParamPort) (m : Measure) : ParamPort :=
  match p.test with
  | .testLink => runTestLink p m
  | .testPing => runTestPing p m
  | .testSpeed => runTestSpeed p m
  | .testDisable => portRunTestDisable p
  | .testTime => p

/-- The port's test, if it were run now, would fail. -/
def TestFails (p : ParamPort) (m : Measure) : Prop := testFailed (runTest p m).errorCode = true

instance (p : ParamPort) (m : Measure) : Decidable (TestFails p m) :=
  inferInstanceAs (Decidable (_ = true))

/-! ## The daemon's loop -/

/-- One round of the loop of `mainApp`, as the environment decides it. -/
structure Round where
  /-- The port of the `cmd_reboot` message in the pipe, if there is one. -/
  request : Option PortNum
  readings : Readings
  /-- What the test of each port would measure. -/
  measure : PortNum → Measure

/-- The manual request of a round, carried out. -/
def readPipe (d : Daemon) (r : Round) : Daemon :=
  match r.request with
  | some p => step d (.manual p)
  | none => d

/-- One round: the pipe is read, then `mainHandler` is called. -/
def mainRound (d : Daemon) (r : Round) : Daemon := step (readPipe d r) (.tick r.readings)

/-- `mainHandler` does its work in this round. -/
def Ticks (d : Daemon) (r : Round) : Prop := d.Due r.readings

instance (d : Daemon) (r : Round) : Decidable (Ticks d r) :=
  inferInstanceAs (Decidable (d.Due r.readings))

/-- The number of rounds of a run in which `mainHandler` does its work. -/
def tickCount : Daemon → List Round → Nat
  | _, [] => 0
  | d, r :: rs => (if Ticks d r then 1 else 0) + tickCount (mainRound d r) rs

/-! ## What the daemon promises -/

/-- The port is tested and nothing is wrong with it yet. -/
structure Watched (d : Daemon) (p : PortNum) : Prop where
  test : (d.portInfoArr p.val).paramPort.test ∈ [.testLink, .testPing, .testSpeed]
  state : (d.portInfoArr p.val).state = .regularSate
  count : (d.portInfoArr p.val).paramPort.errorTestCount = 0
  event : (d.portInfoArr p.val).event = idleEvent
  resets : (d.portInfoArr p.val).paramPort.resetCount < d.demonParam.maxReset

/-- At every tick of the run the port's test would fail. -/
def FailsThroughout (p : PortNum) : Daemon → List Round → Prop :=
  Runs.Meets mainRound fun d r =>
    Ticks d r → TestFails (d.portInfoArr p.val).paramPort (r.measure p)

instance (p : PortNum) (d : Daemon) (rs : List Round) : Decidable (FailsThroughout p d rs) :=
  Runs.Meets.decidable ..

/-- At every tick of the run the port's test would pass. -/
def PassesThroughout (p : PortNum) : Daemon → List Round → Prop :=
  Runs.Meets mainRound fun d r =>
    Ticks d r → ¬ TestFails (d.portInfoArr p.val).paramPort (r.measure p)

/-- `test_num` failing ticks put the port into `REBOOT_STATE` with
`AUTO_RESTART`. -/
def RestartsFailing (d : Daemon) (p : PortNum) (rs : List Round) : Prop :=
  Watched d p → FailsThroughout p d rs → tickCount d rs = d.demonParam.testNum.toNat →
    Runs.Reaches mainRound (fun d => (d.portInfoArr p.val).state = .rebootState ∧
      Flags.has (d.portInfoArr p.val).event autoRestart = true) d rs

/-- A port whose test passes is not restarted unless someone asks for it. -/
def SparesPassing (d : Daemon) (p : PortNum) (rs : List Round) : Prop :=
  (d.portInfoArr p.val).state ≠ .rebootState → (∀ r ∈ rs, r.request ≠ some p) →
    PassesThroughout p d rs →
    Runs.Always mainRound (fun d => (d.portInfoArr p.val).state ≠ .rebootState) d rs

/-! ## What a failed test is -/

theorem testFailed_set {c m : ErrorCode} (hc : testFailed c = false)
    (hm : m &&& (errTestLink ||| errTestSpeed ||| errTestPing) = 0#32) :
    testFailed (Flags.set c m) = false := by
  have hl : m &&& errTestLink = 0#32 ∧ m &&& errTestSpeed = 0#32 ∧ m &&& errTestPing = 0#32 := by
    simp only [BitVec.and_or_distrib_left, BitVec.or_eq_zero_iff] at hm
    exact ⟨hm.1.1, hm.1.2, hm.2⟩
  unfold testFailed at hc ⊢
  rw [Flags.has_set_of_disjoint hl.1, Flags.has_set_of_disjoint hl.2.1,
    Flags.has_set_of_disjoint hl.2.2]
  exact hc

theorem testFailed_clear {c : ErrorCode} (hc : testFailed c = false) (m : ErrorCode) :
    testFailed (Flags.clear c m) = false := by
  by_contra hne
  have hany : testFailed (Flags.clear c m) = true := by simpa using hne
  simp only [testFailed, Bool.or_eq_true] at hany
  simp only [testFailed, Bool.or_eq_false_iff] at hc
  rcases hany with (h | h) | h
  · rw [Flags.has_of_has_clear h] at hc
    exact absurd hc.1.1 (by decide)
  · rw [Flags.has_of_has_clear h] at hc
    exact absurd hc.1.2 (by decide)
  · rw [Flags.has_of_has_clear h] at hc
    exact absurd hc.2 (by decide)

theorem testFailed_set_test {c m : ErrorCode}
    (hm : m = errTestLink ∨ m = errTestSpeed ∨ m = errTestPing) :
    testFailed (Flags.set c m) = true := by
  rcases hm with rfl | rfl | rfl <;>
    simp (disch := decide) [testFailed, Flags.has_set_self]

/-! ## No verdict ever arrives -/

/-- The port has no verdict of a failed test and no automatic restart pending. -/
structure Untested (i : PortInfo) : Prop where
  code : testFailed i.paramPort.errorCode = false
  event : Flags.has i.event autoRestart = false

/-- Without a failed test the counter does not ask for a restart. -/
theorem untested_countErrors {i : PortInfo} (h : Untested i) (dp : DemonParam) :
    Untested (countErrors i dp) ∧ (countErrors i dp).state = i.state := by
  unfold countErrors
  rw [if_neg (by simp [h.code])]
  exact ⟨⟨h.code, h.event⟩, rfl⟩

theorem untested_switchOnAlarm {i : PortInfo} (h : Untested i) (r : Reading) :
    Untested (switchOnAlarm i r).1 ∧ (switchOnAlarm i r).1.state = i.state := by
  unfold switchOnAlarm
  simp only
  split
  · exact ⟨⟨testFailed_clear h.code _, h.event⟩, rfl⟩
  · exact ⟨h, rfl⟩

theorem untested_rebootHandler {i : PortInfo} (h : Untested i) (b : RebootParam) (dp : DemonParam)
    (r : Reading) : Untested (rebootHandler i b dp r).portInfo := by
  unfold rebootHandler
  split
  · unfold rebootIdle
    rw [if_neg (by simp [h.event])]
    simp only
    split
    · have hcode := testFailed_clear (testFailed_clear h.code errOk) errPortShutdown
      refine ⟨testFailed_set hcode (by decide), ?_⟩
      exact (Flags.has_clear_of_disjoint (by decide) _).trans h.event
    · exact h
  · exact h
  · exact h
  · have hcode := testFailed_clear (testFailed_clear h.code errRebooting) errManualReboot
    simp only [rebootPoeUp, PortInfo.mapCode]
    split_ifs
    · exact ⟨hcode, h.event⟩
    · exact h
    · exact ⟨hcode, h.event⟩
    · exact h

/-- **A tick leaves an untested port untested**, and outside `REBOOT_STATE` if it
was outside. -/
theorem untested_handlePort {i : PortInfo} (h : Untested i) (b : RebootParam) (dp : DemonParam)
    (r : Reading) :
    Untested (handlePort i b dp r).portInfo ∧
      (i.state ≠ .rebootState → (handlePort i b dp r).portInfo.state ≠ .rebootState) := by
  unfold handlePort
  split
  · exact ⟨h, id⟩
  split
  · rename_i hs
    exact ⟨untested_rebootHandler h b dp r, fun hne => absurd hs hne⟩
  · obtain ⟨hcount, hstate⟩ := untested_countErrors h dp
    obtain ⟨halarm, hstate'⟩ := untested_switchOnAlarm hcount r
    refine ⟨halarm, fun hne => ?_⟩
    have hsame : (testErrorHandler i b dp r).portInfo.state = i.state := hstate'.trans hstate
    rw [hsame]
    exact hne
  · exact ⟨h, id⟩

/-- The invariant of the daemon as it is run. -/
def UntestedInv (d : Daemon) : Prop := Numbered d ∧ ∀ p : PortNum, Untested (d.portInfoArr p.val)

theorem untestedInv_mainInit (c : Config) (now : Nat) : UntestedInv (mainInit c now) := by
  refine ⟨numbered_mainInit c now, fun p => ⟨?_, ?_⟩⟩
  · have hno := (c.port p.val).no_results
    simp only [BitVec.and_or_distrib_left, BitVec.or_eq_zero_iff] at hno
    show testFailed (c.port p.val).errorCode = false
    rw [testFailed, Flags.has_eq_false_iff.mpr hno.1.1.1.2, Flags.has_eq_false_iff.mpr hno.1.2,
      Flags.has_eq_false_iff.mpr hno.1.1.2]
    rfl
  · show Flags.has idleEvent autoRestart = false
    decide

theorem untested_requestReboot {i : PortInfo} (h : Untested i) : Untested (requestReboot i) := by
  unfold requestReboot
  split
  · exact ⟨h.code, show Flags.has manualRestart autoRestart = false by decide⟩
  · exact h

theorem untested_readPipe {d : Daemon} (h : UntestedInv d) (r : Round) :
    UntestedInv (readPipe d r) ∧ ∀ p : PortNum, r.request ≠ some p →
      (readPipe d r).portInfoArr p.val = d.portInfoArr p.val := by
  unfold readPipe
  cases hr : r.request with
  | none => exact ⟨h, fun _ _ => rfl⟩
  | some q =>
    have hport : ∀ p : PortNum, (step d (.manual q)).portInfoArr p.val =
        if p = q then requestReboot (d.portInfoArr p.val) else d.portInfoArr p.val := by
      intro p
      have hview := congrArg View.portInfo (view_step h.1 (.manual q) p)
      refine hview.trans ?_
      simp only
      split <;> rfl
    refine ⟨⟨numbered_step d _ h.1, fun p => ?_⟩, fun p hp => ?_⟩
    · rw [hport]
      split
      · exact untested_requestReboot (h.2 p)
      · exact h.2 p
    · rw [hport, if_neg fun heq => hp (by rw [heq])]

/-- **A round leaves every port untested**, and outside `REBOOT_STATE` if nobody
asked for it. -/
theorem untested_mainRound {d : Daemon} (h : UntestedInv d) (r : Round) :
    UntestedInv (mainRound d r) ∧ ∀ p : PortNum, r.request ≠ some p →
      (d.portInfoArr p.val).state ≠ .rebootState →
      ((mainRound d r).portInfoArr p.val).state ≠ .rebootState := by
  obtain ⟨hpipe, hsame⟩ := untested_readPipe h r
  have hport : ∀ p : PortNum, Untested ((mainRound d r).portInfoArr p.val) ∧
      (((readPipe d r).portInfoArr p.val).state ≠ .rebootState →
        ((mainRound d r).portInfoArr p.val).state ≠ .rebootState) := by
    intro p
    have hview : (mainRound d r).portInfoArr p.val = _ :=
      congrArg View.portInfo (view_step hpipe.1 (.tick r.readings) p)
    rw [hview]
    simp only
    split
    · exact untested_handlePort (hpipe.2 p) _ _ _
    · exact ⟨hpipe.2 p, id⟩
  refine ⟨⟨numbered_step _ _ hpipe.1, fun p => (hport p).1⟩, fun p hp hs => ?_⟩
  refine (hport p).2 ?_
  rw [hsame p hp]
  exact hs

theorem untestedInv_always {d : Daemon} (h : UntestedInv d) (rs : List Round) :
    Runs.Always mainRound UntestedInv d rs := by
  refine Runs.always_of_step ?_ h rs
  intro d' r h'
  exact (untested_mainRound h' r).1

/-- No round of the daemon asks for an automatic restart. -/
theorem not_reaches_autoRestart {d : Daemon} (h : UntestedInv d) (p : PortNum) (rs : List Round) :
    ¬ Runs.Reaches mainRound (fun d => (d.portInfoArr p.val).state = .rebootState ∧
      Flags.has (d.portInfoArr p.val).event autoRestart = true) d rs := by
  refine ((untestedInv_always h rs).mono ?_).not_reaches
  rintro d' h' ⟨-, ha⟩
  rw [(h'.2 p).event] at ha
  cases ha

/-- A port nobody asks for is never restarted, whatever its test would say. -/
theorem always_outside_reboot {d : Daemon} (h : UntestedInv d) (p : PortNum) (rs : List Round)
    (hs : (d.portInfoArr p.val).state ≠ .rebootState) (hreq : ∀ r ∈ rs, r.request ≠ some p) :
    Runs.Always mainRound (fun d => (d.portInfoArr p.val).state ≠ .rebootState) d rs := by
  induction rs generalizing d with
  | nil => exact hs
  | cons r rs ih =>
    obtain ⟨hinv, hkeep⟩ := untested_mainRound h r
    exact ⟨hs, ih hinv (hkeep p (hreq r List.mem_cons_self) hs)
      fun x hx => hreq x (List.mem_cons_of_mem _ hx)⟩

/-- **The daemon keeps its promise only to ports that do not fail.**  In every
state the daemon can reach and for every environment, the promise is kept exactly
when it is not the case that a watched port's test would fail at each of
`test_num` ticks. -/
theorem restarts_failing_iff (c : Config) (now : Nat) (before : List Round) (p : PortNum)
    (rs : List Round) :
    let d := Runs.exec mainRound (mainInit c now) before
    RestartsFailing d p rs ∧ SparesPassing d p rs ↔
      ¬ (Watched d p ∧ FailsThroughout p d rs ∧ tickCount d rs = d.demonParam.testNum.toNat) := by
  intro d
  have hinv : UntestedInv d := (untestedInv_always (untestedInv_mainInit c now) before).last
  constructor
  · rintro ⟨hrestart, -⟩ ⟨hw, hfail, hcount⟩
    exact not_reaches_autoRestart hinv p rs (hrestart hw hfail hcount)
  · intro hnot
    refine ⟨fun hw hfail hcount => absurd ⟨hw, hfail, hcount⟩ hnot, ?_⟩
    exact fun hs hreq _ => always_outside_reboot hinv p rs hs hreq

/-- A round in which the link of every port is down. -/
def linkDownAt (now : Nat) : Round where
  request := none
  readings := ⟨now, fun _ => ⟨now, now, ""⟩⟩
  measure _ := ⟨"down\n", fun _ => (errTestPing, 0), 0, now⟩

/-- Ten ticks with the link down: the link test of port 1 would fail at each of
them, and port 1 is not restarted. -/
theorem link_down_not_restarted :
    ¬ RestartsFailing (mainInit linkConfig 0) ⟨1, by decide, by decide⟩
      ([3, 6, 9, 12, 15, 18, 21, 24, 27, 30].map linkDownAt) := by
  intro h
  refine not_reaches_autoRestart (untestedInv_mainInit linkConfig 0) _ _ (h ?_ ?_ ?_)
  · exact ⟨by decide +kernel, by decide +kernel, by decide +kernel, by decide +kernel,
      by decide +kernel⟩
  · decide +kernel
  · decide +kernel

end TfPackages.Restart
