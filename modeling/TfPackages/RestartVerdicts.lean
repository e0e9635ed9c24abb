import TfPackages.RestartIntake
import TfPackages.RestartTests

/-! # The verdict bits of a port's test

`test_ErrorHandler` takes the bits of `errorCode` as the verdict of the latest
test: `ERR_OK` for a test that passed, one of three error bits for one that failed.
The test functions do not keep the two apart.  Only the ping test writes the whole
word when it passes; the link test takes back its own error bit and no other, and
the speed test takes back none.

`reflects_iff` says when one call leaves the verdict of this call, and
`verdicts_reflect_iff` carries it over to any sequence of calls.
-/
namespace TfPackages.Restart

/-- What one run of a test measures.  `ping` has two results, with or without an
answer of the host. -/
structure Outcome where
  /-- The line read from `/sys/class/net/lanN/operstate`. -/
  operstate : String
  /-- The reply time, if the host has answered. -/
  reply : Option UInt32
  /-- `rx_byte_current` -/
  rxBytes : UInt32
  /-- `time(NULL)` in `port_runTestSpeed`. -/
  now : Nat
deriving DecidableEq, Repr

/-- The result of `ping`. -/
def Outcome.pingResult (o : Outcome) : ErrorCode × UInt32 :=
  match o.reply with
  | some replyTime => (errOk, replyTime)
  | none => (errTestPing, 0)

def Outcome.measure (o : Outcome) : Measure :=
  ⟨o.operstate, fun _ => o.pingResult, o.rxBytes, o.now⟩

/-- A port with a link, ping or speed test that is not switched off. -/
structure TestedPort where
  port : ParamPort
  tested : port.test = .testLink ∨ port.test = .testPing ∨ port.test = .testSpeed
  enabled : Flags.has port.errorCode errPortDisable = false

/-- This run's check succeeds. -/
def Succeeds (p : ParamPort) (o : Outcome) : Prop :=
  o.operstate = "up\n" ∧
    match p.test with
    | .testPing => o.reply.isSome = true
    | .testSpeed => speedOutside p (UInt32.ofNat o.now - p.timePrev)
        (rxSpeedKbit (o.rxBytes - p.rxBytePrev) (UInt32.ofNat o.now - p.timePrev)) = false
    | _ => True

instance (p : ParamPort) (o : Outcome) : Decidable (Succeeds p o) := by
  unfold Succeeds
  cases p.test <;> infer_instance

/-- `errorCode` says that the last test succeeded, and only that; or that it failed,
and only that. -/
structure Says (errorCode : ErrorCode) (succeeded : Prop) : Prop where
  ok : Flags.has errorCode errOk = true ↔ succeeded
  failed : testFailed errorCode = true ↔ ¬ succeeded

/-- Neither `ERR_TEST_PING` nor `ERR_TEST_SPEED` is set. -/
def Unmarked (p : ParamPort) : Prop :=
  Flags.has p.errorCode errTestPing = false ∧ Flags.has p.errorCode errTestSpeed = false

/-! ## One call -/

/-- The code of a link test that has found the link up. -/
def linkUpCode (errorCode : ErrorCode) : ErrorCode :=
  Flags.set (Flags.clear errorCode errTestLink) errOk

/-- A code that was given an error bit says that the test failed. -/
theorem says_failed {c m : ErrorCode} (hm : m = errTestLink ∨ m = errTestSpeed ∨ m = errTestPing)
    {ok : Prop} (hok : ¬ ok) : Says (Flags.set (Flags.clear c errOk) m) ok := by
  have hno : Flags.has (Flags.set (Flags.clear c errOk) m) errOk = false := by
    rcases hm with rfl | rfl | rfl <;> simp (disch := decide) [Flags.has_set_of_disjoint]
  exact ⟨by simp [hno, hok], by simp [testFailed_set_test hm, hok]⟩

/-- A link that is up says that the test succeeded, if no other error bit was set. -/
theorem says_linkUp (p : ParamPort) {ok : Prop} (hok : ok) :
    Says (linkUpCode p.errorCode) ok ↔ Unmarked p := by
  have hset : Flags.has (linkUpCode p.errorCode) errOk = true :=
    Flags.has_set_self (by decide) _
  have hfailed : testFailed (linkUpCode p.errorCode) =
      (Flags.has p.errorCode errTestSpeed || Flags.has p.errorCode errTestPing) := by
    simp (disch := decide) [linkUpCode, testFailed, Flags.has_set_of_disjoint,
      Flags.has_clear_of_disjoint]
  constructor
  · rintro ⟨-, hno⟩
    have hfalse : testFailed (linkUpCode p.errorCode) = false := by
      rw [← Bool.not_eq_true, hno]
      exact not_not.mpr hok
    rw [hfailed, Bool.or_eq_false_iff] at hfalse
    exact ⟨hfalse.2, hfalse.1⟩
  · rintro ⟨hping, hspeed⟩
    exact ⟨by simp [hset, hok], by simp [hfailed, hping, hspeed, hok]⟩

theorem portRunTestLink_up (p : ParamPort) {m : Measure} (h : m.operstate = "up\n") :
    portRunTestLink p m = { p with errorCode := linkUpCode p.errorCode } := by
  simp [portRunTestLink, h, linkUpCode]

theorem portRunTestLink_down (p : ParamPort) {m : Measure} (h : m.operstate ≠ "up\n") :
    portRunTestLink p m = { p with
      errorCode := Flags.set (Flags.clear (linkUpCode p.errorCode) errOk) errTestLink } := by
  simp [portRunTestLink, h, linkUpCode]

theorem has_testLink_linkUpCode (c : ErrorCode) :
    Flags.has (linkUpCode c) errTestLink = false := by
  simp (disch := decide) [linkUpCode, Flags.has_set_of_disjoint]

/-- What the ping test leaves. -/
theorem portRunTestPing_eq (p : ParamPort) (o : Outcome) :
    (portRunTestPing p o.measure).test = p.test ∧
      (portRunTestPing p o.measure).errorCode =
        if o.reply.isSome = true then errOk
        else Flags.set (Flags.clear p.errorCode errOk) errTestPing := by
  have hping : o.measure.ping p.host = o.pingResult := rfl
  rw [portRunTestPing, hping, Outcome.pingResult]
  cases o.reply with
  | none => exact ⟨rfl, rfl⟩
  | some t => exact ⟨rfl, rfl⟩

/-- What the speed test leaves: nothing is taken back. -/
theorem portRunTestSpeed_code (p : ParamPort) (o : Outcome) :
    (portRunTestSpeed p o.measure).errorCode =
      if speedOutside p (UInt32.ofNat o.now - p.timePrev)
          (rxSpeedKbit (o.rxBytes - p.rxBytePrev) (UInt32.ofNat o.now - p.timePrev)) = true
      then Flags.set (Flags.clear p.errorCode errOk) errTestSpeed else p.errorCode :=
  rfl

/-- The link test fails, and with it every test. -/
theorem says_of_link_down (p : TestedPort) {o : Outcome} (h : o.operstate ≠ "up\n") {ok : Prop}
    (hok : ¬ ok) : Says (runTest p.port o.measure).errorCode ok := by
  have hlink := portRunTestLink_down p.port (m := o.measure) h
  have hbit : ∀ c, Flags.has (Flags.set (Flags.clear c errOk) errTestLink) errTestLink = true :=
    fun c => Flags.has_set_self (by decide) _
  have hsays := says_failed (c := linkUpCode p.port.errorCode) (.inl rfl) hok
  rcases p.tested with ht | ht | ht
  · simp only [runTest, ht, runTestLink, p.enabled, hlink]
    exact hsays
  · simp only [runTest, ht, runTestPing, p.enabled, hlink, hbit]
    exact hsays
  · simp only [runTest, ht, runTestSpeed, p.enabled, hlink, hbit]
    -- the speed test adds its own bit
    have hspeed : ∀ c, Flags.has (Flags.set c errTestSpeed) errOk = Flags.has c errOk :=
      fun c => Flags.has_set_of_disjoint (by decide) c
    exact ⟨by simpa [hspeed] using hsays.ok, by simp [testFailed_set_test, hok]⟩

/-- **What one call says.** -/
theorem reflects_iff (p : TestedPort) (o : Outcome) :
    Says (runTest p.port o.measure).errorCode (Succeeds p.port o) ↔
      (Succeeds p.port o → p.port.test = .testPing ∨ Unmarked p.port) := by
  by_cases hup : o.operstate = "up\n"
  · have hlink := portRunTestLink_up p.port (m := o.measure) hup
    rcases p.tested with ht | ht | ht
    · have hok : Succeeds p.port o := by simp [Succeeds, hup, ht]
      have hcode : (runTest p.port o.measure).errorCode = linkUpCode p.port.errorCode := by
        simp only [runTest, ht, runTestLink, p.enabled, hlink, Bool.false_eq_true, if_false]
      rw [hcode, says_linkUp p.port hok]
      simp [hok, ht]
    · have hcode : (runTest p.port o.measure).errorCode =
          if o.reply.isSome = true then errOk
          else Flags.set (Flags.clear (linkUpCode p.port.errorCode) errOk) errTestPing := by
        simp only [runTest, ht, runTestPing, p.enabled, hlink, Bool.false_eq_true, if_false,
          has_testLink_linkUpCode]
        exact (portRunTestPing_eq _ o).2
      have hok : Succeeds p.port o ↔ o.reply.isSome = true := by simp [Succeeds, hup, ht]
      refine ⟨fun _ _ => .inl ht, fun _ => ?_⟩
      rw [hcode]
      split
      · rename_i hsome
        have hs := hok.mpr hsome
        exact ⟨iff_of_true (by decide) hs, iff_of_false (by decide) (not_not.mpr hs)⟩
      · rename_i hnone
        exact says_failed (.inr (.inr rfl)) fun h => hnone (hok.mp h)
    · have hcode : (runTest p.port o.measure).errorCode =
          if Succeeds p.port o then linkUpCode p.port.errorCode
          else Flags.set (Flags.clear (linkUpCode p.port.errorCode) errOk) errTestSpeed := by
        have hok : Succeeds p.port o ↔
            speedOutside p.port (UInt32.ofNat o.now - p.port.timePrev)
              (rxSpeedKbit (o.rxBytes - p.port.rxBytePrev)
                (UInt32.ofNat o.now - p.port.timePrev)) = false := by
          simp [Succeeds, hup, ht]
        simp only [runTest, ht, runTestSpeed, p.enabled, hlink, Bool.false_eq_true, if_false,
          has_testLink_linkUpCode]
        rw [portRunTestSpeed_code]
        by_cases hs : Succeeds p.port o
        · rw [if_pos hs]
          exact if_neg (by rw [Bool.not_eq_true]; exact hok.mp hs)
        · rw [if_neg hs]
          exact if_pos (by rw [← Bool.not_eq_false]; exact fun h => hs (hok.mpr h))
      rw [hcode]
      split
      · rename_i hs
        rw [says_linkUp p.port hs]
        simp [hs, ht]
      · rename_i hs
        exact ⟨fun _ h => absurd h hs, fun _ => says_failed (.inr (.inl rfl)) hs⟩
  · have hno : ¬ Succeeds p.port o := fun h => hup h.1
    exact ⟨fun _ h => absurd h hno, fun _ => says_of_link_down p hup hno⟩

/-! ## Any sequence of calls -/

/-- The test and the bit that switches the port off stay as they are. -/
theorem runTest_keeps (p : TestedPort) (o : Outcome) :
    (runTest p.port o.measure).test = p.port.test ∧
      Flags.has (runTest p.port o.measure).errorCode errPortDisable = false := by
  have hlink : (portRunTestLink p.port o.measure).test = p.port.test ∧
      Flags.has (portRunTestLink p.port o.measure).errorCode errPortDisable = false := by
    refine ⟨rfl, ?_⟩
    unfold portRunTestLink
    simp only
    split <;>
      simp (disch := decide) [Flags.has_set_of_disjoint, Flags.has_clear_of_disjoint, p.enabled]
  have hmark : ∀ (c m : ErrorCode), m &&& errPortDisable = 0#32 →
      Flags.has c errPortDisable = false →
      Flags.has (Flags.set (Flags.clear c errOk) m) errPortDisable = false := by
    intro c m hm hc
    rw [Flags.has_set_of_disjoint hm, Flags.has_clear_of_disjoint (by decide), hc]
  rcases p.tested with ht | ht | ht
  · simp only [runTest, ht, runTestLink, p.enabled, Bool.false_eq_true, if_false]
    exact ⟨hlink.1.trans ht, hlink.2⟩
  · simp only [runTest, ht, runTestPing, p.enabled, Bool.false_eq_true, if_false]
    split
    · exact ⟨hlink.1.trans ht, hlink.2⟩
    · obtain ⟨htest, hcode⟩ := portRunTestPing_eq (portRunTestLink p.port o.measure) o
      rw [hcode]
      refine ⟨htest.trans (hlink.1.trans ht), ?_⟩
      split
      · decide
      · exact hmark _ _ (by decide) hlink.2
  · simp only [runTest, ht, runTestSpeed, p.enabled, Bool.false_eq_true, if_false]
    split
    · refine ⟨hlink.1.trans ht, ?_⟩
      rw [Flags.has_set_of_disjoint (by decide), hlink.2]
    · refine ⟨hlink.1.trans ht, ?_⟩
      simp only [portRunTestSpeed]
      split
      · exact hmark _ _ (by decide) hlink.2
      · exact hlink.2

/-- One call of the port's test function. -/
def callTest (p : TestedPort) (o : Outcome) : TestedPort where
  port := runTest p.port o.measure
  tested := by rw [(runTest_keeps p o).1]; exact p.tested
  enabled := (runTest_keeps p o).2

/-- The call leaves the verdict of this run. -/
def Reflects (p : TestedPort) (o : Outcome) : Prop :=
  Says (callTest p o).port.errorCode (Succeeds p.port o)

/-- A check that succeeds finds no error bit that it would not take back. -/
def NothingStale (p : TestedPort) (o : Outcome) : Prop :=
  Succeeds p.port o → p.port.test = .testPing ∨ Unmarked p.port

/-- **The verdict bits reflect the latest run, in every call of a sequence, exactly
if no check that succeeds finds an error bit left by an earlier one.** -/
theorem verdicts_reflect_iff (p : TestedPort) (os : List Outcome) :
    Runs.Meets callTest Reflects p os ↔ Runs.Meets callTest NothingStale p os := by
  induction os generalizing p with
  | nil => exact Iff.rfl
  | cons o os ih => exact and_congr (reflects_iff p o) (ih (callTest p o))

/-- Port 1 at start-up, with a speed test without bounds. -/
def speedPort : TestedPort where
  port := { paramPortInit 1 with test := .testSpeed }
  tested := .inr (.inr rfl)
  enabled := by decide

/-- The link is down in one second and up in the next. -/
def linkReturns : List Outcome := [⟨"down\n", none, 0, 1⟩, ⟨"up\n", none, 0, 2⟩]

/-- Once a speed test has failed, it says so after every later run that passes. -/
theorem passed_speed_test_marked : ¬ Runs.Meets callTest Reflects speedPort linkReturns := by
  rintro ⟨-, h, -⟩
  exact h.failed.mp (by decide) (by decide)

end TfPackages.Restart
