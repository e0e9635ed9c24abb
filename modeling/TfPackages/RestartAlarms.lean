import TfPackages.RestartIntake
import TfPackages.RestartInvariant

/-! # Switching a port at a time of day

A port with the time test has two alarms, `timeUp` and `timeDown`.  Each keeps the
moment it is due next in `targetTime`.  `port_runTestTime` looks at the clock and
hands an alarm over in two parts, the bit `ERR_TIME_ALARM` and a `remainTime` of 0;
`test_ErrorHandler` then calls `poe_Control`, if the port is in `REGULAR_SATE`.

`timeAlarm` prepares the next moment from the configured time and then reads the
local time again, so that the next alarm is due a day after this tick, however late
the tick is.  And a tick during a restart hands the alarm over to nobody: at the
next tick `remainTime` is no longer 0.

`schedule_kept` says that the schedule is kept by every run without such ticks.
-/
namespace TfPackages.Restart
open Scanf

/-! ## The local time -/

/-- The fields of `struct tm` the daemon uses.  The date is a number of days. -/
structure BrokenDownTime where
  mday : Int
  hour : Int
  min : Int
  sec : Int
deriving DecidableEq, Repr

/-- `localtime` at a fixed offset from UTC, in seconds. -/
def localtime (offset : Int) (time : Nat) : BrokenDownTime :=
  let seconds := time + offset
  ⟨seconds / 86400, seconds % 86400 / 3600, seconds % 3600 / 60, seconds % 60⟩

/-- `mktime`. -/
def mktime (offset : Int) (t : BrokenDownTime) : Int :=
  t.mday * 86400 + t.hour * 3600 + t.min * 60 + t.sec - offset

/-! ## The test -/

/-- `timeAlarm`.  What is stored in `timeInfo` first, the configured time, is gone
when `localtime` fills it for the second time. -/
def timeAlarm (offset : Int) (now : Nat) (alarm : TimeHM) : TimeHM × ErrorCode :=
  if now ≥ alarm.targetTime.toNat then
    let timeInfo := localtime offset now
    let timeInfo := { timeInfo with mday := timeInfo.mday + 1 }
    ({ alarm with targetTime := UInt32.ofInt (mktime offset timeInfo), remainTime := 0 },
      errTimeAlarm)
  else ({ alarm with remainTime := UInt32.ofNat (alarm.targetTime.toNat - now) }, errOk)

/-- `port_runTestTime`. -/
def portRunTestTime (offset : Int) (now : Nat) (p : ParamPort) : ParamPort :=
  let (timeUp, upCode) := timeAlarm offset now p.timeUp
  let (timeDown, downCode) := timeAlarm offset now p.timeDown
  { p with
    timeUp := timeUp
    timeDown := timeDown
    errorCode := Flags.set (Flags.set (Flags.clear p.errorCode errOk) upCode) downCode }

/-- The alarm that switches the power in this direction. -/
def ParamPort.alarm (p : ParamPort) : PoeControl → TimeHM
  | .poeUp => p.timeUp
  | .poeDown => p.timeDown

/-! ## A port with the time test -/

/-- A time of day. -/
structure ClockTime where
  hour : Nat
  min : Nat
  hour_le : hour ≤ 23
  min_le : min ≤ 59
deriving DecidableEq, Repr

/-- The text is read as this time. -/
def ReadsAs (overflow : Int → Int) (timeStr : List Char) (t : ClockTime) : Prop :=
  ∃ hour min, sscanfTime timeStr = some (hour, min) ∧
    toInt overflow hour = t.hour ∧ toInt overflow min = t.min

/-- A port with the time test, and the two times it is configured with. -/
structure TimedPort where
  offset : Int
  /-- `time(NULL)` in `port_setTimeParam`. -/
  start : Nat
  overflow : Int → Int
  line : PortTexts (List Char)
  port : Nat
  demonParam : DemonParam
  time : PoeControl → ClockTime
  timed : getCmdKey line.state = some .testTime
  up : ReadsAs overflow line.timeUp (time .poeUp)
  down : ReadsAs overflow line.timeDown (time .poeDown)

namespace TimedPort
variable (p : TimedPort)

/-- The clock and the C library at start-up. -/
def clock : Clock where
  now := p.start
  timePrev := UInt32.ofNat p.start
  mktime := fun tomorrow hour min =>
    let timeInfo := localtime p.offset p.start
    UInt32.ofInt (mktime p.offset
      ⟨timeInfo.mday + (if tomorrow then 1 else 0), hour.toNat, min.toNat, 0⟩)
  overflow := p.overflow

/-- The port after `mainInit`. -/
def init : View where
  portInfo := ⟨getPortParam p.clock p.line p.port, idleEvent, .regularSate⟩
  rebootParam := rebootParamInit
  calls := []

end TimedPort

/-- What happens to the port. -/
inductive AlarmEvent where
  /-- The port is tested, and then has its turn in `mainHandler`. -/
  | tick (r : Reading)
  /-- A manual restart is asked for. -/
  | request

def AlarmEvent.tick? : AlarmEvent → Option Nat
  | .tick r => some r.now
  | .request => none

/-- One step of the port. -/
def TimedPort.step (p : TimedPort) (v : View) : AlarmEvent → View
  | .tick r =>
    let tested := portRunTestTime p.offset r.now v.portInfo.paramPort
    { v with portInfo := { v.portInfo with paramPort := tested } }.tick p.demonParam r
  | .request => { v with portInfo := requestReboot v.portInfo }

/-- A run of the port.  `runTimer` puts the first tick a second or more after the
start. -/
structure TimedRun (p : TimedPort) where
  events : List AlarmEvent
  start_lt : ∀ t ∈ events.filterMap AlarmEvent.tick?, p.start < t
  ordered : (events.filterMap AlarmEvent.tick?).Pairwise (· ≤ ·)

/-- The times of the ticks. -/
def TimedRun.ticks {p : TimedPort} (run : TimedRun p) : List Nat :=
  run.events.filterMap AlarmEvent.tick?

/-! ## The schedule -/

/-- The moment of an alarm on a day. -/
def TimedPort.moment (p : TimedPort) (c : PoeControl) (day : Int) : Int :=
  mktime p.offset ⟨day, (p.time c).hour, (p.time c).min, 0⟩

/-- When `test_ErrorHandler` has switched the power in this direction. -/
def alarmTimes (c : PoeControl) (calls : List PoeCall) : List Nat :=
  (calls.filter fun k => k.caller = .testErrorHandler ∧ k.control = c).map (·.time)

/-- The local time of both targets is the configured time, to the second. -/
def TimedPort.OnTheMinute (p : TimedPort) (v : View) : Prop :=
  ∀ c, ∃ day, localtime p.offset (v.portInfo.paramPort.alarm c).targetTime.toNat =
    ⟨day, (p.time c).hour, (p.time c).min, 0⟩

/-- **The schedule is kept**: every target is at the configured time, and for every
moment between the first and the last tick the power is switched once, within a day. -/
structure KeepsSchedule (p : TimedPort) (run : TimedRun p) : Prop where
  target : Runs.Always p.step p.OnTheMinute p.init run.events
  switched : ∀ c day, (∃ t ∈ run.ticks.head?, (t : Int) ≤ p.moment c day) →
    (∃ t ∈ run.ticks.getLast?, p.moment c day ≤ t) →
    (alarmTimes c (Runs.exec p.step p.init run.events).calls).countP
      (fun t : Nat => p.moment c day ≤ t ∧ (t : Int) < p.moment c day + 86400) = 1

/-- The moments of the day of the start can be stored as times, and so can the day
after it. -/
def TimedPort.InRange (p : TimedPort) : Prop :=
  (∀ c, 0 ≤ p.moment c (localtime p.offset p.start).mday) ∧ p.start + 86400 < 2 ^ 32

/-- An alarm that is due is due in this second, outside of a restart, and the day
after can be stored as a time. -/
def Punctual (v : View) : AlarmEvent → Prop
  | .tick r => ∀ c, (v.portInfo.paramPort.alarm c).targetTime.toNat ≤ r.now →
      (v.portInfo.paramPort.alarm c).targetTime.toNat = r.now ∧
        v.portInfo.state = .regularSate ∧ r.now + 86400 < 2 ^ 32
  | .request => True

/-! ## One tick -/

theorem toNat_ofInt_of_lt {v : Int} (h0 : 0 ≤ v) (hlt : v < 2 ^ 32) :
    ((UInt32.ofInt v).toNat : Int) = v := by
  rw [UInt32.ofInt, UInt32.toNat_ofNat']
  omega

/-- The same time a day later. -/
theorem mktime_tomorrow (offset : Int) (now : Nat) :
    mktime offset { localtime offset now with mday := (localtime offset now).mday + 1 } =
      now + 86400 := by
  simp only [mktime, localtime]
  omega

theorem timeAlarm_of_due (offset : Int) {now : Nat} {a : TimeHM} (h : a.targetTime.toNat ≤ now)
    (hrange : now + 86400 < 2 ^ 32) :
    (timeAlarm offset now a).1.targetTime.toNat = now + 86400 ∧
      (timeAlarm offset now a).1.remainTime = 0 ∧ (timeAlarm offset now a).2 = errTimeAlarm := by
  rw [timeAlarm, if_pos h]
  refine ⟨?_, rfl, rfl⟩
  have hstored := toNat_ofInt_of_lt (v := now + 86400) (by omega) (by omega)
  simp only [mktime_tomorrow]
  omega

theorem timeAlarm_of_not_due (offset : Int) {now : Nat} {a : TimeHM}
    (h : ¬ a.targetTime.toNat ≤ now) :
    (timeAlarm offset now a).1.targetTime = a.targetTime ∧
      (timeAlarm offset now a).1.remainTime ≠ 0 := by
  rw [timeAlarm, if_neg h]
  refine ⟨rfl, fun hzero => ?_⟩
  have hremain := congrArg UInt32.toNat hzero
  rw [UInt32.toNat_ofNat'] at hremain
  have hlt := a.targetTime.toNat_lt
  have h0 : (0 : UInt32).toNat = 0 := rfl
  omega

theorem alarm_portRunTestTime (offset : Int) (now : Nat) (q : ParamPort) (c : PoeControl) :
    (portRunTestTime offset now q).alarm c = (timeAlarm offset now (q.alarm c)).1 := by
  cases c <;> rfl

/-- An alarm that is due raises the bit. -/
theorem has_timeAlarm_portRunTestTime {offset : Int} {now : Nat} {q : ParamPort} {c : PoeControl}
    (h : (timeAlarm offset now (q.alarm c)).2 = errTimeAlarm) :
    Flags.has (portRunTestTime offset now q).errorCode errTimeAlarm = true := by
  have hself : Flags.has errTimeAlarm errTimeAlarm = true := by decide
  cases c with
  | poeUp =>
    have hup : (timeAlarm offset now q.timeUp).2 = errTimeAlarm := h
    simp only [portRunTestTime, Flags.has_set, hup, hself, Bool.or_true, Bool.true_or]
  | poeDown =>
    have hdown : (timeAlarm offset now q.timeDown).2 = errTimeAlarm := h
    simp only [portRunTestTime, Flags.has_set, hdown, hself, Bool.or_true]

/-- The test does not switch the port off. -/
theorem enabled_portRunTestTime (offset : Int) (now : Nat) {q : ParamPort}
    (h : Flags.has q.errorCode errPortDisable = false) :
    Flags.has (portRunTestTime offset now q).errorCode errPortDisable = false := by
  have hcode : ∀ a, Flags.has (timeAlarm offset now a).2 errPortDisable = false := by
    intro a
    unfold timeAlarm
    split
    · exact (by decide : Flags.has errTimeAlarm errPortDisable = false)
    · exact (by decide : Flags.has errOk errPortDisable = false)
  simp only [portRunTestTime, Flags.has_set, hcode, Bool.or_false]
  rw [Flags.has_clear_of_disjoint (by decide), h]

/-- The alarms stay as they are, and the port is not switched off. -/
structure SameAlarms (q q' : ParamPort) : Prop where
  alarm : ∀ c, q'.alarm c = q.alarm c
  enabled : Flags.has q.errorCode errPortDisable = false →
    Flags.has q'.errorCode errPortDisable = false

theorem SameAlarms.refl (q : ParamPort) : SameAlarms q q := ⟨fun _ => rfl, id⟩

theorem SameAlarms.trans {q q' q'' : ParamPort} (h : SameAlarms q q') (h' : SameAlarms q' q'') :
    SameAlarms q q'' :=
  ⟨fun c => (h'.alarm c).trans (h.alarm c), fun he => h'.enabled (h.enabled he)⟩

/-- Only other fields have changed, and the flag that switches the port off is not
among those that were raised. -/
theorem SameAlarms.of_fields {q q' : ParamPort} (hup : q'.timeUp = q.timeUp)
    (hdown : q'.timeDown = q.timeDown)
    (hcode : Flags.has q'.errorCode errPortDisable = Flags.has q.errorCode errPortDisable) :
    SameAlarms q q' := by
  refine ⟨fun c => ?_, fun h => hcode.trans h⟩
  cases c with
  | poeUp => exact hup
  | poeDown => exact hdown

theorem sameAlarms_autoResetHandler (i : PortInfo) (maxReset : UInt8) (timeDate : String) :
    SameAlarms i.paramPort (autoResetHandler i maxReset timeDate).1.paramPort := by
  unfold autoResetHandler
  dsimp only
  split <;>
    exact .of_fields rfl rfl
      (by simp (disch := decide) [Flags.has_set_of_disjoint, Flags.has_clear_of_disjoint])

theorem sameAlarms_manualResetHandler (i : PortInfo) (timeDate : String) :
    SameAlarms i.paramPort (manualResetHandler i timeDate).1.paramPort :=
  .of_fields rfl rfl
    (by simp (disch := decide) [manualResetHandler, Flags.has_set_of_disjoint,
      Flags.has_clear_of_disjoint])

theorem sameAlarms_rebootIdle (i : PortInfo) (b : RebootParam) (dp : DemonParam) (r : Reading) :
    SameAlarms i.paramPort (rebootIdle i b dp r).portInfo.paramPort := by
  unfold rebootIdle
  split
  rename_i j rebootState hauto
  have hfirst : SameAlarms i.paramPort j.paramPort := by
    split at hauto
    · have hframe := sameAlarms_autoResetHandler
        { i with event := Flags.clear i.event autoRestart } dp.maxReset r.timeDate
      rwa [hauto] at hframe
    · cases hauto
      exact .refl _
  split
  rename_i k rebootState' hmanual
  refine hfirst.trans ?_
  split at hmanual
  · have hframe := sameAlarms_manualResetHandler
      { j with event := Flags.clear j.event manualRestart } r.timeDate
    rwa [hmanual] at hframe
  · cases hmanual
    exact .refl _

theorem sameAlarms_rebootPoeUp (i : PortInfo) (b : RebootParam) (r : Reading) :
    SameAlarms i.paramPort (rebootPoeUp i b r).portInfo.paramPort := by
  have hmap : SameAlarms i.paramPort
      (i.mapCode fun c => Flags.clear (Flags.clear c errRebooting) errManualReboot).paramPort :=
    .of_fields rfl rfl (by simp (disch := decide) [PortInfo.mapCode, Flags.has_clear_of_disjoint])
  unfold rebootPoeUp
  dsimp only
  split_ifs
  · exact hmap
  · exact .refl _
  · exact hmap
  · exact .refl _

theorem sameAlarms_testErrorHandler (i : PortInfo) (b : RebootParam) (dp : DemonParam)
    (r : Reading) : SameAlarms i.paramPort (testErrorHandler i b dp r).portInfo.paramPort := by
  have hcount : SameAlarms i.paramPort (countErrors i dp).paramPort := by
    unfold countErrors
    dsimp only
    split <;> exact .of_fields rfl rfl rfl
  refine hcount.trans ?_
  unfold testErrorHandler switchOnAlarm
  dsimp only
  split
  · exact .of_fields rfl rfl (Flags.has_clear_of_disjoint (by decide) _)
  · exact .refl _

/-- No handler touches the alarms or switches the port off. -/
theorem sameAlarms_handlePort (i : PortInfo) (b : RebootParam) (dp : DemonParam) (r : Reading) :
    SameAlarms i.paramPort (handlePort i b dp r).portInfo.paramPort := by
  unfold handlePort
  split
  · exact .refl _
  split
  · unfold rebootHandler
    split
    · exact sameAlarms_rebootIdle i b dp r
    · exact .refl _
    · exact .refl _
    · exact sameAlarms_rebootPoeUp i b r
  · exact sameAlarms_testErrorHandler i b dp r
  · exact .refl _

theorem alarmTimes_append (c : PoeControl) (l k : List PoeCall) :
    alarmTimes c (l ++ k) = alarmTimes c l ++ alarmTimes c k := by
  rw [alarmTimes, List.filter_append, List.map_append]
  rfl

/-- The calls of `test_ErrorHandler` for an alarm. -/
theorem alarmTimes_testErrorHandler (i : PortInfo) (b : RebootParam) (dp : DemonParam)
    (r : Reading) (c : PoeControl) :
    alarmTimes c (testErrorHandler i b dp r).calls =
      if Flags.has i.paramPort.errorCode errTimeAlarm = true ∧ (i.paramPort.alarm c).remainTime = 0
      then [r.now] else [] := by
  have hcount : (countErrors i dp).paramPort.errorCode = i.paramPort.errorCode ∧
      (countErrors i dp).paramPort.timeUp = i.paramPort.timeUp ∧
      (countErrors i dp).paramPort.timeDown = i.paramPort.timeDown := by
    unfold countErrors
    dsimp only
    split <;> exact ⟨rfl, rfl, rfl⟩
  obtain ⟨hcode, hup, hdown⟩ := hcount
  simp only [testErrorHandler, switchOnAlarm, hcode, hup, hdown]
  by_cases hbit : Flags.has i.paramPort.errorCode errTimeAlarm = true
  · rw [if_pos hbit]
    simp only [hbit, true_and]
    by_cases hu : i.paramPort.timeUp.remainTime = 0 <;>
      by_cases hd : i.paramPort.timeDown.remainTime = 0 <;>
        cases c <;> simp [alarmTimes, ParamPort.alarm, hu, hd]
  · rw [if_neg hbit, if_neg fun h => hbit h.1]
    rfl

/-- Only `test_ErrorHandler` switches for an alarm. -/
theorem alarmTimes_handlePort (i : PortInfo) (b : RebootParam) (dp : DemonParam) (r : Reading)
    (c : PoeControl) :
    alarmTimes c (handlePort i b dp r).calls =
      if Flags.has i.paramPort.errorCode errPortDisable = false ∧ i.state = .regularSate ∧
        Flags.has i.paramPort.errorCode errTimeAlarm = true ∧ (i.paramPort.alarm c).remainTime = 0
      then [r.now] else [] := by
  unfold handlePort
  split
  · rename_i hoff
    rw [if_neg fun h => by rw [h.1] at hoff; cases hoff]
    rfl
  · rename_i hon
    have hon : Flags.has i.paramPort.errorCode errPortDisable = false := by simpa using hon
    split
    · rename_i hstate
      rw [if_neg fun h => by rw [h.2.1] at hstate; cases hstate]
      unfold rebootHandler
      split
      · rfl
      · rfl
      · simp only [rebootPoeDown]
        split_ifs <;> rfl
      · simp only [rebootPoeUp]
        split_ifs <;> rfl
    · rename_i hstate
      rw [alarmTimes_testErrorHandler]
      simp [hon, hstate]
    · rename_i hstate
      rw [if_neg fun h => by rw [h.2.1] at hstate; cases hstate]
      rfl

/-! ## The invariant -/

/-- The moment an alarm is set to at first. -/
def TimedPort.first (p : TimedPort) (c : PoeControl) : Nat :=
  (p.init.portInfo.paramPort.alarm c).targetTime.toNat

/-- The alarm has gone off every day since it was set, and the next one is still to
come. -/
def GoesDaily (first last : Nat) (a : TimeHM) (times : List Nat) : Prop :=
  ∃ days, a.targetTime.toNat = first + days * 86400 ∧ last < a.targetTime.toNat ∧
    times = (List.range days).map fun i => first + i * 86400

/-- What holds of the port after a tick at `last`. -/
structure OnTime (p : TimedPort) (v : View) (last : Nat) : Prop where
  enabled : Flags.has v.portInfo.paramPort.errorCode errPortDisable = false
  daily : ∀ c, GoesDaily (p.first c) last (v.portInfo.paramPort.alarm c) (alarmTimes c v.calls)

/-- **A punctual tick keeps the schedule.** -/
theorem onTime_tick {p : TimedPort} {v : View} {last : Nat} (h : OnTime p v last) {r : Reading}
    (hr : Punctual v (.tick r)) : OnTime p (p.step v (.tick r)) r.now := by
  obtain ⟨hon, hdaily⟩ := h
  have htested := enabled_portRunTestTime p.offset r.now hon
  have hframe := sameAlarms_handlePort
    { v.portInfo with paramPort := portRunTestTime p.offset r.now v.portInfo.paramPort }
    v.rebootParam p.demonParam r
  refine ⟨hframe.enabled htested, fun c => ?_⟩
  have halarm : (p.step v (.tick r)).portInfo.paramPort.alarm c =
      (timeAlarm p.offset r.now (v.portInfo.paramPort.alarm c)).1 := by
    rw [← alarm_portRunTestTime]
    exact hframe.alarm c
  have hcalls : alarmTimes c (p.step v (.tick r)).calls = alarmTimes c v.calls ++
      if v.portInfo.state = .regularSate ∧
        Flags.has (portRunTestTime p.offset r.now v.portInfo.paramPort).errorCode
          errTimeAlarm = true ∧
        (timeAlarm p.offset r.now (v.portInfo.paramPort.alarm c)).1.remainTime = 0
      then [r.now] else [] := by
    rw [TimedPort.step, View.tick, alarmTimes_append, alarmTimes_handlePort, alarm_portRunTestTime]
    simp only [htested, true_and]
  obtain ⟨days, htarget, -, htimes⟩ := hdaily c
  rw [halarm, hcalls]
  by_cases hdue : (v.portInfo.paramPort.alarm c).targetTime.toNat ≤ r.now
  · obtain ⟨hnow, hstate, hrange⟩ := hr c hdue
    obtain ⟨hnext, hremain, hcode⟩ := timeAlarm_of_due p.offset hdue hrange
    rw [if_pos ⟨hstate, has_timeAlarm_portRunTestTime hcode, hremain⟩]
    refine ⟨days + 1, by omega, by omega, ?_⟩
    rw [htimes, List.range_succ, List.map_append, List.map_singleton, ← htarget, hnow]
  · obtain ⟨hsame, hremain⟩ := timeAlarm_of_not_due p.offset hdue
    rw [if_neg fun h => hremain h.2.2, List.append_nil]
    refine ⟨days, ?_, ?_, htimes⟩
    · rw [hsame, htarget]
    · rw [hsame]
      omega

theorem onTime_request {p : TimedPort} {v : View} {last : Nat} (h : OnTime p v last) :
    OnTime p (p.step v .request) last := by
  have hsame : (requestReboot v.portInfo).paramPort = v.portInfo.paramPort := by
    unfold requestReboot
    split <;> rfl
  obtain ⟨hon, hdaily⟩ := h
  refine ⟨?_, fun c => ?_⟩
  · rw [TimedPort.step, hsame]
    exact hon
  · rw [TimedPort.step, hsame]
    exact hdaily c

/-! ## The start -/

theorem isValidTime_of_readsAs {overflow : Int → Int} {s : List Char} {t : ClockTime}
    (h : ReadsAs overflow s t) : isValidTime overflow s = true := by
  obtain ⟨hour, min, hscan, hh, hm⟩ := h
  have hhour := t.hour_le
  have hmin := t.min_le
  simp only [isValidTime, hscan, hh, hm]
  simp only [Bool.not_eq_true', Bool.or_eq_false_iff, decide_eq_false_iff_not]
  omega

/-- `mktime` for the configured time, today or tomorrow. -/
theorem toNat_mktime (p : TimedPort) (c : PoeControl) (tomorrow : Bool)
    (h : 0 ≤ p.moment c ((localtime p.offset p.start).mday + if tomorrow then 1 else 0) ∧
      p.moment c ((localtime p.offset p.start).mday + if tomorrow then 1 else 0) < 2 ^ 32) :
    ((p.clock.mktime tomorrow (UInt8.ofInt (p.time c).hour)
        (UInt8.ofInt (p.time c).min)).toNat : Int) =
      p.moment c ((localtime p.offset p.start).mday + if tomorrow then 1 else 0) := by
  have hbyte : ∀ n : Nat, n ≤ 59 → (UInt8.ofInt (n : Int)).toNat = n := by
    intro n hn
    have hmod := toNat_ofInt (n : Int)
    omega
  simp only [TimedPort.clock, hbyte _ (Nat.le_trans (p.time c).hour_le (by decide)),
    hbyte _ (p.time c).min_le]
  exact toNat_ofInt_of_lt h.1 h.2

/-- An alarm is set to its first moment after the start. -/
theorem timeAlarmOf_target (p : TimedPort) (hrange : p.InRange) (c : PoeControl) {s : List Char}
    (hs : ReadsAs p.overflow s (p.time c)) (a : TimeHM) :
    ∃ day, ((timeAlarmOf p.clock a s).targetTime.toNat : Int) = p.moment c day ∧
      p.start < (timeAlarmOf p.clock a s).targetTime.toNat ∧
      (timeAlarmOf p.clock a s).targetTime.toNat ≤ p.start + 86400 := by
  obtain ⟨hour, min, hscan, hh, hm⟩ := hs
  obtain ⟨hlow, hhigh⟩ := hrange
  have htodayLow := hlow c
  have hhour := (p.time c).hour_le
  have hmin := (p.time c).min_le
  have hclose : p.moment c (localtime p.offset p.start).mday < p.start + 86400 ∧
      p.start < p.moment c (localtime p.offset p.start).mday + 86400 := by
    simp only [TimedPort.moment, mktime, localtime]
    omega
  have hnext : p.moment c ((localtime p.offset p.start).mday + 1) =
      p.moment c (localtime p.offset p.start).mday + 86400 := by
    simp only [TimedPort.moment, mktime]
    omega
  have htoday := toNat_mktime p c false
  have htomorrow := toNat_mktime p c true
  simp only [Bool.false_eq_true, if_false, if_true, Int.add_zero, hnext] at htoday htomorrow
  specialize htoday (by omega)
  have hread : p.clock.overflow = p.overflow := rfl
  have hnow : p.clock.now = p.start := rfl
  simp only [timeAlarmOf, hscan, hread, hh, hm, hnow]
  split
  · specialize htomorrow (by omega)
    exact ⟨(localtime p.offset p.start).mday + 1, by rw [htomorrow, hnext], by omega, by omega⟩
  · exact ⟨_, htoday, by omega, by omega⟩

/-- Both alarms are set, and the port is not switched off. -/
theorem getPortParam_timed (p : TimedPort) :
    Flags.has (getPortParam p.clock p.line p.port).errorCode errPortDisable = false ∧
      ∀ c, ∃ s a, ReadsAs p.overflow s (p.time c) ∧
        (getPortParam p.clock p.line p.port).alarm c = timeAlarmOf p.clock a s := by
  have hok : ∀ {s t}, ReadsAs p.overflow s t → timeError p.clock s = errOk := fun h =>
    if_pos (isValidTime_of_readsAs h)
  have hcode : errOk ||| errOk = errOk := by decide
  have hsame : ∀ q, (∀ c, (setErrorHandler q).alarm c = q.alarm c) := by
    intro q c
    rcases setErrorHandler_eq q with h | h <;> cases c <;> rw [h] <;> rfl
  unfold getPortParam
  simp only [p.timed, setTestConfig, setErrorHandler_errorCode, hsame]
  simp only [portSetTimeParam, paramPortInit, hok p.up, hok p.down, hcode, if_true]
  refine ⟨by decide, fun c => ?_⟩
  cases c with
  | poeUp => exact ⟨_, _, p.up, rfl⟩
  | poeDown => exact ⟨_, _, p.down, rfl⟩

/-- The alarms are set to their first moment after the start. -/
theorem first_eq (p : TimedPort) (hrange : p.InRange) (c : PoeControl) :
    (∃ day, (p.first c : Int) = p.moment c day) ∧ p.start < p.first c ∧
      p.first c ≤ p.start + 86400 := by
  obtain ⟨s, a, hs, halarm⟩ := (getPortParam_timed p).2 c
  obtain ⟨day, hday, hlt, hle⟩ := timeAlarmOf_target p hrange c hs a
  have hfirst : p.first c = (timeAlarmOf p.clock a s).targetTime.toNat := by
    rw [← halarm]
    rfl
  rw [hfirst]
  exact ⟨⟨day, hday⟩, hlt, hle⟩

theorem onTime_init (p : TimedPort) (hrange : p.InRange) : OnTime p p.init p.start := by
  refine ⟨(getPortParam_timed p).1, fun c => ⟨0, by rw [Nat.zero_mul]; rfl, ?_, rfl⟩⟩
  exact (first_eq p hrange c).2.1

/-! ## Every run -/

/-- What holds at a tick holds along a run. -/
theorem onTime_run {p : TimedPort} {v : View} {last : Nat} (h : OnTime p v last)
    {es : List AlarmEvent} (hes : Runs.Meets p.step Punctual v es) :
    Runs.Always p.step (fun v => ∃ last, OnTime p v last) v es ∧
      OnTime p (Runs.exec p.step v es) ((es.filterMap AlarmEvent.tick?).getLast?.getD last) := by
  induction es generalizing v last with
  | nil => exact ⟨⟨last, h⟩, h⟩
  | cons e es ih =>
    cases e with
    | tick r =>
      obtain ⟨halways, hend⟩ := ih (onTime_tick h hes.1) hes.2
      refine ⟨⟨⟨last, h⟩, halways⟩, ?_⟩
      have hticks : (AlarmEvent.tick r :: es).filterMap AlarmEvent.tick? =
          r.now :: es.filterMap AlarmEvent.tick? := rfl
      rw [hticks, List.getLast?_cons]
      exact hend
    | request =>
      obtain ⟨halways, hend⟩ := ih (onTime_request h) hes.2
      exact ⟨⟨⟨last, h⟩, halways⟩, hend⟩

/-- The targets stay at the configured time. -/
theorem OnTime.onTheMinute {p : TimedPort} (hrange : p.InRange) {v : View} {last : Nat}
    (h : OnTime p v last) : p.OnTheMinute v := by
  intro c
  obtain ⟨days, htarget, -, -⟩ := h.daily c
  obtain ⟨⟨day, hfirst⟩, -⟩ := first_eq p hrange c
  have hhour := (p.time c).hour_le
  have hmin := (p.time c).min_le
  refine ⟨day + days, ?_⟩
  simp only [TimedPort.moment, mktime] at hfirst
  simp only [localtime, BrokenDownTime.mk.injEq]
  omega

/-- Of the alarms that went off every day, one is within a day of each moment. -/
theorem countP_daily {first days j : Nat} (hj : j < days) :
    ((List.range days).map fun i => first + i * 86400).countP (fun t : Nat =>
      ((first + j * 86400 : Nat) : Int) ≤ t ∧
        (t : Int) < (first + j * 86400 : Nat) + 86400) = 1 := by
  rw [List.countP_map]
  have hmem : j ∈ List.range days := List.mem_range.mpr hj
  rw [← List.count_eq_one_of_mem List.nodup_range hmem, List.count]
  refine List.countP_congr fun i _ => ?_
  rw [Function.comp_apply, decide_eq_true_iff, beq_iff_eq]
  omega

/-- **The schedule of the day is kept** by every run in which no alarm falls due
late or during a restart. -/
theorem schedule_kept (p : TimedPort) (run : TimedRun p) (hrange : p.InRange)
    (h : Runs.Meets p.step Punctual p.init run.events) : KeepsSchedule p run := by
  obtain ⟨halways, hend⟩ := onTime_run (onTime_init p hrange) h
  refine ⟨halways.mono fun v ⟨_, hv⟩ => hv.onTheMinute hrange, ?_⟩
  rintro c day ⟨t, ht, hfrom⟩ ⟨u, hu, hto⟩
  obtain ⟨days, htarget, hlast, htimes⟩ := hend.daily c
  obtain ⟨⟨day₀, hfirst⟩, -, hsoon⟩ := first_eq p hrange c
  have hstart : p.start < t := run.start_lt t (List.mem_of_mem_head? ht)
  have hlt : u < (p.first c) + days * 86400 := by
    rw [← htarget]
    rwa [show run.events.filterMap AlarmEvent.tick? = run.ticks from rfl,
      Option.mem_def.mp hu] at hlast
  -- the moment is some days after the first
  have hdiff : p.moment c day = p.first c + (day - day₀) * 86400 := by
    rw [hfirst]
    simp only [TimedPort.moment, mktime]
    omega
  have hj : p.moment c day = (p.first c + (day - day₀).toNat * 86400 : Nat) := by omega
  rw [htimes, hj]
  exact countP_daily (by omega)

/-- Port 1, switched on at 4:00 and off at 5:00 UTC, from 3:46:40 on the second day
of the clock. -/
def morningPort : TimedPort where
  offset := 0
  start := 100000
  overflow := id
  line := ⟨"time\n".toList, [], [], [], "04:00\n".toList, "05:00\n".toList⟩
  port := 1
  demonParam := ⟨3, 10, 13, 100003⟩
  time
    | .poeUp => ⟨4, 0, by decide, by decide⟩
    | .poeDown => ⟨5, 0, by decide, by decide⟩
  timed := by decide
  up := ⟨4, 0, by decide, by decide, by decide⟩
  down := ⟨5, 0, by decide, by decide, by decide⟩

/-- A tick at this time. -/
def tickEvent (now : Nat) : AlarmEvent := .tick ⟨now, now, ""⟩

/-- A tick at each of the two moments. -/
def punctualRun : TimedRun morningPort where
  events := [tickEvent 100800, tickEvent 104400]
  start_lt := by decide
  ordered := by decide

theorem schedule_kept_punctualRun : KeepsSchedule morningPort punctualRun := by
  refine schedule_kept morningPort punctualRun ⟨fun c => by cases c <;> decide, by decide⟩
    ⟨fun c => ?_, fun c => ?_, trivial⟩
  · cases c with
    | poeUp => exact fun _ => by decide
    | poeDown => exact fun h => absurd h (by decide)
  · cases c with
    | poeUp => exact fun h => absurd h (by decide)
    | poeDown => exact fun _ => by decide

/-- A tick two seconds after the alarm is due. -/
def lateRun : TimedRun morningPort where
  events := [tickEvent 100802]
  start_lt := by decide
  ordered := by decide

/-- A restart is asked for before the alarm is due. -/
def restartRun : TimedRun morningPort where
  events := [tickEvent 100799, .request, tickEvent 100800]
  start_lt := by decide
  ordered := by decide

/-- A late tick puts off all later alarms, and a restart loses one. -/
theorem schedule_not_kept :
    ¬ KeepsSchedule morningPort lateRun ∧ ¬ KeepsSchedule morningPort restartRun := by
  refine ⟨fun h => ?_, fun h => ?_⟩
  · obtain ⟨day, hday⟩ := h.target.last .poeUp
    have hsec : (localtime 0 ((Runs.exec morningPort.step morningPort.init
        lateRun.events).portInfo.paramPort.alarm .poeUp).targetTime.toNat).sec = 0 :=
      congrArg BrokenDownTime.sec hday
    exact absurd hsec (by decide)
  · have hcount := h.switched .poeUp 1 ⟨100799, by decide, by decide⟩ ⟨100800, by decide, by decide⟩
    exact absurd hcount (by decide)

end TfPackages.Restart
