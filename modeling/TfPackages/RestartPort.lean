import TfPackages.Flags
import Mathlib.Data.List.Basic

/-! # One port of the auto-restart daemon

`tf_autorestart` watches the cameras on ports 1 to 8 and restarts one by cutting
its PoE power.  Each port has two coupled state variables: `state`, which selects
the handler that `mainHandler` calls for it, and `rebootState`, the three-step
sequence that `rebootHandler` walks through while `state` is `REBOOT_STATE`.
Requests and results travel in two words of flags, `event` and `rebootEvent`.

This module has the handlers as functions of one port's records.  What they take
from outside is in `Reading`: the results of `time(NULL)` and of `getTimeDate`
during the call.  The calls of `poe_Control` are returned with the handler that
made them and the clock at that moment.
-/
namespace TfPackages.Restart

/-! ## Data -/

/-- `error_code_t`, a word of flags. -/
abbrev ErrorCode := BitVec 32

def errPortDisable : ErrorCode := 0x00001
def errTestType : ErrorCode := 0x00002
def errTestLink : ErrorCode := 0x00004
def errTestPing : ErrorCode := 0x00008
def errTestSpeed : ErrorCode := 0x00010
def errTimeAlarm : ErrorCode := 0x00020
def errTestDisable : ErrorCode := 0x00040
def errObjNotFound : ErrorCode := 0x00080
def errUnavailableResource : ErrorCode := 0x00100
def errNullObj : ErrorCode := 0x00200
def errCreateThread : ErrorCode := 0x00400
def errJoinThread : ErrorCode := 0x00800
def errIpNotValid : ErrorCode := 0x01000
def errRegCompile : ErrorCode := 0x02000
def errTimeNotValid : ErrorCode := 0x04000
def errSpeedValue : ErrorCode := 0x08000
def errOk : ErrorCode := 0x10000
def errPortShutdown : ErrorCode := 0x20000
def errManualReboot : ErrorCode := 0x40000
def errRebooting : ErrorCode := 0x80000

/-- `AR_EVENT`, a word of flags. -/
abbrev ArEvent := BitVec 32

def idleEvent : ArEvent := 0x0000
def autoRestart : ArEvent := 0x0010
def manualRestart : ArEvent := 0x0040

/-- `AR_STATE`. -/
inductive ArState where
  | idleState
  | regularSate
  | rebootState
deriving DecidableEq, Repr

/-- `TYPE_OF_TEST_t`, without the bound `test_max`. -/
inductive TypeOfTest where
  | testDisable
  | testLink
  | testPing
  | testSpeed
  | testTime
deriving DecidableEq, Repr

/-- `time_h_m`. -/
structure TimeHM where
  timeH : UInt8
  timeM : UInt8
  targetTime : UInt32
  remainTime : UInt32
deriving DecidableEq, Repr

/-- `paramPort_t`, with the fields the daemon's handlers and tests use. -/
structure ParamPort where
  test : TypeOfTest
  portNum : UInt8
  resetCount : UInt8
  totalResetCount : UInt8
  errorTestCount : UInt8
  host : String
  timeStr : String
  /-- `timeAlarm[time_up]` -/
  timeUp : TimeHM
  /-- `timeAlarm[time_down]` -/
  timeDown : TimeHM
  minSpeed : UInt32
  maxSpeed : UInt32
  replyTime : UInt32
  rxBytePrev : UInt32
  rxByteCurrent : UInt32
  rxDeltaByte : UInt32
  rxSpeedKbit : UInt32
  timeCurrent : UInt32
  timePrev : UInt32
  errorCode : ErrorCode
deriving DecidableEq, Repr

/-- `portInfo_t`. -/
structure PortInfo where
  paramPort : ParamPort
  event : ArEvent
  state : ArState
deriving DecidableEq, Repr

/-- `REBOOT_STATE_e`. -/
inductive RebootState where
  | idle
  | init
  | poeDown
  | poeUp
deriving DecidableEq, Repr

/-- `REBOOT_EVENT_e`, a word of flags. -/
abbrev RebootEvent := BitVec 32

def rebootEventIdle : RebootEvent := 0x00
def rebootEventStart : RebootEvent := 0x01
def rebootEventTimerStop : RebootEvent := 0x04
def rebootEventDone : RebootEvent := 0x08

/-- `REBOOT_PARAM_t`. -/
structure RebootParam where
  rebootState : RebootState
  rebootEvent : RebootEvent
  timeDelay : UInt32
  timeStartReboot : UInt32
deriving DecidableEq, Repr

/-- `DEMON_PARAM_t`. -/
structure DemonParam where
  testDelay : UInt8
  testNum : UInt8
  maxReset : UInt8
  mainTime : UInt32
deriving DecidableEq, Repr

/-- The values of `POE_CONTROL` the daemon passes. -/
inductive PoeControl where
  | poeUp
  | poeDown
deriving DecidableEq, Repr

/-- The functions that call `poe_Control`. -/
inductive Caller where
  | rebootHandler
  | testErrorHandler
deriving DecidableEq, Repr

/-- A call of `poe_Control`, with the clock at that moment. -/
structure PoeCall where
  port : UInt8
  control : PoeControl
  caller : Caller
  time : Nat
deriving DecidableEq, Repr

/-- What a handler reads from outside while it works on one port. -/
structure Reading where
  /-- The clock when the port's turn comes. -/
  now : Nat
  /-- The clock when `checkTimePoeUP` asks for it. -/
  check : Nat
  /-- What `getTimeDate` writes. -/
  timeDate : String
deriving DecidableEq, Repr

/-- What a handler leaves behind. -/
structure Handled where
  portInfo : PortInfo
  rebootParam : RebootParam
  calls : List PoeCall
deriving DecidableEq, Repr

/-- `portInfo->paramPort.errorCode` rewritten by `f`. -/
def PortInfo.mapCode (p : PortInfo) (f : ErrorCode → ErrorCode) : PortInfo :=
  { p with paramPort := { p.paramPort with errorCode := f p.paramPort.errorCode } }

/-! ## The handlers -/

/-- `autoResetHandler`.  The port is shut down instead once `maxReset` automatic
restarts have been made. -/
def autoResetHandler (portInfo : PortInfo) (maxReset : UInt8) (timeDate : String) :
    PortInfo × RebootState :=
  let p := { portInfo.paramPort with
    timeStr := timeDate
    errorCode := Flags.clear portInfo.paramPort.errorCode errOk }
  if p.resetCount ≥ maxReset then
    ({ portInfo with
        paramPort := { p with errorCode := Flags.set p.errorCode errPortShutdown }
        state := .idleState }, .idle)
  else
    ({ portInfo with
        paramPort := { p with
          errorTestCount := 0
          resetCount := p.resetCount + 1
          totalResetCount := p.totalResetCount + 1
          errorCode := Flags.set p.errorCode errRebooting } }, .init)

/-- `manualResetHandler`. -/
def manualResetHandler (portInfo : PortInfo) (timeDate : String) : PortInfo × RebootState :=
  let p := portInfo.paramPort
  ({ portInfo with
      paramPort := { p with
        timeStr := timeDate
        errorCode := Flags.set
          (Flags.clear (Flags.clear p.errorCode errOk) errPortShutdown) errManualReboot
        totalResetCount := p.totalResetCount + 1
        resetCount := 0
        errorTestCount := 0 } }, .init)

/-- `checkTimePoeUP`. -/
def checkTimePoeUP (timeStartReboot : UInt32) (now : Nat) : RebootEvent :=
  if UInt32.ofNat now ≥ timeStartReboot then rebootEventTimerStop else rebootEventIdle

/-- `rebootHandler`, `case REBOOT_STATE_IDLE`. -/
def rebootIdle (portInfo : PortInfo) (rebootParam : RebootParam) (demonParam : DemonParam)
    (r : Reading) : Handled :=
  let (portInfo, rebootState) :=
    if Flags.has portInfo.event autoRestart then
      autoResetHandler { portInfo with event := Flags.clear portInfo.event autoRestart }
        demonParam.maxReset r.timeDate
    else (portInfo, rebootParam.rebootState)
  let (portInfo, rebootState) :=
    if Flags.has portInfo.event manualRestart then
      manualResetHandler { portInfo with event := Flags.clear portInfo.event manualRestart }
        r.timeDate
    else (portInfo, rebootState)
  ⟨portInfo, { rebootParam with rebootState := rebootState }, []⟩

/-- `rebootHandler`, `case REBOOT_STATE_INIT`: the deadline is computed here, one
tick before the power is cut. -/
def rebootInit (portInfo : PortInfo) (rebootParam : RebootParam) (r : Reading) : Handled :=
  ⟨portInfo,
    { rebootParam with
      rebootState := .poeDown
      rebootEvent := Flags.set rebootParam.rebootEvent rebootEventStart
      timeStartReboot := rebootParam.timeDelay + UInt32.ofNat r.now }, []⟩

/-- `rebootHandler`, `case REBOOT_STATE_POE_DOWN`. -/
def rebootPoeDown (portInfo : PortInfo) (rebootParam : RebootParam) (r : Reading) : Handled :=
  let start := Flags.has rebootParam.rebootEvent rebootEventStart
  let calls := if start then
    [⟨portInfo.paramPort.portNum, .poeDown, .rebootHandler, r.now⟩] else []
  let rebootEvent := if start then
    Flags.clear rebootParam.rebootEvent rebootEventStart else rebootParam.rebootEvent
  let rebootEvent := Flags.set rebootEvent (checkTimePoeUP rebootParam.timeStartReboot r.check)
  let rebootState := if Flags.has rebootEvent rebootEventTimerStop then
    .poeUp else rebootParam.rebootState
  ⟨portInfo, { rebootParam with rebootState := rebootState, rebootEvent := rebootEvent }, calls⟩

/-- `rebootHandler`, `case REBOOT_STATE_POE_UP`. -/
def rebootPoeUp (portInfo : PortInfo) (rebootParam : RebootParam) (r : Reading) : Handled :=
  let stop := Flags.has rebootParam.rebootEvent rebootEventTimerStop
  let calls := if stop then
    [⟨portInfo.paramPort.portNum, .poeUp, .rebootHandler, r.now⟩] else []
  let rebootEvent := if stop then
    Flags.set (Flags.clear rebootParam.rebootEvent rebootEventTimerStop) rebootEventDone
    else rebootParam.rebootEvent
  if Flags.has rebootEvent rebootEventDone then
    ⟨{ portInfo.mapCode (fun c => Flags.clear (Flags.clear c errRebooting) errManualReboot) with
        state := .regularSate },
      { rebootParam with
        rebootState := .idle
        rebootEvent := Flags.set rebootEvent rebootEventIdle }, calls⟩
  else ⟨portInfo, { rebootParam with rebootEvent := rebootEvent }, calls⟩

/-- `rebootHandler`. -/
def rebootHandler (portInfo : PortInfo) (rebootParam : RebootParam) (demonParam : DemonParam)
    (r : Reading) : Handled :=
  match rebootParam.rebootState with
  | .idle => rebootIdle portInfo rebootParam demonParam r
  | .init => rebootInit portInfo rebootParam r
  | .poeDown => rebootPoeDown portInfo rebootParam r
  | .poeUp => rebootPoeUp portInfo rebootParam r

/-- `errorCode & ERR_TEST_LINK | errorCode & ERR_TEST_SPEED | errorCode & ERR_TEST_PING`. -/
def testFailed (errorCode : ErrorCode) : Bool :=
  Flags.has errorCode errTestLink || Flags.has errorCode errTestSpeed ||
    Flags.has errorCode errTestPing

/-- `errorTestCount` after `test_ErrorHandler`: one down for `ERR_OK`, one up, to
`test_num` at most, for a failed test. -/
def nextErrorCount (p : ParamPort) (testNum : UInt8) : UInt8 :=
  let count := if Flags.has p.errorCode errOk ∧ p.errorTestCount > 0 then
    p.errorTestCount - 1 else p.errorTestCount
  if testFailed p.errorCode ∧ count < testNum then count + 1 else count

/-- The first half of `test_ErrorHandler`: the error counter and its threshold. -/
def countErrors (portInfo : PortInfo) (demonParam : DemonParam) : PortInfo :=
  let count := nextErrorCount portInfo.paramPort demonParam.testNum
  if testFailed portInfo.paramPort.errorCode ∧ count = demonParam.testNum then
    { portInfo with
      paramPort.errorTestCount := count
      event := Flags.set portInfo.event autoRestart
      state := .rebootState }
  else { portInfo with paramPort.errorTestCount := count }

/-- The second half of `test_ErrorHandler`: the scheduled switching. -/
def switchOnAlarm (portInfo : PortInfo) (r : Reading) : PortInfo × List PoeCall :=
  let p := portInfo.paramPort
  if Flags.has p.errorCode errTimeAlarm then
    ({ portInfo with
        paramPort := { p with
          errorCode := Flags.clear p.errorCode errTimeAlarm
          totalResetCount := p.totalResetCount + 1 } },
      (if p.timeUp.remainTime = 0 then [⟨p.portNum, .poeUp, .testErrorHandler, r.now⟩] else []) ++
      if p.timeDown.remainTime = 0 then [⟨p.portNum, .poeDown, .testErrorHandler, r.now⟩] else [])
  else (portInfo, [])

/-- `test_ErrorHandler`. -/
def testErrorHandler (portInfo : PortInfo) (rebootParam : RebootParam) (demonParam : DemonParam)
    (r : Reading) : Handled :=
  let (portInfo, calls) := switchOnAlarm (countErrors portInfo demonParam) r
  ⟨portInfo, rebootParam, calls⟩

/-- The body of the loop of `mainHandler`, for one port. -/
def handlePort (portInfo : PortInfo) (rebootParam : RebootParam) (demonParam : DemonParam)
    (r : Reading) : Handled :=
  if Flags.has portInfo.paramPort.errorCode errPortDisable then ⟨portInfo, rebootParam, []⟩
  else
    match portInfo.state with
    | .rebootState => rebootHandler portInfo rebootParam demonParam r
    | .regularSate => testErrorHandler portInfo rebootParam demonParam r
    | .idleState => ⟨portInfo, rebootParam, []⟩

/-- `mainApp`, on a `cmd_reboot` message from the pipe. -/
def requestReboot (portInfo : PortInfo) : PortInfo :=
  if portInfo.state ≠ .rebootState then
    { portInfo with state := .rebootState, event := manualRestart }
  else portInfo

end TfPackages.Restart
