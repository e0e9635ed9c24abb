import TfPackages.RestartDaemon
import TfPackages.RestartSettings

/-! # How the auto-restart daemon reads its configuration

`mainInit` asks `uci get` for every option and reads the answer with `fgets`.  For
an option that is not there nothing is printed, so that the buffer keeps what was
in it: the text of the option before, where `getDemonParam` has read one, and else
what was on the stack.  A number is cut to eight bits before its range is checked.
The parameters of a port's test go through a validator each, and an error bit
turns the test off.

`readConfig` reads everything into the `Config` that `mainInit` starts with.
`intake_as_configured_iff` says for which options the daemon then works as they
say.
-/
namespace TfPackages.Restart
open Scanf

/-! ## The options -/

/-- The options of `ar_demon`, `none` if they are missing. -/
structure DemonOptions where
  testDelay : Option (List Char)
  testNum : Option (List Char)
  maxReset : Option (List Char)

/-- One entry for each option of a port. -/
structure PortTexts (α : Type) where
  state : α
  host : α
  minSpeed : α
  maxSpeed : α
  timeUp : α
  timeDown : α

abbrev PortOptions := PortTexts (Option (List Char))

/-- Package `tf_autorestart`. -/
structure Options where
  demon : DemonOptions
  port : Nat → PortOptions

/-- What is in the buffers before anything is read into them: `output` of
`getDemonParam`, and the buffers that are used for a port. -/
structure Stack where
  output : List Char
  port : Nat → PortTexts (List Char)

/-- The clock and the C library at a port's turn. -/
structure Clock where
  /-- `now` of `port_setTimeParam`. -/
  now : Nat
  /-- `time(NULL)` that goes to `time_prev`. -/
  timePrev : UInt32
  /-- `mktime` of today or a day later at this hour and minute. -/
  mktime : Bool → UInt8 → UInt8 → UInt32
  /-- `%d` for a number that does not fit in an `int`. -/
  overflow : Int → Int

/-! ## The daemon's parameters -/

/-- `fgets` from `uci get`: without an answer the buffer stays as it is. -/
def readOption (buffer : List Char) : Option (List Char) → List Char
  | some value => output value
  | none => buffer

/-- `strtol(str, NULL, 10)`; a `long` has 32 bits. -/
def strtol (str : List Char) : Int :=
  match scanInt str with
  | some (v, _) => max (-2 ^ 31) (min v (2 ^ 31 - 1))
  | none => 0

/-- A parameter from a number, if it is between 0 and `bound`. -/
def demonParamOf (bound default param : UInt8) : UInt8 :=
  if param > 0 ∧ param < bound then param else default

theorem demonParamOf_range {bound default : UInt8} (h : 0 < default ∧ default < bound)
    (param : UInt8) :
    0 < demonParamOf bound default param ∧ demonParamOf bound default param < bound := by
  unfold demonParamOf
  split
  · assumption
  · exact h

/-- `getDemonParam`.  One buffer is used for all three options. -/
def getDemonParam (buffer : List Char) (options : DemonOptions) : DemonConfig :=
  let delayStr := readOption buffer options.testDelay
  let numStr := readOption delayStr options.testNum
  let resetStr := readOption numStr options.maxReset
  { testDelay := demonParamOf 60 3 (UInt8.ofInt (strtol delayStr))
    testNum := demonParamOf 255 10 (UInt8.ofInt (strtol numStr))
    maxReset := demonParamOf 255 13 (UInt8.ofInt (strtol resetStr))
    testDelay_range := demonParamOf_range (by decide) _
    testNum_range := demonParamOf_range (by decide) _
    maxReset_range := demonParamOf_range (by decide) _ }

/-! ## The test of a port -/

/-- The name of a test in the configuration. -/
def testName : TypeOfTest → List Char
  | .testDisable => "disable".toList
  | .testLink => "link".toList
  | .testPing => "ping".toList
  | .testSpeed => "speed".toList
  | .testTime => "time".toList

/-- The tests in the order of `testTable`. -/
def testTable : List TypeOfTest := [.testDisable, .testLink, .testPing, .testSpeed, .testTime]

/-- `getCmdKey`, with `none` for `test_max`: the names in `testTable` end with the
end of the line. -/
def getCmdKey (str : List Char) : Option TypeOfTest :=
  testTable.find? fun test => str = testName test ++ ['\n']

/-- What the buffers hold after a port's options have been read into them. -/
def readPort (stack : PortTexts (List Char)) (options : PortOptions) : PortTexts (List Char) where
  state := readOption stack.state options.state
  host := readOption stack.host options.host
  minSpeed := readOption stack.minSpeed options.minSpeed
  maxSpeed := readOption stack.maxSpeed options.maxSpeed
  timeUp := readOption stack.timeUp options.timeUp
  timeDown := readOption stack.timeDown options.timeDown

/-- `port_setLinkParam`. -/
def portSetLinkParam (p : ParamPort) : ParamPort := { p with errorCode := errOk }

/-- `port_setHostParam`. -/
def portSetHostParam (line : PortTexts (List Char)) (p : ParamPort) : ParamPort :=
  let host := (line.host.take 16).takeWhile (· ≠ '\n')
  { p with
    test := .testPing
    minSpeed := 0
    maxSpeed := 0
    host := String.ofList host
    errorCode := p.errorCode ||| (if checkValidIp host then errOk else errIpNotValid) }

/-- `port_setSpeedParam`; `MIN_SPEED` is 10 and `MAX_SPEED` is 1000000. -/
def portSetSpeedParam (clock : Clock) (line : PortTexts (List Char)) (p : ParamPort) : ParamPort :=
  let maxSpeed := UInt32.ofInt (strtol line.maxSpeed)
  let minSpeed := UInt32.ofInt (strtol line.minSpeed)
  let errorCode :=
    if maxSpeed ≠ 0 ∧ maxSpeed > 1000000 then p.errorCode ||| errSpeedValue else p.errorCode
  -- The lower bound is compared with `max_speed` here.
  let errorCode := if minSpeed ≠ 0 ∧ maxSpeed < 10 then errorCode ||| errSpeedValue else errorCode
  { p with
    minSpeed := minSpeed
    maxSpeed := maxSpeed
    rxDeltaByte := 0
    rxByteCurrent := 0
    rxBytePrev := 0
    timeCurrent := 0
    timePrev := clock.timePrev
    errorCode := errorCode }

/-- The alarm for an hour and a minute, on the next day if it is over today. -/
def timeAlarmOf (clock : Clock) (alarm : TimeHM) (timeStr : List Char) : TimeHM :=
  match sscanfTime timeStr with
  | some (hour, minute) =>
    let hour := UInt8.ofInt (toInt clock.overflow hour)
    let minute := UInt8.ofInt (toInt clock.overflow minute)
    let today := clock.mktime false hour minute
    { alarm with
      timeH := hour
      timeM := minute
      targetTime := if clock.now ≥ today.toNat then clock.mktime true hour minute else today }
  | none => alarm

/-- What `isValidTime` returns. -/
def timeError (clock : Clock) (timeStr : List Char) : ErrorCode :=
  if isValidTime clock.overflow timeStr then errOk else errTimeNotValid

/-- `port_setTimeParam`. -/
def portSetTimeParam (clock : Clock) (line : PortTexts (List Char)) (p : ParamPort) : ParamPort :=
  let upCode := p.errorCode ||| timeError clock line.timeUp
  let downCode := upCode ||| timeError clock line.timeDown
  { p with
    minSpeed := 0
    maxSpeed := 0
    rxDeltaByte := 0
    rxByteCurrent := 0
    rxBytePrev := 0
    timeCurrent := 0
    timePrev := clock.timePrev
    timeUp := if upCode = errOk then timeAlarmOf clock p.timeUp line.timeUp else p.timeUp
    timeDown := if downCode = errOk then timeAlarmOf clock p.timeDown line.timeDown else p.timeDown
    errorCode := downCode }

/-- `setTestConfig[test]`. -/
def setTestConfig (clock : Clock) (line : PortTexts (List Char)) :
    TypeOfTest → ParamPort → ParamPort
  | .testDisable => id
  | .testLink => portSetLinkParam
  | .testPing => portSetHostParam line
  | .testSpeed => portSetSpeedParam clock line
  | .testTime => portSetTimeParam clock line

/-- The errors that turn a test off. -/
def disablingErrors : List ErrorCode :=
  [errTestDisable, errIpNotValid, errRegCompile, errTimeNotValid, errSpeedValue]

/-- `set_errorHandler`. -/
def setErrorHandler (p : ParamPort) : ParamPort :=
  if disablingErrors.any fun e => p.errorCode &&& e ≠ 0#32 then
    { p with test := .testDisable }
  else p

/-- `paramPort` of a port when the program starts, and the fields that
`getPortParam` sets first. -/
def paramPortInit (port : Nat) : ParamPort where
  test := .testDisable
  portNum := UInt8.ofNat port
  resetCount := 0
  totalResetCount := 0
  errorTestCount := 0
  host := ""
  timeStr := ""
  timeUp := ⟨0, 0, 0, 0⟩
  timeDown := ⟨0, 0, 0, 0⟩
  minSpeed := 0
  maxSpeed := 0
  replyTime := 0
  rxBytePrev := 0
  rxByteCurrent := 0
  rxDeltaByte := 0
  rxSpeedKbit := 0
  timeCurrent := 0
  timePrev := 0
  errorCode := errOk

/-- The turn of a port in `getPortParam`. -/
def getPortParam (clock : Clock) (line : PortTexts (List Char)) (port : Nat) : ParamPort :=
  let p := paramPortInit port
  setErrorHandler <|
    match getCmdKey line.state with
    | none => { p with errorCode := p.errorCode &&& ~~~errOk ||| errTestType }
    | some .testDisable => { p with errorCode := p.errorCode &&& ~~~errOk ||| errTestDisable }
    | some test => setTestConfig clock line test { p with test := test }

theorem setErrorHandler_eq (p : ParamPort) :
    setErrorHandler p = p ∨ setErrorHandler p = { p with test := .testDisable } := by
  unfold setErrorHandler
  split
  · exact .inr rfl
  · exact .inl rfl

theorem setErrorHandler_errorCode (p : ParamPort) :
    (setErrorHandler p).errorCode = p.errorCode := by
  rcases setErrorHandler_eq p with h | h <;> rw [h]

/-- The codes that a port can start with. -/
theorem getPortParam_errorCode (clock : Clock) (line : PortTexts (List Char)) (port : Nat) :
    (getPortParam clock line port).errorCode ∈
      [errTestType, errTestDisable, errOk, errOk ||| errIpNotValid, errOk ||| errSpeedValue,
        errOk ||| errTimeNotValid] := by
  unfold getPortParam
  rw [setErrorHandler_errorCode]
  split
  · dsimp only [paramPortInit]
    decide
  · dsimp only [paramPortInit]
    decide
  · rename_i test _ _
    cases test with
    | testDisable => simp [setTestConfig, paramPortInit]
    | testLink => simp [setTestConfig, portSetLinkParam]
    | testPing =>
      dsimp only [setTestConfig, portSetHostParam, paramPortInit]
      split <;> decide
    | testSpeed =>
      dsimp only [setTestConfig, portSetSpeedParam, paramPortInit]
      split <;> split <;> decide
    | testTime =>
      dsimp only [setTestConfig, portSetTimeParam, timeError, paramPortInit]
      split <;> split <;> decide

/-- No test has been run yet. -/
theorem getPortParam_no_results (clock : Clock) (line : PortTexts (List Char)) (port : Nat) :
    (getPortParam clock line port).errorCode &&&
      (errPortDisable ||| errTestLink ||| errTestPing ||| errTestSpeed ||| errTimeAlarm) =
        0#32 := by
  have hmem := getPortParam_errorCode clock line port
  simp only [List.mem_cons, List.not_mem_nil, or_false] at hmem
  rcases hmem with h | h | h | h | h | h <;> rw [h] <;> decide

/-- What `getPortParam` leaves. -/
def readPortConfig (clock : Clock) (line : PortTexts (List Char)) (port : Nat) : PortConfig where
  test := (getPortParam clock line port).test
  host := (getPortParam clock line port).host
  timeUp := (getPortParam clock line port).timeUp
  timeDown := (getPortParam clock line port).timeDown
  minSpeed := (getPortParam clock line port).minSpeed
  maxSpeed := (getPortParam clock line port).maxSpeed
  timePrev := (getPortParam clock line port).timePrev
  errorCode := (getPortParam clock line port).errorCode
  no_results := getPortParam_no_results clock line port

/-- `getDemonParam` and `getPortParam`: the configuration that `mainInit` starts
with. -/
def readConfig (clock : Nat → Clock) (stack : Stack) (options : Options) : Config where
  demon := getDemonParam stack.output options.demon
  port port := readPortConfig (clock port) (readPort (stack.port port) (options.port port)) port

/-- Nothing is left out of the record: the other fields have the values they start
with. -/
theorem readPortConfig_toInfo (clock : Clock) (line : PortTexts (List Char)) (port : Nat) :
    ((readPortConfig clock line port).toInfo port).paramPort = getPortParam clock line port := by
  dsimp only [readPortConfig, PortConfig.toInfo]
  generalize hp : getPortParam clock line port = p
  unfold getPortParam at hp
  dsimp only at hp
  split at hp
  · rcases setErrorHandler_eq _ with h | h <;> rw [h] at hp <;> subst hp <;> rfl
  · rcases setErrorHandler_eq _ with h | h <;> rw [h] at hp <;> subst hp <;> rfl
  · rename_i test _ _
    cases test <;> rcases setErrorHandler_eq _ with h | h <;> rw [h] at hp <;> subst hp <;> rfl

/-- A port starts with what `getPortParam` has read. -/
theorem paramPort_mainInit (clock : Nat → Clock) (stack : Stack) (options : Options) (now : Nat)
    (p : PortNum) :
    ((mainInit (readConfig clock stack options) now).portInfoArr p.val).paramPort =
      getPortParam (clock p.val) (readPort (stack.port p.val) (options.port p.val)) p.val :=
  readPortConfig_toInfo _ _ _

/-! ## What the options say -/

/-- The option is there, and it is this decimal number. -/
def IsNumber (option : Option (List Char)) (n : Nat) : Prop :=
  ∃ s, option = some s ∧ Digits s ∧ decimal s = n

/-- A parameter with the values from 1 to `last` is the number of its option, or
else the default. -/
structure DemonValue (last default : Nat) (option : Option (List Char)) (v : UInt8) : Prop where
  of_number : ∀ n, IsNumber option n → 1 ≤ n → n ≤ last → v.toNat = n
  of_other : (∀ n, IsNumber option n → ¬ (1 ≤ n ∧ n ≤ last)) → v.toNat = default

/-- A number from 0 to 255, with three digits at most. -/
def Octet (w : List Char) : Prop := Digits w ∧ w.length ≤ 3 ∧ decimal w ≤ 255

/-- Four octets with dots between them. -/
def IsAddress (s : List Char) : Prop :=
  ∃ a b c d, (Octet a ∧ Octet b ∧ Octet c ∧ Octet d) ∧ s = dotted a b c d []

/-- `HH:MM`. -/
def IsTime (s : List Char) : Prop :=
  ∃ hh mm, s = hh ++ ':' :: mm ∧ (Digits hh ∧ hh.length ≤ 2 ∧ decimal hh ≤ 23) ∧
    Digits mm ∧ mm.length ≤ 2 ∧ decimal mm ≤ 59

/-- The parameters of a test are valid. -/
def ValidParameters (options : PortOptions) : TypeOfTest → Prop
  | .testDisable => True
  | .testLink => True
  | .testPing => ∃ host, options.host = some host ∧ IsAddress host
  | .testSpeed => ∃ maxSpeed minSpeed, IsNumber options.maxSpeed maxSpeed ∧
      IsNumber options.minSpeed minSpeed ∧ (maxSpeed = 0 ∨ maxSpeed ≤ 1000000) ∧
        (minSpeed = 0 ∨ 10 ≤ minSpeed)
  | .testTime => ∃ up down, options.timeUp = some up ∧ options.timeDown = some down ∧
      IsTime up ∧ IsTime down

/-- The active test of a port is the one that is configured, if its parameters are
valid, and otherwise none. -/
structure ActiveTest (options : PortOptions) (test : TypeOfTest) : Prop where
  of_valid : ∀ t, options.state = some (testName t) → ValidParameters options t → test = t
  of_other : (∀ t, options.state = some (testName t) → ¬ ValidParameters options t) →
    test = .testDisable

/-- The daemon has started with what the options say. -/
structure StartedAs (options : Options) (d : Daemon) : Prop where
  testDelay : DemonValue 59 3 options.demon.testDelay d.demonParam.testDelay
  testNum : DemonValue 254 10 options.demon.testNum d.demonParam.testNum
  maxReset : DemonValue 254 13 options.demon.maxReset d.demonParam.maxReset
  port : ∀ p : PortNum, ActiveTest (options.port p.val) (d.portInfoArr p.val).paramPort.test

/-! ## What is read from them -/

/-- The number in the buffer gives the parameter.  A number of the option is not cut
off by the end of the buffer; anything else leaves no other value in the range
when all but eight bits of it are dropped. -/
structure DemonRead (last default : Nat) (option : Option (List Char)) (line : List Char) :
    Prop where
  of_number : ∀ s, option = some s → Digits s → 1 ≤ decimal s → decimal s ≤ last →
    decimal (s.take 63) = decimal s ∨ decimal (s.take 63) = 0 ∧ decimal s = default
  of_other : (∀ n, IsNumber option n → ¬ (1 ≤ n ∧ n ≤ last)) →
    strtol line % 256 = 0 ∨ last < strtol line % 256 ∨ strtol line % 256 = default

/-- `test_delay` is there, and the text of the last option that is there gives each
parameter. -/
def DemonOptionsRead (options : DemonOptions) : Prop :=
  ∃ s, options.testDelay = some s ∧ DemonRead 59 3 options.testDelay (output s) ∧
    DemonRead 254 10 options.testNum (output (options.testNum.getD s)) ∧
      DemonRead 254 13 options.maxReset (output (options.maxReset.getD (options.testNum.getD s)))

/-- The first line is four groups of one to three digits. -/
def AddressRead (s : List Char) : Prop :=
  ∃ a b c d, (Digits a ∧ a.length ≤ 3) ∧ (Digits b ∧ b.length ≤ 3) ∧ (Digits c ∧ c.length ≤ 3) ∧
    (Digits d ∧ d.length ≤ 3) ∧ s.takeWhile (· ≠ '\n') = dotted a b c d []

/-- The line begins with a time. -/
def TimeRead (overflow : Int → Int) (s : List Char) : Prop :=
  ∃ pre hh gap mm, BeginsWithTime (output s) pre hh gap mm ∧
    (0 ≤ toInt overflow (signed pre hh) ∧ toInt overflow (signed pre hh) ≤ 23) ∧
      0 ≤ toInt overflow (signed gap mm) ∧ toInt overflow (signed gap mm) ≤ 59

/-- The parameters of a test may pass: a missing one may be anything. -/
def MayPass (overflow : Int → Int) (options : PortOptions) : TypeOfTest → Prop
  | .testDisable => True
  | .testLink => True
  | .testPing => ∀ s, options.host = some s → AddressRead s
  | .testSpeed => (∀ s, options.maxSpeed = some s →
        0 ≤ strtol (output s) ∧ strtol (output s) ≤ 1000000) ∧
      ∀ s t, options.maxSpeed = some s → options.minSpeed = some t →
        strtol (output t) = 0 ∨ 10 ≤ strtol (output s)
  | .testTime => (∀ s, options.timeUp = some s → TimeRead overflow s) ∧
      ∀ s, options.timeDown = some s → TimeRead overflow s

/-- The state is there.  If its first line is the name of a test whose parameters may
pass, it has no other line and they are valid, and a valid `min_speed` is not
rejected for the sake of `max_speed`. -/
def PortOptionsRead (overflow : Int → Int) (options : PortOptions) : Prop :=
  ∃ state, options.state = some state ∧
    ∀ test, test ≠ .testDisable → state.takeWhile (· ≠ '\n') = testName test →
      (MayPass overflow options test → state = testName test ∧ ValidParameters options test) ∧
        (state = testName test → test = .testSpeed → ValidParameters options test →
          ∀ s t, options.maxSpeed = some s → options.minSpeed = some t →
            decimal (t.take 63) = 0 ∨ 10 ≤ decimal (s.take 63))

/-! ## Numbers -/

theorem strtol_range (str : List Char) : -2 ^ 31 ≤ strtol str ∧ strtol str ≤ 2 ^ 31 - 1 := by
  unfold strtol
  split <;> omega

theorem newline_not_mem {s : List Char} (h : Digits s) : '\n' ∉ s := by
  intro hmem
  exact absurd (h.2 _ hmem) (by decide)

theorem takeWhile_eq_self {s : List Char} (h : '\n' ∉ s) : s.takeWhile (· ≠ '\n') = s := by
  rw [List.takeWhile_eq_self_iff]
  intro c hc
  rw [decide_eq_true_eq]
  rintro rfl
  exact h hc

/-- The digits that fit in the buffer are read. -/
theorem scanInt_output {s : List Char} (h : Digits s) :
    ∃ rest, scanInt (output s) = some ((decimal (s.take 63) : Int), rest) := by
  have hdigits : Digits (s.take 63) := by
    refine ⟨?_, fun c hc => h.2 c (List.mem_of_mem_take hc)⟩
    rw [Ne, List.take_eq_nil_iff]
    simpa using h.1
  have hline : output s = [] ++ (s.take 63 ++ ['\n'].take (63 - s.length)) := by
    rw [output_eq, takeWhile_eq_self (newline_not_mem h), List.take_append, List.nil_append]
  have hrest : NoDigitHead (['\n'].take (63 - s.length)) := by
    intro c hc
    have hmem := List.mem_of_mem_take (List.mem_of_mem_head? hc)
    rw [List.mem_singleton.mp hmem]
    decide
  exact ⟨_, (scanInt_eq_some_iff ..).mpr
    ⟨[], s.take 63, hline, ⟨[], [], rfl, by simp, .inl rfl⟩, hdigits, hrest, rfl⟩⟩

theorem strtol_output {s : List Char} (h : Digits s) :
    strtol (output s) = min (decimal (s.take 63) : Int) (2 ^ 31 - 1) := by
  obtain ⟨rest, hscan⟩ := scanInt_output h
  rw [strtol, hscan]
  dsimp only
  omega

theorem decimal_take_le (s : List Char) (n : Nat) : decimal (s.take n) ≤ decimal s := by
  calc decimal (s.take n) ≤ decimal (s.take n ++ s.drop n) := decimal_le_append ..
    _ = decimal s := by rw [List.take_append_drop]

theorem toNat_ofInt (v : Int) : ((UInt8.ofInt v).toNat : Int) = v % 256 := by
  have hnonneg := Int.emod_nonneg v (show (256 : Int) ≠ 0 by decide)
  have hlt := Int.emod_lt_of_pos v (show (0 : Int) < 256 by decide)
  rw [UInt8.ofInt, UInt8.toNat_ofNat']
  omega

/-- A parameter is the last byte of the number, if it is in the range. -/
theorem toNat_demonParamOf {last : Nat} {bound : UInt8} (hbound : bound.toNat = last + 1)
    (default : UInt8) (v : Int) :
    ((demonParamOf bound default (UInt8.ofInt v)).toNat : Int) =
      if v % 256 = 0 ∨ last < v % 256 then (default.toNat : Int) else v % 256 := by
  have hv := toNat_ofInt v
  have hzero : (0 : UInt8).toNat = 0 := rfl
  unfold demonParamOf
  simp only [gt_iff_lt, UInt8.lt_iff_toNat_lt, hbound, hzero]
  split <;> split <;> omega

/-- **One parameter of the daemon.** -/
theorem demonValue_iff {last : Nat} {bound : UInt8} (default : UInt8)
    (hbound : bound.toNat = last + 1) {option : Option (List Char)} {line : List Char}
    (hline : ∀ s, option = some s → line = output s) :
    DemonValue last default.toNat option (demonParamOf bound default (UInt8.ofInt (strtol line))) ↔
      DemonRead last default.toNat option line := by
  have hvalue := toNat_demonParamOf hbound default (strtol line)
  have hlast : last < 255 := by
    have := bound.toNat_lt
    omega
  have hnumber : ∀ s, option = some s → Digits s → decimal s ≤ last →
      strtol line = decimal (s.take 63) ∧ decimal (s.take 63) ≤ decimal s := by
    intro s hs hdigits hle
    have hcut := decimal_take_le s 63
    rw [hline s hs, strtol_output hdigits]
    omega
  constructor
  · rintro ⟨hnum, hother⟩
    refine ⟨fun s hs hdigits hpos hle => ?_, fun hnone => ?_⟩
    · have heq := hnum (decimal s) ⟨s, hs, hdigits, rfl⟩ hpos hle
      obtain ⟨hstrtol, hcut⟩ := hnumber s hs hdigits hle
      split at hvalue <;> omega
    · have heq := hother hnone
      split at hvalue <;> omega
  · rintro ⟨hnum, hother⟩
    refine ⟨?_, fun hnone => ?_⟩
    · rintro _ ⟨s, hs, hdigits, rfl⟩ hpos hle
      obtain ⟨hstrtol, hcut⟩ := hnumber s hs hdigits hle
      have hread := hnum s hs hdigits hpos hle
      split at hvalue <;> omega
    · have hread := hother hnone
      split at hvalue <;> omega

/-- **The parameters of the daemon**, whatever is in the buffer at first. -/
theorem demonOptionsRead_iff (options : DemonOptions) :
    (∀ buffer, DemonValue 59 3 options.testDelay (getDemonParam buffer options).testDelay ∧
      DemonValue 254 10 options.testNum (getDemonParam buffer options).testNum ∧
        DemonValue 254 13 options.maxReset (getDemonParam buffer options).maxReset) ↔
      DemonOptionsRead options := by
  have hread : ∀ buffer s, options.testDelay = some s →
      ((DemonValue 59 3 options.testDelay (getDemonParam buffer options).testDelay ∧
        DemonValue 254 10 options.testNum (getDemonParam buffer options).testNum ∧
          DemonValue 254 13 options.maxReset (getDemonParam buffer options).maxReset) ↔
        DemonRead 59 3 options.testDelay (output s) ∧
          DemonRead 254 10 options.testNum (output (options.testNum.getD s)) ∧
            DemonRead 254 13 options.maxReset
              (output (options.maxReset.getD (options.testNum.getD s)))) := by
    intro buffer s hs
    have hdelay : readOption buffer options.testDelay = output s := by rw [hs]; rfl
    have hnum : readOption (output s) options.testNum = output (options.testNum.getD s) := by
      cases options.testNum <;> rfl
    have hreset : readOption (output (options.testNum.getD s)) options.maxReset =
        output (options.maxReset.getD (options.testNum.getD s)) := by
      cases options.maxReset <;> rfl
    dsimp only [getDemonParam]
    rw [hdelay, hnum, hreset]
    refine and_congr (demonValue_iff 3 rfl ?_)
      (and_congr (demonValue_iff 10 rfl ?_) (demonValue_iff 13 rfl ?_))
    · intro t ht
      rw [Option.some_inj.mp (hs.symm.trans ht)]
    · intro t ht
      rw [ht, Option.getD_some]
    · intro t ht
      rw [ht, Option.getD_some]
  constructor
  · intro h
    cases hs : options.testDelay with
    | none =>
      -- A number that is in the buffer by chance is taken.
      have hfive := (h ['5']).1.of_other
      dsimp only [getDemonParam] at hfive
      rw [hs] at hfive
      exact absurd (hfive (by rintro n ⟨s, hsome, -⟩; cases hsome)) (by decide)
    | some s => exact ⟨s, hs, (hread [] s hs).mp (h [])⟩
  · rintro ⟨s, hs, h⟩ buffer
    exact (hread buffer s hs).mpr h

/-! ## Tests -/

theorem testName_injective {t u : TypeOfTest} (h : testName t = testName u) : t = u := by
  revert h
  cases t <;> cases u <;> decide

theorem newline_not_mem_testName (t : TypeOfTest) : '\n' ∉ testName t := by
  cases t <;> decide

theorem getCmdKey_eq_some_iff (str : List Char) (t : TypeOfTest) :
    getCmdKey str = some t ↔ str = testName t ++ ['\n'] := by
  constructor
  · intro h
    simpa using List.find?_some h
  · rintro rfl
    cases t <;> decide

/-- The line is the name of a test. -/
theorem output_eq_testName_iff (s : List Char) (t : TypeOfTest) :
    output s = testName t ++ ['\n'] ↔ s.takeWhile (· ≠ '\n') = testName t := by
  have hlen : (testName t).length ≤ 7 := by cases t <;> decide
  rw [output_eq]
  constructor
  · intro h
    have hshort : (s.takeWhile (· ≠ '\n') ++ ['\n']).length ≤ 63 := by
      have hle := congrArg List.length h
      simp only [List.length_take, List.length_append, List.length_singleton] at hle ⊢
      omega
    rw [List.take_of_length_le hshort] at h
    exact List.append_cancel_right h
  · intro h
    rw [h]
    refine List.take_of_length_le ?_
    rw [List.length_append, List.length_singleton]
    omega

/-- The validators let the parameters of a test pass. -/
def Passed (overflow : Int → Int) (line : PortTexts (List Char)) : TypeOfTest → Prop
  | .testDisable => True
  | .testLink => True
  | .testPing => checkValidIp ((line.host.take 16).takeWhile (· ≠ '\n')) = true
  | .testSpeed => (0 ≤ strtol line.maxSpeed ∧ strtol line.maxSpeed ≤ 1000000) ∧
      (strtol line.minSpeed = 0 ∨ 10 ≤ strtol line.maxSpeed)
  | .testTime => isValidTime overflow line.timeUp = true ∧ isValidTime overflow line.timeDown = true

theorem toNat_ofInt32 (v : Int) : ((UInt32.ofInt v).toNat : Int) = v % 2 ^ 32 := by
  have hnonneg := Int.emod_nonneg v (show (2 ^ 32 : Int) ≠ 0 by decide)
  have hlt := Int.emod_lt_of_pos v (show (0 : Int) < 2 ^ 32 by decide)
  rw [UInt32.ofInt, UInt32.toNat_ofNat']
  omega

/-- A negative speed is too large. -/
theorem speeds_pass_iff (maxStr minStr : List Char) :
    (¬ (UInt32.ofInt (strtol maxStr) ≠ 0 ∧ UInt32.ofInt (strtol maxStr) > 1000000) ∧
      ¬ (UInt32.ofInt (strtol minStr) ≠ 0 ∧ UInt32.ofInt (strtol maxStr) < 10)) ↔
      (0 ≤ strtol maxStr ∧ strtol maxStr ≤ 1000000) ∧
        (strtol minStr = 0 ∨ 10 ≤ strtol maxStr) := by
  have hmax := toNat_ofInt32 (strtol maxStr)
  have hmin := toNat_ofInt32 (strtol minStr)
  have hmaxr := strtol_range maxStr
  have hminr := strtol_range minStr
  have h0 : (0 : UInt32).toNat = 0 := rfl
  have h10 : (10 : UInt32).toNat = 10 := rfl
  have h1000000 : (1000000 : UInt32).toNat = 1000000 := rfl
  simp only [gt_iff_lt, UInt32.lt_iff_toNat_lt, Ne, ← UInt32.toNat_inj, h0, h10, h1000000]
  omega

theorem setErrorHandler_of_ok {p : ParamPort} (h : p.errorCode = errOk) :
    (setErrorHandler p).test = p.test := by
  have hnone : (disablingErrors.any fun e => errOk &&& e ≠ 0#32) = false := by decide
  rw [setErrorHandler, h, hnone]
  rfl

theorem setErrorHandler_of_error {p : ParamPort} {e : ErrorCode} (he : e ∈ disablingErrors)
    (h : p.errorCode &&& e ≠ 0#32) : (setErrorHandler p).test = .testDisable := by
  have hany : (disablingErrors.any fun e => p.errorCode &&& e ≠ 0#32) = true :=
    List.any_eq_true.mpr ⟨e, he, decide_eq_true h⟩
  rw [setErrorHandler, hany]
  rfl

theorem setErrorHandler_of_disable {p : ParamPort} (h : p.test = .testDisable) :
    (setErrorHandler p).test = .testDisable := by
  rcases setErrorHandler_eq p with heq | heq <;> rw [heq]
  exact h

/-- A line that is not the name of a test. -/
theorem getPortParam_of_none (clock : Clock) {line : PortTexts (List Char)}
    (h : getCmdKey line.state = none) (port : Nat) :
    (getPortParam clock line port).test = .testDisable := by
  rw [getPortParam, h]
  exact setErrorHandler_of_disable rfl

/-- **The test whose name was read**, if its parameters passed. -/
theorem getPortParam_of_passed {clock : Clock} {line : PortTexts (List Char)} {t : TypeOfTest}
    (hkey : getCmdKey line.state = some t) (hpass : Passed clock.overflow line t) (port : Nat) :
    (getPortParam clock line port).test = t := by
  rw [getPortParam, hkey]
  cases t with
  | testDisable => exact setErrorHandler_of_disable rfl
  | testLink => exact setErrorHandler_of_ok rfl
  | testPing =>
    refine setErrorHandler_of_ok ?_
    dsimp only [Passed] at hpass
    dsimp only [setTestConfig, portSetHostParam, paramPortInit]
    rw [if_pos hpass]
    decide
  | testSpeed =>
    refine setErrorHandler_of_ok ?_
    obtain ⟨hmax, hmin⟩ := (speeds_pass_iff line.maxSpeed line.minSpeed).mpr hpass
    dsimp only [setTestConfig, portSetSpeedParam, paramPortInit]
    rw [if_neg hmin, if_neg hmax]
  | testTime =>
    refine setErrorHandler_of_ok ?_
    dsimp only [setTestConfig, portSetTimeParam, timeError, paramPortInit]
    rw [if_pos hpass.1, if_pos hpass.2]
    decide

/-- **No test**, if the parameters did not pass. -/
theorem getPortParam_of_not_passed {clock : Clock} {line : PortTexts (List Char)} {t : TypeOfTest}
    (hkey : getCmdKey line.state = some t) (hpass : ¬ Passed clock.overflow line t) (port : Nat) :
    (getPortParam clock line port).test = .testDisable := by
  rw [getPortParam, hkey]
  cases t with
  | testDisable => exact absurd trivial hpass
  | testLink => exact absurd trivial hpass
  | testPing =>
    have hip : errIpNotValid ∈ disablingErrors := by simp [disablingErrors]
    refine setErrorHandler_of_error hip ?_
    dsimp only [Passed] at hpass
    dsimp only [setTestConfig, portSetHostParam, paramPortInit]
    rw [if_neg hpass]
    decide
  | testSpeed =>
    have hspeed : errSpeedValue ∈ disablingErrors := by simp [disablingErrors]
    refine setErrorHandler_of_error hspeed ?_
    have hreject := mt (speeds_pass_iff line.maxSpeed line.minSpeed).mp hpass
    dsimp only [setTestConfig, portSetSpeedParam, paramPortInit]
    by_cases hmin : UInt32.ofInt (strtol line.minSpeed) ≠ 0 ∧
      UInt32.ofInt (strtol line.maxSpeed) < 10
    · rw [if_pos hmin]
      split <;> decide
    · rw [if_neg hmin, if_pos (by_contra fun hmax => hreject ⟨hmax, hmin⟩)]
      decide
  | testTime =>
    have htime : errTimeNotValid ∈ disablingErrors := by simp [disablingErrors]
    refine setErrorHandler_of_error htime ?_
    dsimp only [setTestConfig, portSetTimeParam, timeError, paramPortInit]
    by_cases hup : isValidTime clock.overflow line.timeUp = true
    · rw [if_pos hup, if_neg fun hdown => hpass ⟨hup, hdown⟩]
      decide
    · rw [if_neg hup]
      split <;> decide

/-! ## Every port -/

/-- Texts that pass every validator. -/
def goodStack : PortTexts (List Char) where
  state := "link\n".toList
  host := "1.1.1.1".toList
  minSpeed := ['0']
  maxSpeed := "10".toList
  timeUp := "0:0".toList
  timeDown := "0:0".toList

theorem timeRead_iff (overflow : Int → Int) (s : List Char) :
    isValidTime overflow (output s) = true ↔ TimeRead overflow s :=
  isValidTime_iff overflow (output s)

/-- What passes may pass. -/
theorem mayPass_of_passed {overflow : Int → Int} {stack : PortTexts (List Char)}
    {options : PortOptions} {t : TypeOfTest}
    (h : Passed overflow (readPort stack options) t) : MayPass overflow options t := by
  cases t with
  | testDisable => trivial
  | testLink => trivial
  | testPing =>
    intro s hs
    dsimp only [Passed, readPort] at h
    rw [hs] at h
    exact (checkValidIp_hostParam s).mp h
  | testSpeed =>
    dsimp only [Passed, readPort] at h
    refine ⟨fun s hs => ?_, fun s t hs ht => ?_⟩
    · rw [hs] at h
      exact h.1
    · rw [hs, ht] at h
      exact h.2
  | testTime =>
    dsimp only [Passed, readPort] at h
    refine ⟨fun s hs => ?_, fun s hs => ?_⟩
    · rw [hs] at h
      exact (timeRead_iff overflow s).mp h.1
    · rw [hs] at h
      exact (timeRead_iff overflow s).mp h.2

theorem isValidTime_zero (overflow : Int → Int) : isValidTime overflow "0:0".toList = true := by
  have hscan : sscanfTime "0:0".toList = some (0, 0) := by decide
  have hzero : toInt overflow 0 = 0 := if_pos (by decide)
  rw [isValidTime, hscan]
  dsimp only
  rw [hzero]
  decide

/-- What may pass does pass with a suitable stack. -/
theorem passed_of_mayPass {overflow : Int → Int} {options : PortOptions} {t : TypeOfTest}
    (h : MayPass overflow options t) : Passed overflow (readPort goodStack options) t := by
  have htime : ∀ {o : Option (List Char)}, (∀ s, o = some s → TimeRead overflow s) →
      isValidTime overflow (readOption "0:0".toList o) = true := by
    intro o ho
    cases o with
    | none => exact isValidTime_zero overflow
    | some s => exact (timeRead_iff overflow s).mpr (ho s rfl)
  cases t with
  | testDisable => trivial
  | testLink => trivial
  | testPing =>
    dsimp only [Passed, readPort]
    cases hhost : options.host with
    | none => decide
    | some s => exact (checkValidIp_hostParam s).mpr (h s hhost)
  | testSpeed =>
    obtain ⟨hmax, hmin⟩ := h
    dsimp only [Passed, readPort]
    cases hs : options.maxSpeed with
    | none => exact ⟨by decide, .inr (by decide)⟩
    | some s =>
      refine ⟨hmax s hs, ?_⟩
      cases ht : options.minSpeed with
      | none => exact .inl (by decide)
      | some t => exact hmin s t hs ht
  | testTime => exact ⟨htime h.1, htime h.2⟩

theorem output_eq_self {s : List Char} (hline : '\n' ∉ s) (hlen : s.length ≤ 62) :
    output s = s ++ ['\n'] := by
  rw [output_eq, takeWhile_eq_self hline]
  refine List.take_of_length_le ?_
  rw [List.length_append, List.length_singleton]
  omega

theorem timeRead_of_isTime {overflow : Int → Int} {s : List Char} (h : IsTime s) :
    TimeRead overflow s := by
  obtain ⟨hh, mm, rfl, ⟨hhh, hhl, hh23⟩, hmm, hml, hm59⟩ := h
  have hline : '\n' ∉ hh ++ ':' :: mm := by
    simp [newline_not_mem hhh, newline_not_mem hmm]
  have hout : output (hh ++ ':' :: mm) = [] ++ (hh ++ ':' :: ([] ++ (mm ++ ['\n']))) := by
    rw [output_eq_self hline (by simp; omega)]
    simp
  have hskip : Skipped [] := ⟨[], [], rfl, by simp, .inl rfl⟩
  have hvalue : ∀ digits : List Char, decimal digits ≤ 59 →
      toInt overflow (signed [] digits) = decimal digits := by
    intro digits hle
    have hsigned : signed [] digits = decimal digits := by simp [signed]
    rw [hsigned, toInt, if_pos (by omega)]
  refine ⟨[], hh, [], mm, ⟨⟨['\n'], by rintro c ⟨⟩; decide, hout⟩, hskip, hskip, hhh, hmm⟩, ?_⟩
  rw [hvalue hh (by omega), hvalue mm hm59]
  omega

theorem addressRead_of_isAddress {s : List Char} (h : IsAddress s) : AddressRead s := by
  obtain ⟨a, b, c, d, ⟨⟨ha, ha3, -⟩, ⟨hb, hb3, -⟩, ⟨hc, hc3, -⟩, hd, hd3, -⟩, rfl⟩ := h
  exact ⟨a, b, c, d, ⟨ha, ha3⟩, ⟨hb, hb3⟩, ⟨hc, hc3⟩, ⟨hd, hd3⟩,
    takeWhile_dotted ha hb hc hd (.inl rfl)⟩

/-- The speeds of a valid test. -/
theorem passed_speed_iff {overflow : Int → Int} {stack : PortTexts (List Char)}
    {options : PortOptions} (hvalid : ValidParameters options .testSpeed) :
    Passed overflow (readPort stack options) .testSpeed ↔
      ∀ s t, options.maxSpeed = some s → options.minSpeed = some t →
        decimal (t.take 63) = 0 ∨ 10 ≤ decimal (s.take 63) := by
  obtain ⟨_, _, ⟨s, hs, hsd, rfl⟩, ⟨t, ht, htd, rfl⟩, hmax, -⟩ := hvalid
  have hcut := decimal_take_le s 63
  dsimp only [Passed, readPort]
  rw [hs, ht]
  dsimp only [readOption]
  rw [strtol_output hsd, strtol_output htd]
  constructor
  · rintro ⟨-, h⟩ _ _ ⟨⟩ ⟨⟩
    omega
  · intro h
    have := h s t rfl rfl
    omega

/-- The parameters of the other tests pass if they are valid. -/
theorem passed_of_valid {overflow : Int → Int} {stack : PortTexts (List Char)}
    {options : PortOptions} {t : TypeOfTest} (ht : t ≠ .testSpeed)
    (hvalid : ValidParameters options t) : Passed overflow (readPort stack options) t := by
  cases t with
  | testDisable => trivial
  | testLink => trivial
  | testPing =>
    obtain ⟨s, hs, haddress⟩ := hvalid
    dsimp only [Passed, readPort]
    rw [hs]
    exact (checkValidIp_hostParam s).mpr (addressRead_of_isAddress haddress)
  | testSpeed => exact absurd rfl ht
  | testTime =>
    obtain ⟨up, down, hup, hdown, hupTime, hdownTime⟩ := hvalid
    dsimp only [Passed, readPort]
    rw [hup, hdown]
    exact ⟨(timeRead_iff overflow up).mpr (timeRead_of_isTime hupTime),
      (timeRead_iff overflow down).mpr (timeRead_of_isTime hdownTime)⟩

/-- **One port**, whatever is on the stack. -/
theorem portOptionsRead_iff (clock : Clock) (options : PortOptions) (port : Nat) :
    (∀ stack, ActiveTest options (getPortParam clock (readPort stack options) port).test) ↔
      PortOptionsRead clock.overflow options := by
  have hkey : ∀ stack {state test}, options.state = some state →
      (getCmdKey (readPort stack options).state = some test ↔
        state.takeWhile (· ≠ '\n') = testName test) := by
    intro stack state test hstate
    rw [getCmdKey_eq_some_iff, readPort, hstate, readOption, output_eq_testName_iff]
  constructor
  · intro h
    cases hstate : options.state with
    | none =>
      -- The name of a test that is on the stack by chance is taken.
      have hlink : (getPortParam clock (readPort goodStack options) port).test = .testLink := by
        refine getPortParam_of_passed (t := .testLink) ?_ trivial port
        dsimp only [readPort]
        rw [hstate]
        decide
      have hdisable := (h goodStack).of_other (by rw [hstate]; rintro t ⟨⟩)
      rw [hlink] at hdisable
      cases hdisable
    | some state =>
      refine ⟨state, hstate, fun test htest hname => ⟨fun hmay => ?_, fun heq hspeed hvalid => ?_⟩⟩
      · have hactive := getPortParam_of_passed ((hkey goodStack hstate).mpr hname)
          (passed_of_mayPass hmay) port
        by_contra hnot
        refine htest (hactive.symm.trans ((h goodStack).of_other fun t ht hvalid => hnot ?_))
        have heq := Option.some_inj.mp (hstate.symm.trans ht)
        have hsame : t = test := by
          refine testName_injective ?_
          rw [← hname, heq, takeWhile_eq_self (newline_not_mem_testName t)]
        exact ⟨hsame ▸ heq, hsame ▸ hvalid⟩
      · subst hspeed
        have hactive := (h goodStack).of_valid .testSpeed (by rw [hstate, heq]) hvalid
        have hpass : Passed clock.overflow (readPort goodStack options) .testSpeed := by
          by_contra hnot
          rw [getPortParam_of_not_passed ((hkey goodStack hstate).mpr hname) hnot port] at hactive
          cases hactive
        exact (passed_speed_iff hvalid).mp hpass
  · rintro ⟨state, hstate, hread⟩ stack
    refine ⟨fun t ht hvalid => ?_, fun hnone => ?_⟩
    · have heq := Option.some_inj.mp (hstate.symm.trans ht)
      have hname : state.takeWhile (· ≠ '\n') = testName t := by
        rw [heq, takeWhile_eq_self (newline_not_mem_testName t)]
      refine getPortParam_of_passed ((hkey stack hstate).mpr hname) ?_ port
      by_cases hspeed : t = .testSpeed
      · have hslip := (hread t (by rw [hspeed]; decide) hname).2 heq hspeed hvalid
        subst hspeed
        exact (passed_speed_iff hvalid).mpr hslip
      · exact passed_of_valid hspeed hvalid
    · cases hfound : getCmdKey (readPort stack options).state with
      | none => exact getPortParam_of_none clock hfound port
      | some t =>
        by_cases hpass : Passed clock.overflow (readPort stack options) t
        · rw [getPortParam_of_passed hfound hpass port]
          by_contra hne
          have hname := (hkey stack hstate).mp hfound
          obtain ⟨heq, hvalid⟩ := (hread t hne hname).1 (mayPass_of_passed hpass)
          exact hnone t (by rw [hstate, heq]) hvalid
        · exact getPortParam_of_not_passed hfound hpass port

/-- **When the daemon starts as it is configured**, whatever is on the stack: every
option is there that is looked at, and what is read of it is what it says. -/
theorem started_as_configured_iff (clock : Nat → Clock) (options : Options) (now : Nat) :
    (∀ stack, StartedAs options (mainInit (readConfig clock stack options) now)) ↔
      DemonOptionsRead options.demon ∧
        ∀ p : PortNum, PortOptionsRead (clock p.val).overflow (options.port p.val) := by
  constructor
  · intro h
    refine ⟨(demonOptionsRead_iff options.demon).mp fun buffer => ?_, fun p => ?_⟩
    · have hstart := h ⟨buffer, fun _ => goodStack⟩
      exact ⟨hstart.testDelay, hstart.testNum, hstart.maxReset⟩
    · refine (portOptionsRead_iff (clock p.val) (options.port p.val) p.val).mp fun stack => ?_
      have htest := (h ⟨[], fun _ => stack⟩).port p
      rwa [paramPort_mainInit] at htest
  · rintro ⟨hdemon, hport⟩ stack
    obtain ⟨hdelay, hnum, hreset⟩ := (demonOptionsRead_iff options.demon).mpr hdemon stack.output
    refine ⟨hdelay, hnum, hreset, fun p => ?_⟩
    rw [paramPort_mainInit]
    exact (portOptionsRead_iff (clock p.val) (options.port p.val) p.val).mpr (hport p)
      (stack.port p.val)

/-- A delay that is too long. -/
def longDelay : Options where
  demon := ⟨some "300".toList, some "6".toList, some "3".toList⟩
  port _ := ⟨some "link".toList, none, none, none, none, none⟩

/-- The delay becomes 44 seconds. -/
theorem longDelay_misread :
    ¬ ∀ stack, StartedAs longDelay
      (mainInit (readConfig (fun _ => ⟨0, 0, fun _ _ _ => 0, id⟩) stack longDelay) 0) := by
  intro h
  have hstart := h ⟨[], fun _ => goodStack⟩
  have hdelay := hstart.testDelay.of_other (by
    rintro n ⟨s, hs, -, rfl⟩
    cases hs
    decide)
  exact absurd hdelay (by decide)

end TfPackages.Restart
