import TfPackages.RestartPort
import TfPackages.Runs
import Mathlib.Data.List.Range
import Mathlib.Logic.Function.Basic

/-! # The auto-restart daemon

The daemon's globals are two arrays, `portInfoArr` and `rebootParam`, and the
parameters.  `mainHandler` is called in every round of `mainApp`'s loop; when the
next tick is due it walks over the eight ports.  `rebootHandler` reaches its
entry of `rebootParam` through the `portNum` field of the port's record, so that
the walk treats every port by itself is a fact about reachable states:
`Numbered` says that every record carries its own index, and `view_tick` then
reduces a tick to one call of `handlePort` for each port.

A run of the daemon is a list of `Event`s: a manual request that `mainApp` reads
from the pipe, a call of `mainHandler`, or a change of the test-result bits of a
port.
-/
namespace TfPackages.Restart

/-- A port number: `1 <= port < NUM_PORTS`. -/
@[ext]
structure PortNum where
  val : Nat
  one_le : 1 ≤ val
  le_eight : val ≤ 8
deriving DecidableEq, Repr

/-- The ports in the order of `for (port = 1; port < NUM_PORTS; port++)`. -/
def ports : List Nat := List.range' 1 8

theorem PortNum.mem_ports (p : PortNum) : p.val ∈ ports := by
  have h1 := p.one_le
  have h8 := p.le_eight
  rw [ports, List.mem_range'_1]
  omega

/-- A statement about all ports can be checked port by port. -/
instance (P : PortNum → Prop) [DecidablePred P] : Decidable (∀ p, P p) :=
  decidable_of_iff (∀ i : Fin 8, P ⟨i.val + 1, by omega, by omega⟩) <| by
    refine ⟨fun h p => ?_, fun h i => h _⟩
    have h1 := p.one_le
    have h8 := p.le_eight
    have hp : (⟨p.val - 1 + 1, by omega, by omega⟩ : PortNum) = p :=
      PortNum.ext (Nat.sub_add_cancel h1)
    exact hp ▸ h ⟨p.val - 1, by omega⟩

/-- The daemon's globals, and the calls of `poe_Control` made so far. -/
structure Daemon where
  portInfoArr : Nat → PortInfo
  rebootParam : Nat → RebootParam
  demonParam : DemonParam
  poeCalls : List PoeCall

/-- What `mainHandler` and the handlers read from outside during one call. -/
structure Readings where
  /-- `nowTime` of `mainHandler`. -/
  now : Nat
  /-- The readings at each port's turn. -/
  port : Nat → Reading

/-- The turn of one port in the loop of `mainHandler`.  The entry of
`rebootParam` is the one that `paramPort.portNum` names. -/
def portTurn (r : Readings) (d : Daemon) (port : Nat) : Daemon :=
  let portInfo := d.portInfoArr port
  let portNum := portInfo.paramPort.portNum.toNat
  let h := handlePort portInfo (d.rebootParam portNum) d.demonParam (r.port port)
  { d with
    portInfoArr := Function.update d.portInfoArr port h.portInfo
    rebootParam := Function.update d.rebootParam portNum h.rebootParam
    poeCalls := d.poeCalls ++ h.calls }

/-- `mainTime` moved on by one `test_delay`. -/
def DemonParam.advance (p : DemonParam) : DemonParam :=
  { p with mainTime := p.mainTime + p.testDelay.toUInt32 }

/-- The next tick is due: `nowTime >= demonParam.mainTime`. -/
def Daemon.Due (d : Daemon) (r : Readings) : Prop := UInt32.ofNat r.now ≥ d.demonParam.mainTime

instance (d : Daemon) (r : Readings) : Decidable (d.Due r) :=
  inferInstanceAs (Decidable (UInt32.ofNat r.now ≥ d.demonParam.mainTime))

/-- `mainHandler`.  `createTread` and `joinThread` are not called. -/
def mainHandler (d : Daemon) (r : Readings) : Daemon :=
  if d.Due r then
    ports.foldl (portTurn r) { d with demonParam := d.demonParam.advance }
  else d

/-- The bits of `errorCode` that report test results. -/
def testResultBits : ErrorCode := errOk ||| errTestLink ||| errTestPing ||| errTestSpeed

/-- What happens to the daemon. -/
inductive Event where
  /-- `mainApp` reads a `cmd_reboot` message for the port from the pipe. -/
  | manual (port : PortNum)
  /-- `mainHandler` is called. -/
  | tick (r : Readings)
  /-- The test-result bits of the port become those of `code`. -/
  | results (port : PortNum) (code : ErrorCode)

/-- `errorCode` with its test-result bits replaced by those of `code`. -/
def setResults (code : ErrorCode) (portInfo : PortInfo) : PortInfo :=
  portInfo.mapCode fun c => Flags.clear c testResultBits ||| (code &&& testResultBits)

/-- One step of the daemon. -/
def step (d : Daemon) : Event → Daemon
  | .manual port =>
    { d with
      portInfoArr :=
        Function.update d.portInfoArr port.val (requestReboot (d.portInfoArr port.val)) }
  | .tick r => mainHandler d r
  | .results port code =>
    { d with
      portInfoArr :=
        Function.update d.portInfoArr port.val (setResults code (d.portInfoArr port.val)) }

/-! ## Start-up -/

/-- What `getPortParam` reads for a port: the test with its parameters, and an
`errorCode` that has no test results in it yet. -/
structure PortConfig where
  test : TypeOfTest
  host : String
  timeUp : TimeHM
  timeDown : TimeHM
  minSpeed : UInt32
  maxSpeed : UInt32
  timePrev : UInt32
  errorCode : ErrorCode
  no_results : errorCode &&&
    (errPortDisable ||| errTestLink ||| errTestPing ||| errTestSpeed ||| errTimeAlarm) = 0#32

/-- What `getDemonParam` leaves: parameters in their ranges. -/
structure DemonConfig where
  testDelay : UInt8
  testNum : UInt8
  maxReset : UInt8
  testDelay_range : 0 < testDelay ∧ testDelay < 60
  testNum_range : 0 < testNum ∧ testNum < 255
  maxReset_range : 0 < maxReset ∧ maxReset < 255

/-- The whole configuration. -/
structure Config where
  demon : DemonConfig
  port : Nat → PortConfig

/-- `portInfoArr[port]` after `getPortParam`. -/
def PortConfig.toInfo (c : PortConfig) (port : Nat) : PortInfo where
  paramPort :=
    { test := c.test
      portNum := UInt8.ofNat port
      resetCount := 0
      totalResetCount := 0
      errorTestCount := 0
      host := c.host
      timeStr := ""
      timeUp := c.timeUp
      timeDown := c.timeDown
      minSpeed := c.minSpeed
      maxSpeed := c.maxSpeed
      replyTime := 0
      rxBytePrev := 0
      rxByteCurrent := 0
      rxDeltaByte := 0
      rxSpeedKbit := 0
      timeCurrent := 0
      timePrev := c.timePrev
      errorCode := c.errorCode }
  event := idleEvent
  state := .regularSate

/-- `rebootParamInit`. -/
def rebootParamInit : RebootParam := ⟨.idle, rebootEventIdle, 15, 0⟩

/-- `mainInit`, with the clock `runTimer` reads. -/
def mainInit (c : Config) (now : Nat) : Daemon where
  portInfoArr port := (c.port port).toInfo port
  rebootParam _ := rebootParamInit
  demonParam := ⟨c.demon.testDelay, c.demon.testNum, c.demon.maxReset,
    UInt32.ofNat now + c.demon.testDelay.toUInt32⟩
  poeCalls := []

/-- The parameters `demonParam` is initialised with, and a link test on every
port. -/
def linkConfig : Config where
  demon := ⟨3, 10, 13, by decide, by decide, by decide⟩
  port _ := ⟨.testLink, "", ⟨0, 0, 0, 0⟩, ⟨0, 0, 0, 0⟩, 0, 0, 0, errOk, by decide⟩

/-! ## Every port by itself -/

/-- Every port's record carries the port's own number. -/
def Numbered (d : Daemon) : Prop :=
  ∀ p : PortNum, (d.portInfoArr p.val).paramPort.portNum = UInt8.ofNat p.val

/-- All that the daemon keeps about one port. -/
structure View where
  portInfo : PortInfo
  rebootParam : RebootParam
  calls : List PoeCall
deriving DecidableEq

/-- The port's two records and the calls of `poe_Control` made for it. -/
def Daemon.view (d : Daemon) (p : PortNum) : View where
  portInfo := d.portInfoArr p.val
  rebootParam := d.rebootParam p.val
  calls := d.poeCalls.filter fun c => c.port = UInt8.ofNat p.val

/-- A tick seen by one port. -/
def View.tick (v : View) (demonParam : DemonParam) (r : Reading) : View :=
  let h := handlePort v.portInfo v.rebootParam demonParam r
  ⟨h.portInfo, h.rebootParam, v.calls ++ h.calls⟩

theorem PortNum.toNat_ofNat (p : PortNum) : (UInt8.ofNat p.val).toNat = p.val := by
  have := p.le_eight
  simp only [UInt8.toNat_ofNat']
  omega

theorem PortNum.ofNat_inj {p q : PortNum} (h : UInt8.ofNat p.val = UInt8.ofNat q.val) : p = q := by
  have := congrArg UInt8.toNat h
  rw [p.toNat_ofNat, q.toNat_ofNat] at this
  exact PortNum.ext this

/-- No handler rewrites a port's number, and all its calls name it. -/
theorem handlePort_portNum (i : PortInfo) (b : RebootParam) (dp : DemonParam) (r : Reading) :
    (handlePort i b dp r).portInfo.paramPort.portNum = i.paramPort.portNum ∧
      ∀ c ∈ (handlePort i b dp r).calls, c.port = i.paramPort.portNum := by
  unfold handlePort
  split
  · exact ⟨rfl, by simp⟩
  split
  · unfold rebootHandler
    split
    · simp only [rebootIdle, autoResetHandler, manualResetHandler]
      split_ifs <;> simp
    · exact ⟨rfl, by simp [rebootInit]⟩
    · refine ⟨rfl, ?_⟩
      simp only [rebootPoeDown]
      split_ifs <;> simp
    · simp only [rebootPoeUp]
      split_ifs <;> simp [PortInfo.mapCode]
  · have hcount : (countErrors i dp).paramPort.portNum = i.paramPort.portNum := by
      simp only [countErrors]
      split_ifs <;> rfl
    simp only [testErrorHandler, switchOnAlarm]
    split_ifs <;> simp [hcount]
  · exact ⟨rfl, by simp⟩

theorem numbered_mainInit (c : Config) (now : Nat) : Numbered (mainInit c now) := fun _ => rfl

theorem numbered_portTurn {d : Daemon} (h : Numbered d) (r : Readings) (port : Nat) :
    Numbered (portTurn r d port) := by
  intro p
  by_cases hp : p.val = port
  · subst hp
    simp only [portTurn, Function.update_self]
    rw [(handlePort_portNum _ _ _ _).1, h p]
  · simp only [portTurn, Function.update_of_ne hp]
    exact h p

theorem numbered_turns {d : Daemon} (h : Numbered d) (r : Readings) (l : List Nat) :
    Numbered (l.foldl (portTurn r) d) := by
  induction l generalizing d with
  | nil => exact h
  | cons q l ih => exact ih (numbered_portTurn h r q)

theorem numbered_step (d : Daemon) (e : Event) (h : Numbered d) : Numbered (step d e) := by
  cases e with
  | manual q =>
    intro p
    by_cases hp : p.val = q.val
    · simp only [step, hp, Function.update_self, requestReboot]
      split <;> rw [← hp, ← h p]
    · simp only [step, Function.update_of_ne hp]
      exact h p
  | results q code =>
    intro p
    by_cases hp : p.val = q.val
    · simp only [step, hp, Function.update_self, setResults, PortInfo.mapCode]
      rw [← hp, ← h p]
    · simp only [step, Function.update_of_ne hp]
      exact h p
  | tick r =>
    simp only [step, mainHandler]
    split
    · exact numbered_turns (d := { d with demonParam := d.demonParam.advance }) h r ports
    · exact h

/-- The turn of a port changes that port, as `handlePort` says. -/
theorem view_portTurn_self {d : Daemon} (h : Numbered d) (r : Readings) (p : PortNum) :
    (portTurn r d p.val).view p = (d.view p).tick d.demonParam (r.port p.val) := by
  have hcalls := (handlePort_portNum (d.portInfoArr p.val) (d.rebootParam p.val) d.demonParam
    (r.port p.val)).2
  have hfilter : (handlePort (d.portInfoArr p.val) (d.rebootParam p.val) d.demonParam
      (r.port p.val)).calls.filter (fun c => c.port = UInt8.ofNat p.val) =
      (handlePort (d.portInfoArr p.val) (d.rebootParam p.val) d.demonParam
        (r.port p.val)).calls :=
    List.filter_eq_self.mpr fun c hc => by simpa [h p] using hcalls c hc
  simp only [portTurn, Daemon.view, View.tick, h p, p.toNat_ofNat, Function.update_self,
    List.filter_append, hfilter]

/-- The turn of a port changes no other port. -/
theorem view_portTurn_of_ne {d : Daemon} (h : Numbered d) (r : Readings) {p q : PortNum}
    (hpq : p ≠ q) : (portTurn r d q.val).view p = d.view p := by
  have hval : p.val ≠ q.val := fun hv => hpq (PortNum.ext hv)
  have hcalls := (handlePort_portNum (d.portInfoArr q.val) (d.rebootParam q.val) d.demonParam
    (r.port q.val)).2
  have hfilter : (handlePort (d.portInfoArr q.val) (d.rebootParam q.val) d.demonParam
      (r.port q.val)).calls.filter (fun c => c.port = UInt8.ofNat p.val) = [] := by
    refine List.filter_eq_nil_iff.mpr fun c hc => ?_
    have := hcalls c hc
    simp only [h q] at this
    simp only [this, decide_eq_true_eq]
    exact fun heq => hpq (PortNum.ofNat_inj heq).symm
  simp only [portTurn, Daemon.view, h q, q.toNat_ofNat, Function.update_of_ne hval,
    List.filter_append, hfilter, List.append_nil]

theorem demonParam_turns (r : Readings) (l : List Nat) (d : Daemon) :
    (l.foldl (portTurn r) d).demonParam = d.demonParam := by
  induction l generalizing d with
  | nil => rfl
  | cons q l ih => rw [List.foldl_cons, ih, portTurn]

/-- The turns of other ports leave a port alone. -/
theorem view_turns_of_not_mem {d : Daemon} (h : Numbered d) (r : Readings) (p : PortNum)
    {l : List Nat} (hl : ∀ q ∈ l, q ∈ ports) (hp : p.val ∉ l) :
    (l.foldl (portTurn r) d).view p = d.view p := by
  induction l generalizing d with
  | nil => rfl
  | cons q l ih =>
    have hq := hl q List.mem_cons_self
    rw [ports, List.mem_range'_1] at hq
    have hne : p ≠ ⟨q, by omega, by omega⟩ := by
      rintro rfl
      exact hp List.mem_cons_self
    rw [List.foldl_cons, ih (numbered_portTurn h r q)
      (fun x hx => hl x (List.mem_cons_of_mem _ hx)) (fun hx => hp (List.mem_cons_of_mem _ hx))]
    exact view_portTurn_of_ne h r hne

/-- **A tick, seen by one port, is one call of its handler.** -/
theorem view_tick {d : Daemon} (h : Numbered d) (r : Readings) (p : PortNum) :
    (mainHandler d r).view p =
      if d.Due r then (d.view p).tick d.demonParam.advance (r.port p.val) else d.view p := by
  unfold mainHandler
  by_cases hdue : d.Due r
  · rw [if_pos hdue, if_pos hdue]
    -- the loop up to the port, its turn, and the rest
    obtain ⟨before, after, hsplit⟩ := List.append_of_mem p.mem_ports
    have hnodup : ports.Nodup := by decide
    rw [hsplit, List.nodup_append] at hnodup
    have hbefore : p.val ∉ before := fun hb => hnodup.2.2 p.val hb p.val List.mem_cons_self rfl
    have hafter : p.val ∉ after := (List.nodup_cons.mp hnodup.2.1).1
    have hmem : ∀ q, q ∈ before ∨ q ∈ after → q ∈ ports := by
      intro q hq
      rw [hsplit, List.mem_append, List.mem_cons]
      tauto
    have h0 : Numbered { d with demonParam := d.demonParam.advance } := h
    rw [hsplit, List.foldl_append, List.foldl_cons,
      view_turns_of_not_mem (numbered_portTurn (numbered_turns h0 r before) r p.val) r p
        (fun q hq => hmem q (Or.inr hq)) hafter,
      view_portTurn_self (numbered_turns h0 r before), demonParam_turns,
      view_turns_of_not_mem h0 r p (fun q hq => hmem q (Or.inl hq)) hbefore]
    rfl
  · rw [if_neg hdue, if_neg hdue]

/-- A change to the record of one port leaves the others alone. -/
theorem view_update (d : Daemon) (f : PortInfo → PortInfo) (p q : PortNum) :
    Daemon.view
        { d with portInfoArr := Function.update d.portInfoArr q.val (f (d.portInfoArr q.val)) } p =
      if p = q then { d.view p with portInfo := f (d.view p).portInfo } else d.view p := by
  by_cases hp : p = q
  · subst hp
    rw [if_pos rfl]
    simp only [Daemon.view, Function.update_self]
  · have hval : p.val ≠ q.val := fun hv => hp (PortNum.ext hv)
    rw [if_neg hp]
    simp only [Daemon.view, Function.update_of_ne hval]

/-- **What a step does to one port.** -/
theorem view_step {d : Daemon} (h : Numbered d) (e : Event) (p : PortNum) :
    (step d e).view p =
      match e with
      | .manual q =>
        if p = q then { d.view p with portInfo := requestReboot (d.view p).portInfo } else d.view p
      | .tick r =>
        if d.Due r then (d.view p).tick d.demonParam.advance (r.port p.val) else d.view p
      | .results q code =>
        if p = q then { d.view p with portInfo := setResults code (d.view p).portInfo }
        else d.view p := by
  cases e with
  | tick r => exact view_tick h r p
  | manual q => exact view_update d requestReboot p q
  | results q code => exact view_update d (setResults code) p q

end TfPackages.Restart
