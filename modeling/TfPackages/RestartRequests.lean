import TfPackages.CStrings
import TfPackages.RestartDaemon

/-! # Requests for a manual restart

`tf_poe_restart_ctrl` turns its command line into a `sock_msg_t`; a child of the
daemon reads it from the socket and passes it on through a pipe, and the daemon
uses the number in it as an index of `portInfoArr`.  The number is checked once,
by the client, after the conversion to `uint8_t`: a number that only its last
eight bits bring into the range passes, and so does a missing argument.  The
daemon does not check the number at all.
-/
namespace TfPackages.Restart

/-- `sock_msg_t`, with any value in the place of the enumeration. -/
structure SockMsg where
  cmdType : UInt32
  port : UInt8
deriving DecidableEq, Repr

def cmdIdle : UInt32 := 0
def cmdStatus : UInt32 := 1
def cmdReboot : UInt32 := 2

/-! ## The client -/

/-- `cmdTable`, in the order of the enumeration. -/
def cmdTable : List (List UInt8 × UInt32) :=
  [(CStrings.lit " ", cmdIdle), (CStrings.lit "status", cmdStatus),
    (CStrings.lit "reboot", cmdReboot)]

/-- `getCmdType`. -/
def getCmdType (cmd : List UInt8) : UInt32 := (cmdTable.lookup cmd).getD cmdIdle

/-- `getPortNum`: the error code and the number. -/
def getPortNum (portStr : List UInt8) : UInt8 × UInt8 :=
  let intValue := UInt8.ofNat (CStrings.atoi portStr % 256).toNat
  if intValue < 1 ∨ 8 < intValue then (4, 0) else (0, intValue)

/-- `main_socket`: the error code and what `write_socket` writes. -/
def mainSocket (cmdStr : List UInt8) (portStr : Option (List UInt8)) : UInt8 × Option SockMsg :=
  let cmdType := getCmdType cmdStr
  let (errorCode, portNum) := match portStr with
    | none => (0, 0)
    | some portStr => getPortNum portStr
  if cmdType = cmdIdle ∨ errorCode = 4 then (errorCode ||| 1, none)
  else (errorCode, some ⟨cmdType, portNum⟩)

/-- `main` of the client.  With more arguments nothing is done. -/
def clientMain (argv : List (List UInt8)) : UInt8 × Option SockMsg :=
  match argv with
  | [] | [_] => (2, none)
  | [_, cmd] => mainSocket cmd none
  | [_, cmd, port] => mainSocket cmd (some port)
  | _ => (0, none)

/-- The number at the beginning of a text, after blanks and a sign. -/
def decimalValue (s : List UInt8) : Int :=
  let s := s.dropWhile fun c => c = 0x20 || (0x09 ≤ c && c ≤ 0x0d)
  let digits := fun t : List UInt8 =>
    CStrings.decimal (t.takeWhile fun c => 0x30 ≤ c && c ≤ 0x39)
  match s with
  | 0x2d :: t => -(digits t)
  | 0x2b :: t => digits t
  | t => digits t

theorem atoi_eq (s : List UInt8) :
    CStrings.atoi s = max (-2 ^ 31) (min (decimalValue s) (2 ^ 31 - 1)) := rfl

/-- The port `n` was asked for: there is an argument for it with this value, and
there is such a port. -/
def Asked (argv : List (List UInt8)) (n : Nat) : Prop :=
  ∃ portStr, argv[2]? = some portStr ∧ decimalValue portStr = n ∧ 1 ≤ n ∧ n ≤ 8

/-- A restart is requested only for the port that was asked for, and for none
without one. -/
def RequestsAsked (argv : List (List UInt8)) : Prop :=
  ∀ m, (clientMain argv).2 = some m → m.cmdType = cmdReboot → Asked argv m.port.toNat

/-- The value is not a port, but becomes one by the conversion to `uint8_t`. -/
def WrapsToPort (v : Int) : Prop :=
  (v < 1 ∨ 8 < v) ∧ (-2 ^ 31 ≤ v ∧ v < 2 ^ 31) ∧ 1 ≤ v % 256 ∧ v % 256 ≤ 8

instance (v : Int) : Decidable (WrapsToPort v) := inferInstanceAs (Decidable (_ ∧ _ ∧ _))

/-- The command is `reboot`, without a port or with a number that wraps. -/
def PortNotChecked (argv : List (List UInt8)) : Prop :=
  match argv with
  | [_, cmd] => cmd = CStrings.lit "reboot"
  | [_, cmd, portStr] => cmd = CStrings.lit "reboot" ∧ WrapsToPort (decimalValue portStr)
  | _ => False

theorem getCmdType_eq_reboot (cmd : List UInt8) :
    getCmdType cmd = cmdReboot ↔ cmd = CStrings.lit "reboot" := by
  constructor
  · intro h
    by_contra hne
    have hlookup : getCmdType cmd ≠ cmdReboot := by
      unfold getCmdType cmdTable
      simp only [List.lookup_cons]
      split
      · decide
      · split
        · decide
        · rw [show (cmd == CStrings.lit "reboot") = false from beq_eq_false_iff_ne.mpr hne]
          show cmdIdle ≠ cmdReboot
          decide
    exact hlookup h
  · rintro rfl
    decide

/-- What the check after the conversion lets through. -/
theorem getPortNum_cases (portStr : List UInt8) :
    (∃ n : Nat, CStrings.atoi portStr % 256 = n ∧ 1 ≤ n ∧ n ≤ 8 ∧
      getPortNum portStr = (0, UInt8.ofNat n)) ∨
    ¬ (1 ≤ CStrings.atoi portStr % 256 ∧ CStrings.atoi portStr % 256 ≤ 8) ∧
      getPortNum portStr = (4, 0) := by
  obtain ⟨n, hn⟩ : ∃ n : Nat, CStrings.atoi portStr % 256 = n :=
    ⟨(CStrings.atoi portStr % 256).toNat, by omega⟩
  have hval : (UInt8.ofNat n).toNat = n := by
    rw [UInt8.toNat_ofNat']
    omega
  unfold getPortNum
  rw [hn, Int.toNat_natCast]
  simp only [UInt8.lt_iff_toNat_lt, hval, UInt8.reduceToNat]
  by_cases hrange : 1 ≤ n ∧ n ≤ 8
  · exact .inl ⟨n, rfl, hrange.1, hrange.2, if_neg (by omega)⟩
  · exact .inr ⟨by omega, if_pos (by omega)⟩

/-- A value that `strtol` brings into its range does not become a port. -/
theorem wrapsToPort_iff (portStr : List UInt8) :
    WrapsToPort (decimalValue portStr) ↔
      ¬ (1 ≤ decimalValue portStr ∧ decimalValue portStr ≤ 8) ∧
        1 ≤ CStrings.atoi portStr % 256 ∧ CStrings.atoi portStr % 256 ≤ 8 := by
  rw [WrapsToPort, atoi_eq]
  omega

/-- The number in a restart message. -/
def RequestedPort (portStr : Option (List UInt8)) (n : Nat) : Prop :=
  match portStr with
  | none => n = 0
  | some portStr => CStrings.atoi portStr % 256 = n ∧ 1 ≤ n ∧ n ≤ 8

theorem mainSocket_reboot (cmd : List UInt8) (portStr : Option (List UInt8)) (m : SockMsg) :
    (mainSocket cmd portStr).2 = some m ∧ m.cmdType = cmdReboot ↔
      cmd = CStrings.lit "reboot" ∧
        ∃ n, RequestedPort portStr n ∧ m = ⟨cmdReboot, UInt8.ofNat n⟩ := by
  rw [← getCmdType_eq_reboot]
  have hidle : cmdReboot ≠ cmdIdle := by decide
  constructor
  · rintro ⟨hsent, hreboot⟩
    unfold mainSocket at hsent
    cases portStr with
    | none =>
      dsimp only at hsent
      split at hsent
      · cases hsent
      · cases hsent
        exact ⟨hreboot, 0, rfl, by rw [← hreboot]; rfl⟩
    | some portStr =>
      dsimp only at hsent
      rcases getPortNum_cases portStr with ⟨n, hn, h1, h8, hport⟩ | ⟨_, hport⟩
      · rw [hport] at hsent
        split at hsent
        · cases hsent
        · cases hsent
          exact ⟨hreboot, n, ⟨hn, h1, h8⟩, by rw [← hreboot]⟩
      · rw [hport, if_pos (.inr rfl)] at hsent
        cases hsent
  · rintro ⟨hreboot, n, hn, rfl⟩
    refine ⟨?_, rfl⟩
    unfold mainSocket
    rw [hreboot]
    cases portStr with
    | none =>
      cases hn
      rfl
    | some portStr =>
      obtain ⟨hval, h1, h8⟩ := hn
      rcases getPortNum_cases portStr with ⟨k, hk, _, _, hport⟩ | ⟨hno, _⟩
      · obtain rfl : k = n := by omega
        simp only [hport]
        rfl
      · omega

theorem requestsAsked_iff (argv : List (List UInt8)) :
    RequestsAsked argv ↔ ¬ PortNotChecked argv := by
  unfold RequestsAsked PortNotChecked clientMain
  match argv with
  | [] | [_] => simp
  | [prog, cmd] =>
    simp only [← and_imp, mainSocket_reboot]
    constructor
    · rintro h rfl
      obtain ⟨portStr, hnone, -⟩ := h ⟨cmdReboot, 0⟩ ⟨rfl, 0, rfl, rfl⟩
      cases hnone
    · rintro hne m ⟨hcmd, -⟩
      exact absurd hcmd hne
  | [prog, cmd, portStr] =>
    simp only [← and_imp, mainSocket_reboot]
    constructor
    · rintro h ⟨rfl, hwraps⟩
      obtain ⟨hout, h1, h8⟩ := (wrapsToPort_iff portStr).mp hwraps
      obtain ⟨n, hn⟩ : ∃ n : Nat, CStrings.atoi portStr % 256 = n :=
        ⟨(CStrings.atoi portStr % 256).toNat, by omega⟩
      obtain ⟨_, hsome, hvalue, h1', h8'⟩ :=
        h ⟨cmdReboot, UInt8.ofNat n⟩ ⟨rfl, n, ⟨hn, by omega, by omega⟩, rfl⟩
      cases hsome
      omega
    · rintro hno m ⟨rfl, n, ⟨hn, h1, h8⟩, rfl⟩
      have hval : (UInt8.ofNat n).toNat = n := by
        rw [UInt8.toNat_ofNat']
        omega
      have hin : 1 ≤ decimalValue portStr ∧ decimalValue portStr ≤ 8 := by
        by_contra hout
        exact hno ⟨rfl, (wrapsToPort_iff portStr).mpr ⟨hout, by omega, by omega⟩⟩
      rw [hval]
      refine ⟨portStr, rfl, ?_, h1, h8⟩
      rw [atoi_eq] at hn
      omega
  | _ :: _ :: _ :: _ :: _ => simp

/-! ## The daemon -/

/-- `NUM_PORTS`. -/
def numPorts : Nat := 9

/-- The entries of `portInfoArr` that `mainApp` uses for a message: the child's
loop for a status, and the entry that a restart names. -/
def portInfoIndices (m : SockMsg) : List Nat :=
  if m.cmdType = cmdStatus then ports
  else if m.cmdType = cmdReboot then [m.port.toNat]
  else []

/-- `mainApp`, for a message from the socket.  The child passes a restart on
through the pipe, unchanged. -/
def receive (d : Daemon) (m : SockMsg) : Daemon :=
  if m.cmdType = cmdReboot then
    { d with
      portInfoArr :=
        Function.update d.portInfoArr m.port.toNat (requestReboot (d.portInfoArr m.port.toNat)) }
  else d

/-- Only entries of the array are used, and only the entry of the port that the
message names changes its state or event. -/
def RestartsNamed (d : Daemon) (m : SockMsg) : Prop :=
  (∀ i ∈ portInfoIndices m, i < numPorts) ∧
    ∀ i < numPorts, ¬ (i = m.port.toNat ∧ 1 ≤ i ∧ i ≤ 8) →
      ((receive d m).portInfoArr i).state = (d.portInfoArr i).state ∧
        ((receive d m).portInfoArr i).event = (d.portInfoArr i).event

/-- The message is no restart, or it names a port, or entry 0 while that is being
restarted already. -/
def NamesPort (d : Daemon) (m : SockMsg) : Prop :=
  m.cmdType = cmdReboot →
    1 ≤ m.port.toNat ∧ m.port.toNat ≤ 8 ∨
      m.port = 0 ∧ (d.portInfoArr 0).state = .rebootState

/-- A message with a port is the daemon's manual request. -/
theorem receive_eq_step (d : Daemon) (p : PortNum) :
    receive d ⟨cmdReboot, UInt8.ofNat p.val⟩ = step d (.manual p) := by
  simp only [receive, step, PortNum.toNat_ofNat, if_true]

theorem receive_of_ne {d : Daemon} {m : SockMsg} {i : Nat} (h : i ≠ m.port.toNat) :
    (receive d m).portInfoArr i = d.portInfoArr i := by
  unfold receive
  split
  · exact Function.update_of_ne h ..
  · rfl

theorem requestReboot_state (i : PortInfo) : (requestReboot i).state = .rebootState := by
  unfold requestReboot
  split
  · rfl
  · rename_i h
    exact not_not.mp h

theorem requestReboot_of_rebootState {i : PortInfo} (h : i.state = .rebootState) :
    requestReboot i = i := by
  rw [requestReboot, if_neg (not_not.mpr h)]

theorem restartsNamed_of_not_reboot (d : Daemon) {m : SockMsg} (h : m.cmdType ≠ cmdReboot) :
    RestartsNamed d m := by
  refine ⟨?_, fun i _ _ => ?_⟩
  · intro i hi
    rw [portInfoIndices] at hi
    split at hi
    · rw [ports, List.mem_range'_1] at hi
      exact hi.2
    · cases hi
  · rw [receive, if_neg h]
    exact ⟨rfl, rfl⟩

theorem restartsNamed_iff (d : Daemon) (m : SockMsg) : RestartsNamed d m ↔ NamesPort d m := by
  by_cases hreboot : m.cmdType = cmdReboot
  swap
  · exact ⟨fun _ h => absurd h hreboot, fun _ => restartsNamed_of_not_reboot d hreboot⟩
  have hindices : portInfoIndices m = [m.port.toNat] := by
    rw [portInfoIndices, hreboot]
    rfl
  have hself : (receive d m).portInfoArr m.port.toNat =
      requestReboot (d.portInfoArr m.port.toNat) := by
    rw [receive, if_pos hreboot]
    exact Function.update_self ..
  unfold RestartsNamed NamesPort
  rw [hindices]
  constructor
  · rintro ⟨hin, hkeep⟩ -
    have hlt : m.port.toNat < 9 := hin _ List.mem_cons_self
    by_cases hzero : m.port = 0
    · have hstate := (hkeep 0 (by decide) (by omega)).1
      rw [show (0 : Nat) = m.port.toNat by rw [hzero]; rfl, hself, requestReboot_state] at hstate
      rw [hzero] at hstate
      exact .inr ⟨hzero, hstate.symm⟩
    · have hne : m.port.toNat ≠ 0 := fun h => hzero (UInt8.toNat_inj.mp h)
      exact .inl ⟨by omega, by omega⟩
  · intro hnames
    rcases hnames hreboot with ⟨h1, h8⟩ | ⟨hzero, hstate⟩
    · refine ⟨?_, fun i _ hi => ?_⟩
      · intro i hi
        rw [List.mem_singleton.mp hi]
        exact Nat.lt_succ_of_le h8
      · rw [receive_of_ne fun heq => hi ⟨heq, by omega, by omega⟩]
        exact ⟨rfl, rfl⟩
    · have hport : m.port.toNat = 0 := by rw [hzero]; rfl
      refine ⟨?_, fun i _ _ => ?_⟩
      · intro i hi
        rw [List.mem_singleton.mp hi, hport]
        decide
      · by_cases hi : i = m.port.toNat
        · rw [hi, hself, hport, requestReboot_of_rebootState hstate]
          exact ⟨rfl, rfl⟩
        · rw [receive_of_ne hi]
          exact ⟨rfl, rfl⟩

/-- **When a restart reaches the port that was asked for**: the client sends the
number it was given unless the argument is missing or wraps, and the daemon
restarts only ports if the message names one, by the manual request for it. -/
theorem requests_reach_port_iff (argv : List (List UInt8)) (d : Daemon) (m : SockMsg) :
    (RequestsAsked argv ↔ ¬ PortNotChecked argv) ∧ (RestartsNamed d m ↔ NamesPort d m) ∧
      ∀ p : PortNum, receive d ⟨cmdReboot, UInt8.ofNat p.val⟩ = step d (.manual p) :=
  ⟨requestsAsked_iff argv, restartsNamed_iff d m, receive_eq_step d⟩

/-- `reboot 257` restarts port 1, and a message for port 200 is followed outside
the array. -/
theorem wrapped_port_requested :
    ¬ (RequestsAsked [CStrings.lit "tf_poe_restart_ctrl", CStrings.lit "reboot",
        CStrings.lit "257"] ∨ RestartsNamed (mainInit linkConfig 0) ⟨cmdReboot, 200⟩) := by
  rintro (h | ⟨hin, -⟩)
  · obtain ⟨portStr, hsome, hvalue, -, -⟩ := h ⟨cmdReboot, 1⟩ (by decide) rfl
    cases hsome
    exact absurd hvalue (by decide)
  · exact absurd (hin 200 (by decide)) (by decide)

end TfPackages.Restart
