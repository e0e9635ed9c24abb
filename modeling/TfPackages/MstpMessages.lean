import TfPackages.MstpRoles

/-! # What bridges send and how it is received

A port tells its neighbours its designated priority vector in a BPDU, `txMstp`; a
bridge that is forced to the older protocol leaves out the fields of MSTP.  The
receiver puts the vector together again, `msgPriority`, and classifies the
message, `rcvInfo`; superior information replaces that of the port,
`recordInfo`.  All of this is about the CIST, tree 0.
-/
namespace TfPackages.Mstp

/-- `protoSTP`, `protoRSTP` and `protoMSTP` -/
def protoSTP : UInt8 := 0
def protoRSTP : UInt8 := 2
def protoMSTP : UInt8 := 3

/-- `bpduTypeRST` and `bpduTypeTCN` -/
def bpduTypeRST : UInt8 := 2
def bpduTypeTCN : UInt8 := 128

/-- `bridge_t`, as far as messages depend on it. -/
structure Bridge where
  forceProtocolVersion : UInt8
  mstConfigId : List UInt8
  maxHops : UInt8
deriving DecidableEq, Repr

/-- The fields of a BPDU that only MSTP has. -/
structure MstFields where
  mstConfigurationIdentifier : List UInt8
  cistIntRootPathCost : UInt32
  cistBridgeID : BridgeIdentifier
  cistRemainingHops : UInt8
deriving DecidableEq, Repr

/-- `bpdu_t`.  Times are in two bytes, whole seconds first. -/
structure Bpdu where
  protocolVersion : UInt8
  bpduType : UInt8
  flags : UInt8
  cistRootID : BridgeIdentifier
  cistExtRootPathCost : UInt32
  cistRRootID : BridgeIdentifier
  cistPortID : PortIdentifier
  messageAge : UInt8 × UInt8
  maxAge : UInt8 × UInt8
  helloTime : UInt8 × UInt8
  forwardDelay : UInt8 × UInt8
  mst : Option MstFields
deriving DecidableEq, Repr

/-- `message_role_from_port_role`, with the numbers of `port_encoded_role_t`. -/
def messageRoleFromPortRole : PortRole → UInt8
  | .roleRoot => 2
  | .roleDesignated => 3
  | .roleAlternate | .roleBackup => 1
  | .roleMaster => 0
  | .roleDisabled => 1

/-- `BPDU_FLAGS_ROLE_SET` -/
def bpduFlagsRoleSet (role : UInt8) : UInt8 := (role &&& 3) <<< 2

/-- `BPDU_FLAGS_ROLE_GET` -/
def bpduFlagsRoleGet (flags : UInt8) : UInt8 := (flags >>> 2) &&& 3

/-- `txMstp`, for a port that is neither deleted nor told not to transmit; of the
flags, the role. -/
def txMstp (br : Bridge) (cist : PerTreePort) : Option Bpdu :=
  if cist.role = .roleDisabled then none
  else some {
    protocolVersion := if br.forceProtocolVersion < protoMSTP then protoRSTP else protoMSTP
    bpduType := bpduTypeRST
    flags := bpduFlagsRoleSet (messageRoleFromPortRole cist.role)
    cistRootID := cist.designatedPriority.rootID
    cistExtRootPathCost := cist.designatedPriority.extRootPathCost
    cistRRootID := cist.designatedPriority.rRootID
    cistPortID := cist.designatedPriority.designatedPortID
    messageAge := (cist.designatedTimes.messageAge, 0)
    maxAge := (cist.designatedTimes.maxAge, 0)
    helloTime := (cist.portTimes.helloTime, 0)
    forwardDelay := (cist.designatedTimes.forwardDelay, 0)
    mst :=
      if br.forceProtocolVersion < protoMSTP then none
      else some {
        mstConfigurationIdentifier := br.mstConfigId
        cistIntRootPathCost := cist.designatedPriority.intRootPathCost
        cistBridgeID := cist.designatedPriority.designatedBridgeID
        cistRemainingHops := cist.designatedTimes.remainingHops } }

/-- `fromSameRegion` -/
def fromSameRegion (br : Bridge) (b : Bpdu) : Bool :=
  match b.mst with
  | some m => br.mstConfigId = m.mstConfigurationIdentifier
  | none => false

/-- `NEAREST_WHOLE_SECOND` -/
def nearestWholeSecond (msgTime : UInt8 × UInt8) : UInt8 :=
  if 128 > msgTime.2 then msgTime.1 else msgTime.1 + 1

/-- `roleIsDesignated`; nothing where `rcvInfo` returns before it is set. -/
def roleIsDesignated (b : Bpdu) : Option Bool :=
  if b.protocolVersion = protoSTP then some true
  else if bpduFlagsRoleGet b.flags = 1 ∨ bpduFlagsRoleGet b.flags = 2 then some false
  else if bpduFlagsRoleGet b.flags = 3 then some true
  else if b.protocolVersion = protoRSTP then some true
  else none

/-- `msgPriority` -/
def msgPriority (b : Bpdu) : PriorityVector where
  rRootID := b.cistRRootID
  intRootPathCost := match b.mst with
    | some m => m.cistIntRootPathCost
    | none => 0
  designatedBridgeID := match b.mst with
    | some m => m.cistBridgeID
    | none => b.cistRRootID
  designatedPortID := b.cistPortID
  rootID := b.cistRootID
  extRootPathCost := b.cistExtRootPathCost

/-- `msgTimes` -/
def msgTimes (br : Bridge) (b : Bpdu) : Times where
  remainingHops := match b.mst with
    | some m => m.cistRemainingHops
    | none => br.maxHops
  forwardDelay := nearestWholeSecond b.forwardDelay
  maxAge := nearestWholeSecond b.maxAge
  messageAge := nearestWholeSecond b.messageAge
  helloTime := nearestWholeSecond b.helloTime

/-- `port_info_t` -/
inductive PortInfo where
  | otherInfo
  | superiorDesignatedInfo
  | repeatedDesignatedInfo
  | inferiorDesignatedInfo
  | inferiorRootAlternateInfo
deriving DecidableEq, Repr

/-- The MAC address in an identifier. -/
def macAddress (id : BridgeIdentifier) : UInt64 := id &&& 0xFFFFFFFFFFFF

/-- The port number in an identifier. -/
def portNumber (id : PortIdentifier) : UInt16 := id &&& 0x0FFF

/-- `rcvInfo`, for the CIST. -/
def rcvInfo (br : Bridge) (ptp : PerTreePort) (b : Bpdu) : PortInfo :=
  if b.bpduType = bpduTypeTCN then .otherInfo
  else
    let better := !betterorsamePriority ptp.portPriority (msgPriority b) 0 0 true
    match roleIsDesignated b with
    | none => .otherInfo
    | some true =>
      if better ∨ (macAddress (msgPriority b).designatedBridgeID =
            macAddress ptp.portPriority.designatedBridgeID ∧
          portNumber (msgPriority b).designatedPortID =
            portNumber ptp.portPriority.designatedPortID) then
        .superiorDesignatedInfo
      else
        let same := samePriorityAndTimers (msgPriority b) ptp.portPriority (msgTimes br b)
          ptp.portTimes true
        if !same ∧ betterorsamePriority (msgPriority b) ptp.portPriority 0 0 true then
          .superiorDesignatedInfo
        else if same ∧ ptp.infoIs = .ioReceived then .repeatedDesignatedInfo
        else .inferiorDesignatedInfo
    | some false => if !better then .inferiorRootAlternateInfo else .otherInfo

/-- What `recordPriority` and `recordTimes` leave when the port information machine
has handled a message: superior information becomes the port's, with the port's own
hello time. -/
def recordInfo (br : Bridge) (ptp : PerTreePort) (b : Bpdu) : PerTreePort :=
  if rcvInfo br ptp b = .superiorDesignatedInfo then
    { ptp with
      infoIs := .ioReceived
      portPriority := msgPriority b
      portTimes := { msgTimes br b with helloTime := ptp.portTimes.helloTime } }
  else ptp

/-! ## From one bridge to the next -/

/-- A message that is better than what the port has is superior. -/
theorem rcvInfo_of_better {br : Bridge} {ptp : PerTreePort} {b : Bpdu}
    (htype : b.bpduType ≠ bpduTypeTCN) (hrole : roleIsDesignated b = some true)
    (hbetter : ¬ key true ptp.portPriority 0 ≤ key true (msgPriority b) 0) :
    rcvInfo br ptp b = .superiorDesignatedInfo := by
  rw [← betterorsamePriority_iff] at hbetter
  unfold rcvInfo
  rw [if_neg htype, hrole]
  dsimp only
  rw [if_pos (Or.inl (by simpa using hbetter))]

/-- Only designated ports send superior information. -/
theorem roleIsDesignated_of_superior {br : Bridge} {ptp : PerTreePort} {b : Bpdu}
    (h : rcvInfo br ptp b = .superiorDesignatedInfo) : roleIsDesignated b = some true := by
  unfold rcvInfo at h
  split at h
  · cases h
  dsimp only at h
  split at h
  · cases h
  · assumption
  · split at h <;> cases h

/-- The role survives in the flags. -/
theorem bpduFlagsRoleGet_set (role : PortRole) :
    bpduFlagsRoleGet (bpduFlagsRoleSet (messageRoleFromPortRole role)) =
      messageRoleFromPortRole role := by
  cases role <;> decide

/-- The role a port sends. -/
theorem roleIsDesignated_txMstp {br : Bridge} {ptp : PerTreePort} {b : Bpdu}
    (h : txMstp br ptp = some b) (hm : ptp.role ≠ .roleMaster) :
    roleIsDesignated b = some (decide (ptp.role = .roleDesignated)) := by
  unfold txMstp at h
  split at h
  · cases h
  rename_i hdis
  cases h
  unfold roleIsDesignated
  have hver : (if br.forceProtocolVersion < protoMSTP then protoRSTP else protoMSTP) ≠ protoSTP := by
    split <;> decide
  dsimp only
  rw [if_neg hver, bpduFlagsRoleGet_set]
  cases hr : ptp.role with
  | roleDisabled => exact absurd hr hdis
  | roleMaster => exact absurd hr hm
  | _ => simp [messageRoleFromPortRole]

/-- The version all bridges of a network are set to, where they can tell what their
neighbours mean: with MSTP the whole vector is sent, with RSTP the bridge is its own
regional root. -/
def Conveys (version : UInt8) (v : PriorityVector) : Prop :=
  version < protoMSTP → v.rRootID = v.designatedBridgeID ∧ v.intRootPathCost = 0

/-- **What is sent is received.** -/
theorem msgPriority_txMstp {br : Bridge} {ptp : PerTreePort} {b : Bpdu}
    (h : txMstp br ptp = some b)
    (hc : Conveys br.forceProtocolVersion ptp.designatedPriority) :
    msgPriority b = ptp.designatedPriority := by
  unfold txMstp at h
  split at h
  · cases h
  cases h
  unfold msgPriority
  by_cases hv : br.forceProtocolVersion < protoMSTP
  · obtain ⟨hr, hi⟩ := hc hv
    simp only [hv, if_true]
    exact PriorityVector.ext rfl hi.symm hr rfl rfl rfl
  · simp only [hv, if_false]

theorem bpduType_txMstp {br : Bridge} {ptp : PerTreePort} {b : Bpdu}
    (h : txMstp br ptp = some b) : b.bpduType ≠ bpduTypeTCN := by
  unfold txMstp at h
  split at h
  · cases h
  · cases h
    show bpduTypeRST ≠ bpduTypeTCN
    decide

end TfPackages.Mstp
