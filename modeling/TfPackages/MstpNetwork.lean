import TfPackages.MstpMessages
import TfPackages.RankedForest

/-! # A network of bridges at rest spans a tree

Bridges are connected by LANs; every port of a bridge is on one LAN and hears what
the other ports of that LAN send.  A network is at rest, `Stable`, when no bridge
has a role or a vector to change, no message changes what a port knows, and what a
port knows it still hears.  Then the ports with the roles Root and Designated, the
ones that forward, connect the bridges without a loop.

The bridges and LANs are ranked by the costs of their paths to the root: a bridge
below the LAN of its root port, a LAN below its designated bridge.
`RankedForest` does the rest.
-/
namespace TfPackages.Mstp

/-! ## One bridge at rest -/

/-- The selection of roles changes nothing, and nothing is waiting to be sent or
to take effect. -/
structure Tree.Settled (t : Tree) : Prop where
  cist : t.mstid = 0
  selected : (updtRolesTree t).tree = t
  role : ∀ ptp ∈ t.ports, ptp.role = ptp.selectedRole
  updtInfo : ∀ ptp ∈ t.ports, ptp.updtInfo = false

section Settled
variable {t : Tree} (h : t.Settled)
include h

theorem Tree.Settled.cist_eq : t.cist = true := by
  simp [Tree.cist, h.cist]

theorem Tree.Settled.rootPriority_eq : (selectRoot t).rootPriority = t.rootPriority :=
  congrArg Tree.rootPriority h.selected

theorem Tree.Settled.updatedPort_eq {i : Nat} {ptp : PerTreePort} (hi : t.ports[i]? = some ptp) :
    updatedPort t i ptp = ptp := by
  have heq := updtRolesTree_port t i
  rw [h.selected, hi] at heq
  exact (Option.some.inj heq).symm

end Settled

/-- The selection of a role leaves what the port says and what it knows. -/
theorem selectRole_frame (t : Tree) (isRoot : Bool) (d : PerTreePort) :
    (selectRole t isRoot d).designatedPriority = d.designatedPriority := by
  unfold selectRole
  split
  · rfl
  split
  · rfl
  split
  · rfl
  · rfl
  · rfl
  split
  · rfl
  split
  · rfl
  · rfl

/-- The roles in the CIST. -/
theorem selectRole_cist {t : Tree} (hc : t.cist = true) (isRoot : Bool) (d : PerTreePort) :
    selectRole t isRoot d =
      match d.infoIs with
      | .ioDisabled => d.withRole .roleDisabled d.updtInfo
      | .ioAged => d.withRole .roleDesignated true
      | .ioMine => d.withRole .roleDesignated (d.updtInfo || !infoCurrent d true)
      | .ioReceived =>
        if isRoot then d.withRole .roleRoot false
        else if betterorsamePriority d.portPriority d.designatedPriority 0 0 true then
          d.withRole (if d.portPriority.designatedBridgeID ≠ t.bridgeIdentifier then .roleAlternate
            else .roleBackup) false
        else d.withRole .roleDesignated true := by
  unfold selectRole
  rw [hc]
  cases hinfo : d.infoIs <;> simp

/-- The same information in all components. -/
theorem eq_of_infoCurrent {ptp : PerTreePort} (h : infoCurrent ptp true = true) :
    ptp.portPriority = ptp.designatedPriority := by
  simp only [infoCurrent, samePriorityAndTimers, Bool.not_true, Bool.false_or, Bool.and_eq_true,
    decide_eq_true_eq] at h
  obtain ⟨⟨-, -, -, -, hroot, hext⟩, -, hrr, hint, hbr, hport⟩ := h
  exact PriorityVector.ext hrr hint hbr hport hroot hext

section Roles
variable {t : Tree} (h : t.Settled) {i : Nat} {ptp : PerTreePort} (hi : t.ports[i]? = some ptp)
include h hi

/-- What the port says follows from the root priority vector of its bridge. -/
theorem Tree.Settled.designatedPriority_eq :
    ptp.designatedPriority = newDesignatedPriority t t.rootPriority ptp := by
  have heq := congrArg PerTreePort.designatedPriority (h.updatedPort_eq hi)
  rw [updatedPort, selectRole_frame, h.rootPriority_eq] at heq
  exact heq.symm

/-- The two fields the selection of a role writes. -/
theorem Tree.Settled.selectRole_eq : ∃ d : PerTreePort,
    d.infoIs = ptp.infoIs ∧ d.portPriority = ptp.portPriority ∧
      d.designatedPriority = ptp.designatedPriority ∧ d.updtInfo = false ∧
      selectRole t ((selectRoot t).rootPtp = some i) d = ptp ∧ ptp.updtInfo = false := by
  have hupd := h.updtInfo ptp (List.mem_of_getElem? hi)
  refine ⟨designate t (selectRoot t).rootPriority (newRootTimes t (selectRoot t).rootPtp) ptp,
    rfl, rfl, ?_, hupd, h.updatedPort_eq hi, hupd⟩
  rw [h.designatedPriority_eq hi, ← h.rootPriority_eq]
  rfl

theorem Tree.Settled.of_mine (hm : ptp.infoIs = .ioMine) :
    ptp.role = .roleDesignated ∧ ptp.portPriority = ptp.designatedPriority := by
  obtain ⟨d, hinfo, hport, hdes, hd, heq, hupd⟩ := h.selectRole_eq hi
  rw [selectRole_cist h.cist_eq, hinfo, hm] at heq
  dsimp only at heq
  have hrole := congrArg PerTreePort.selectedRole heq
  have hcur := congrArg PerTreePort.updtInfo heq
  rw [PerTreePort.withRole] at hrole hcur
  dsimp only at hrole hcur
  rw [hupd, hd, Bool.false_or, Bool.not_eq_false'] at hcur
  refine ⟨(h.role ptp (List.mem_of_getElem? hi)).trans hrole.symm, ?_⟩
  rw [← hport, ← hdes]
  exact eq_of_infoCurrent hcur

theorem Tree.Settled.not_aged : ptp.infoIs ≠ .ioAged := by
  intro ha
  obtain ⟨d, hinfo, -, -, -, heq, hupd⟩ := h.selectRole_eq hi
  rw [selectRole_cist h.cist_eq, hinfo, ha] at heq
  have hcur := congrArg PerTreePort.updtInfo heq
  rw [hupd] at hcur
  cases hcur

theorem Tree.Settled.of_disabled (hd : ptp.infoIs = .ioDisabled) : ptp.role = .roleDisabled := by
  obtain ⟨d, hinfo, -, -, -, heq, -⟩ := h.selectRole_eq hi
  rw [selectRole_cist h.cist_eq, hinfo, hd] at heq
  exact (h.role ptp (List.mem_of_getElem? hi)).trans (congrArg PerTreePort.selectedRole heq).symm

theorem Tree.Settled.of_received (hr : ptp.infoIs = .ioReceived) :
    ((selectRoot t).rootPtp = some i ∧ ptp.role = .roleRoot) ∨
      ((selectRoot t).rootPtp ≠ some i ∧
        key true ptp.portPriority 0 ≤ key true ptp.designatedPriority 0 ∧
        (ptp.role = .roleAlternate ∨ ptp.role = .roleBackup)) := by
  obtain ⟨d, hinfo, hport, hdes, -, heq, hupd⟩ := h.selectRole_eq hi
  have hrole := h.role ptp (List.mem_of_getElem? hi)
  rw [selectRole_cist h.cist_eq, hinfo, hr] at heq
  dsimp only at heq
  by_cases hroot : (selectRoot t).rootPtp = some i
  · rw [if_pos (by simpa using hroot)] at heq
    exact Or.inl ⟨hroot, hrole.trans (congrArg PerTreePort.selectedRole heq).symm⟩
  · rw [if_neg (by simpa using hroot)] at heq
    split at heq
    · rename_i hbetter
      rw [hport, hdes, betterorsamePriority_iff] at hbetter
      refine Or.inr ⟨hroot, hbetter, ?_⟩
      rw [hrole, ← congrArg PerTreePort.selectedRole heq, PerTreePort.withRole]
      dsimp only
      split
      · exact Or.inl rfl
      · exact Or.inr rfl
    · have hcur := congrArg PerTreePort.updtInfo heq
      rw [hupd] at hcur
      cases hcur

/-- Designated ports are those with the bridge's own information. -/
theorem Tree.Settled.designated_iff : ptp.role = .roleDesignated ↔ ptp.infoIs = .ioMine := by
  constructor
  · intro hrole
    cases hinfo : ptp.infoIs with
    | ioMine => rfl
    | ioDisabled =>
      rw [h.of_disabled hi hinfo] at hrole
      cases hrole
    | ioAged => exact absurd hinfo (h.not_aged hi)
    | ioReceived =>
      rcases h.of_received hi hinfo with ⟨-, hr⟩ | ⟨-, -, hr | hr⟩ <;> rw [hr] at hrole <;>
        cases hrole
  · exact fun hm => (h.of_mine hi hm).1

/-- The root port is the one selected. -/
theorem Tree.Settled.root_iff :
    ptp.role = .roleRoot ↔ ptp.infoIs = .ioReceived ∧ (selectRoot t).rootPtp = some i := by
  constructor
  · intro hrole
    cases hinfo : ptp.infoIs with
    | ioMine =>
      rw [(h.of_mine hi hinfo).1] at hrole
      cases hrole
    | ioDisabled =>
      rw [h.of_disabled hi hinfo] at hrole
      cases hrole
    | ioAged => exact absurd hinfo (h.not_aged hi)
    | ioReceived =>
      rcases h.of_received hi hinfo with ⟨hroot, -⟩ | ⟨-, -, hr | hr⟩
      · exact ⟨rfl, hroot⟩
      all_goals
        rw [hr] at hrole
        cases hrole
  · rintro ⟨hinfo, hroot⟩
    rcases h.of_received hi hinfo with ⟨-, hr⟩ | ⟨hne, -⟩
    · exact hr
    · exact absurd hroot hne

theorem Tree.Settled.not_master : ptp.role ≠ .roleMaster := by
  intro hrole
  cases hinfo : ptp.infoIs with
  | ioMine =>
    rw [(h.of_mine hi hinfo).1] at hrole
    cases hrole
  | ioDisabled =>
    rw [h.of_disabled hi hinfo] at hrole
    cases hrole
  | ioAged => exact absurd hinfo (h.not_aged hi)
  | ioReceived =>
    rcases h.of_received hi hinfo with ⟨-, hr⟩ | ⟨-, -, hr | hr⟩ <;> rw [hr] at hrole <;>
      cases hrole

end Roles

/-! ## The network -/

/-- Bridges, their trees, and the LAN that each port is on, by its place among the
ports of the bridge. -/
structure Network (B L : Type) where
  bridge : B → Bridge
  tree : B → Tree
  lan : B → Nat → L

variable {B L : Type}

/-- A port of the network. -/
structure Network.Port (N : Network B L) where
  bridge : B
  index : Nat
  ptp : PerTreePort
  mem : (N.tree bridge).ports[index]? = some ptp

namespace Network
variable {N : Network B L}

/-- The LAN of a port. -/
def Port.lan (p : N.Port) : L := N.lan p.bridge p.index

/-- The port takes part in the protocol. -/
def Port.Enabled (p : N.Port) : Prop := p.ptp.infoIs ≠ .ioDisabled

/-- The port sends the message. -/
def Port.Sends (p : N.Port) (b : Bpdu) : Prop := txMstp (N.bridge p.bridge) p.ptp = some b

/-- Ports are told apart by bridge and place. -/
theorem Port.eq_of {p q : N.Port} (hb : p.bridge = q.bridge) (hi : p.index = q.index) : p = q := by
  obtain ⟨b, i, ptp, hp⟩ := p
  obtain ⟨b', i', ptp', hq⟩ := q
  obtain rfl : b = b' := hb
  obtain rfl : i = i' := hi
  obtain rfl : ptp = ptp' := Option.some.inj (hp.symm.trans hq)
  rfl

/-- How the bridges are set up: all for one version of the protocol, with
identifiers of their own, and with costs that make every path longer. -/
structure Configured (N : Network B L) (version : UInt8) : Prop where
  version_eq : ∀ b, (N.bridge b).forceProtocolVersion = version
  bridgePriority : ∀ b, (N.tree b).bridgePriority =
    { rRootID := (N.tree b).bridgeIdentifier, intRootPathCost := 0
      designatedBridgeID := (N.tree b).bridgeIdentifier, designatedPortID := 0
      rootID := (N.tree b).bridgeIdentifier, extRootPathCost := 0 }
  bridgeIdentifiers : Function.Injective fun b => (N.tree b).bridgeIdentifier
  portIds : ∀ b, ((N.tree b).ports.map (·.portId)).Nodup
  sendRSTP : ∀ p : N.Port, p.ptp.sendRSTP = true
  internalCost : ∀ p : N.Port, p.ptp.infoIs = .ioReceived → p.ptp.rcvdInternal = true →
    0 < p.ptp.internalPortPathCost.toNat ∧
      p.ptp.portPriority.intRootPathCost.toNat + p.ptp.internalPortPathCost.toNat < 2 ^ 32
  externalCost : ∀ p : N.Port, p.ptp.infoIs = .ioReceived → p.ptp.rcvdInternal = false →
    0 < p.ptp.externalPortPathCost.toNat ∧
      p.ptp.portPriority.extRootPathCost.toNat + p.ptp.externalPortPathCost.toNat < 2 ^ 32

/-- The network is at rest. -/
structure Stable (N : Network B L) : Prop where
  settled : ∀ b, (N.tree b).Settled
  /-- What a port has received is still being sent to it. -/
  heard : ∀ p : N.Port, p.ptp.infoIs = .ioReceived → ∃ (q : N.Port) (b : Bpdu),
    q ≠ p ∧ q.lan = p.lan ∧ q.Sends b ∧
      rcvInfo (N.bridge p.bridge) p.ptp b = .superiorDesignatedInfo ∧
      p.ptp.rcvdInternal = fromSameRegion (N.bridge p.bridge) b
  /-- Nothing that is sent changes what a port knows. -/
  quiet : ∀ (p q : N.Port) (b : Bpdu), q ≠ p → q.lan = p.lan → p.Enabled → q.Sends b →
    recordInfo (N.bridge p.bridge) p.ptp b = p.ptp

/-- The costs of the path from a bridge to the root. -/
def cost (N : Network B L) (b : B) : ℕ ×ₗ ℕ :=
  toLex ((N.tree b).rootPriority.extRootPathCost.toNat,
    (N.tree b).rootPriority.intRootPathCost.toNat)

/-- The identifier of the root, as a bridge sees it. -/
def rootID (N : Network B L) (b : B) : BridgeIdentifier := (N.tree b).rootPriority.rootID

section Rest
variable {version : UInt8} (hc : N.Configured version) (hs : N.Stable)
include hs

/-- What has selected a root port knows the root from it. -/
theorem Stable.rootPriority_of_root {p : N.Port} (hp : p.ptp.role = .roleRoot) :
    eligible (N.tree p.bridge) p.ptp = true ∧
      (N.tree p.bridge).rootPriority = rootPathPriority (N.tree p.bridge) p.ptp := by
  have hset := hs.settled p.bridge
  obtain ⟨-, hroot⟩ := (hset.root_iff p.mem).mp hp
  rcases selectRoot_cases (N.tree p.bridge) with heq | ⟨i, ptp, hi, he, heq⟩
  · rw [heq] at hroot
    cases hroot
  · rw [heq] at hroot
    obtain rfl : i = p.index := Option.some.inj hroot
    obtain rfl : ptp = p.ptp := Option.some.inj (hi.symm.trans p.mem)
    exact ⟨he, by rw [← hset.rootPriority_eq, heq]; rfl⟩

/-- A bridge without a root port takes itself for the root. -/
theorem Stable.rootPriority_of_no_root {b : B}
    (hno : ∀ p : N.Port, p.bridge = b → p.ptp.role ≠ .roleRoot) :
    (N.tree b).rootPriority = (N.tree b).bridgePriority := by
  have hset := hs.settled b
  rcases selectRoot_cases (N.tree b) with heq | ⟨i, ptp, hi, he, heq⟩
  · rw [← hset.rootPriority_eq, heq]
  · refine absurd ((hset.root_iff hi).mpr ⟨?_, by rw [heq]; rfl⟩) (hno ⟨b, i, ptp, hi⟩ rfl)
    simp only [eligible, decide_eq_true_eq] at he
    exact he.1

/-- A designated port has its own information, and so it takes part. -/
theorem Stable.of_designated {p : N.Port} (hp : p.ptp.role = .roleDesignated) :
    p.Enabled ∧ p.ptp.portPriority = p.ptp.designatedPriority := by
  have hset := hs.settled p.bridge
  have hm := (hset.designated_iff p.mem).mp hp
  exact ⟨by rw [Port.Enabled, hm]; decide, (hset.of_mine p.mem hm).2⟩

/-- What a designated port sends: the root and the costs of its bridge, and who it
is. -/
theorem Stable.designatedPriority_eq (p : N.Port) :
    p.ptp.designatedPriority.rootID = N.rootID p.bridge ∧
      toLex (p.ptp.designatedPriority.extRootPathCost.toNat,
        p.ptp.designatedPriority.intRootPathCost.toNat) = N.cost p.bridge ∧
      p.ptp.designatedPriority.designatedBridgeID = (N.tree p.bridge).bridgeIdentifier ∧
      p.ptp.designatedPriority.designatedPortID = p.ptp.portId := by
  rw [(hs.settled p.bridge).designatedPriority_eq p.mem]
  exact ⟨rfl, rfl, rfl, rfl⟩

/-- A bridge has one root port. -/
theorem Stable.root_unique {p q : N.Port} (hp : p.ptp.role = .roleRoot)
    (hq : q.ptp.role = .roleRoot) (hb : p.bridge = q.bridge) : p = q := by
  obtain ⟨-, hpi⟩ := ((hs.settled p.bridge).root_iff p.mem).mp hp
  obtain ⟨-, hqi⟩ := ((hs.settled q.bridge).root_iff q.mem).mp hq
  rw [hb, hqi] at hpi
  exact Port.eq_of hb (Option.some.inj hpi).symm

include hc

/-- Bridges of the older protocol are their own regional roots. -/
theorem Stable.conveys (q : N.Port) : Conveys version q.ptp.designatedPriority := by
  intro hv
  have hset := hs.settled q.bridge
  rw [hset.designatedPriority_eq q.mem, newDesignatedPriority]
  simp only [hc.sendRSTP q, Bool.true_eq_false, and_false, if_false]
  rw [← hset.rootPriority_eq]
  rcases selectRoot_cases (N.tree q.bridge) with heq | ⟨i, ptp, hi, he, heq⟩ <;> rw [heq]
  · simp only [hc.bridgePriority, and_self]
  · -- nothing from outside the bridge is taken for internal
    simp only [eligible, decide_eq_true_eq] at he
    obtain ⟨r, b, -, -, hsend, -, hreg⟩ := hs.heard ⟨q.bridge, i, ptp, hi⟩ he.1
    have hext : ptp.rcvdInternal = false := by
      refine hreg.trans ?_
      simp only [Port.Sends, txMstp, hc.version_eq, hv, if_true] at hsend
      split at hsend
      · cases hsend
      · cases hsend
        rfl
    simp only [selectionOf, rootPathPriority, hext, hset.cist_eq, Bool.false_eq_true, if_false,
      if_true, and_self]

/-- What a port sends is received as it is. -/
theorem Stable.msgPriority_eq {q : N.Port} {b : Bpdu} (hb : q.Sends b) :
    msgPriority b = q.ptp.designatedPriority := by
  refine msgPriority_txMstp hb ?_
  rw [hc.version_eq]
  exact hs.conveys hc q

/-- What a port has received is what a designated port of its LAN sends. -/
theorem Stable.received {p : N.Port} (hp : p.ptp.infoIs = .ioReceived) :
    ∃ q : N.Port, q ≠ p ∧ q.lan = p.lan ∧ q.ptp.role = .roleDesignated ∧
      p.ptp.portPriority = q.ptp.designatedPriority := by
  obtain ⟨q, b, hne, hlan, hsend, hsup, -⟩ := hs.heard p hp
  have henabled : p.Enabled := by
    rw [Port.Enabled, hp]
    decide
  have hrec := hs.quiet p q b hne hlan henabled hsend
  rw [recordInfo, if_pos hsup] at hrec
  refine ⟨q, hne, hlan, ?_, ?_⟩
  · have hrole := roleIsDesignated_of_superior hsup
    rw [roleIsDesignated_txMstp hsend ((hs.settled q.bridge).not_master q.mem)] at hrole
    simpa using hrole
  · rw [← hs.msgPriority_eq hc hsend]
    exact (congrArg PerTreePort.portPriority hrec).symm

/-- No port knows worse than what the designated port of its LAN sends. -/
theorem Stable.portPriority_le {p q : N.Port} (hne : q ≠ p) (hlan : q.lan = p.lan)
    (hp : p.Enabled) (hq : q.ptp.role = .roleDesignated) :
    key true p.ptp.portPriority 0 ≤ key true q.ptp.designatedPriority 0 := by
  obtain ⟨b, hsend⟩ : ∃ b, txMstp (N.bridge q.bridge) q.ptp = some b := by
    unfold txMstp
    rw [if_neg (by rw [hq]; decide)]
    exact ⟨_, rfl⟩
  have hmsg := hs.msgPriority_eq hc hsend
  by_contra hnot
  rw [← hmsg] at hnot
  have hrole : roleIsDesignated b = some true := by
    rw [roleIsDesignated_txMstp hsend (by rw [hq]; decide), hq]
    rfl
  have hsup : rcvInfo (N.bridge p.bridge) p.ptp b = .superiorDesignatedInfo :=
    rcvInfo_of_better (bpduType_txMstp hsend) hrole hnot
  have hrec := hs.quiet p q b hne hlan hp hsend
  rw [recordInfo, if_pos hsup] at hrec
  exact hnot (congrArg PerTreePort.portPriority hrec ▸ le_rfl)

/-- **A LAN has one designated port.** -/
theorem Stable.designated_unique {p q : N.Port} (hp : p.ptp.role = .roleDesignated)
    (hq : q.ptp.role = .roleDesignated) (hlan : p.lan = q.lan) : p = q := by
  by_contra hne
  obtain ⟨hpe, hpp⟩ := hs.of_designated hp
  obtain ⟨hqe, hqp⟩ := hs.of_designated hq
  have hpq := hs.portPriority_le hc (Ne.symm hne) hlan.symm hpe hq
  have hqp' := hs.portPriority_le hc hne hlan hqe hp
  rw [hpp] at hpq
  rw [hqp] at hqp'
  -- both send the same vector, which names the bridge and the port
  have heq := (key_inj (le_antisymm hpq hqp')).1
  obtain ⟨-, -, hpb, hpid⟩ := hs.designatedPriority_eq p
  obtain ⟨-, -, hqb, hqid⟩ := hs.designatedPriority_eq q
  have hbridge : p.bridge = q.bridge := hc.bridgeIdentifiers (by
    show (N.tree p.bridge).bridgeIdentifier = (N.tree q.bridge).bridgeIdentifier
    rw [← hpb, ← hqb, heq])
  have hid : p.ptp.portId = q.ptp.portId := by rw [← hpid, ← hqid, heq]
  refine hne (Port.eq_of hbridge (index_eq_of_portId (hc.portIds p.bridge) p.mem ?_ hid))
  rw [hbridge]
  exact q.mem

/-- A LAN with a port that takes part has a designated port. -/
theorem Stable.exists_designated {p : N.Port} (hp : p.Enabled) :
    ∃ q : N.Port, q.lan = p.lan ∧ q.ptp.role = .roleDesignated := by
  have hset := hs.settled p.bridge
  cases hinfo : p.ptp.infoIs with
  | ioDisabled => exact absurd hinfo hp
  | ioMine => exact ⟨p, rfl, (hset.designated_iff p.mem).mpr hinfo⟩
  | ioAged => exact absurd hinfo (hset.not_aged p.mem)
  | ioReceived =>
    obtain ⟨q, -, hlan, hq, -⟩ := hs.received hc hinfo
    exact ⟨q, hlan, hq⟩

/-- **The root port leads towards the root**: the designated bridge of its LAN is
another one, has the same root and is nearer to it. -/
theorem Stable.towards_root {p q : N.Port} (hp : p.ptp.role = .roleRoot)
    (hq : q.ptp.role = .roleDesignated) (hlan : q.lan = p.lan) :
    q.bridge ≠ p.bridge ∧ N.rootID q.bridge = N.rootID p.bridge ∧
      N.cost q.bridge < N.cost p.bridge := by
  obtain ⟨he, hroot⟩ := hs.rootPriority_of_root hp
  simp only [eligible, decide_eq_true_eq] at he
  obtain ⟨hinfo, -, hother⟩ := he
  obtain ⟨q', -, hlan', hq', hport⟩ := hs.received hc hinfo
  obtain rfl : q' = q := hs.designated_unique hc hq' hq (hlan'.trans hlan.symm)
  obtain ⟨hrid, hcost, hbr, -⟩ := hs.designatedPriority_eq q'
  rw [← hport] at hrid hcost hbr
  have hcist := (hs.settled p.bridge).cist_eq
  refine ⟨fun hb => hother (by rw [hbr, hb]), ?_, ?_⟩
  · rw [← hrid, rootID, hroot, rootPathPriority, hcist]
    split
    · rfl
    · rfl
  · rw [← hcost, cost, hroot, rootPathPriority, hcist]
    cases hint : p.ptp.rcvdInternal with
    | true =>
      obtain ⟨hpos, hlt⟩ := hc.internalCost p hinfo hint
      simp only [if_true]
      refine Prod.Lex.toLex_lt_toLex.mpr (Or.inr ⟨rfl, ?_⟩)
      rw [UInt32.toNat_add, Nat.mod_eq_of_lt hlt]
      omega
    | false =>
      obtain ⟨hpos, hlt⟩ := hc.externalCost p hinfo hint
      simp only [Bool.false_eq_true, if_false, if_true]
      refine Prod.Lex.toLex_lt_toLex.mpr (Or.inl ?_)
      show _ < (p.ptp.portPriority.extRootPathCost + p.ptp.externalPortPathCost).toNat
      rw [UInt32.toNat_add, Nat.mod_eq_of_lt hlt]
      omega

end Rest

end Network

end TfPackages.Mstp
