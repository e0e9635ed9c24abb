import Mathlib.Data.List.Nodup
import TfPackages.MstpPriority

/-! # Selecting the roles of the ports of a tree

`updtRolesTree` is the heart of the spanning tree protocol: from what the ports of
a bridge have received it selects the root port, computes what the bridge says
about the root, and gives every port its role.

`selectRoot_le` and `selectRoot_mem` say that the root priority vector is the
least of the bridge's own and those of the root paths through its ports,
whatever the order of the ports, and `updtRolesTree_port` what becomes of one port.
-/
namespace TfPackages.Mstp

/-- `port_info_origin_t` -/
inductive PortInfoOrigin where
  | ioDisabled
  | ioMine
  | ioAged
  | ioReceived
deriving DecidableEq, Repr

/-- `port_role_t` -/
inductive PortRole where
  | roleDisabled
  | roleRoot
  | roleDesignated
  | roleAlternate
  | roleBackup
  | roleMaster
deriving DecidableEq, Repr

/-- `port_t` and `per_tree_port_t`, as far as the selection of roles uses them.
`cistInfoIs` and `cistSelectedRole` are those of the port in the CIST. -/
structure PerTreePort where
  -- of `port_t`
  restrictedRole : Bool
  rcvdInternal : Bool
  infoInternal : Bool
  sendRSTP : Bool
  externalPortPathCost : UInt32
  cistInfoIs : PortInfoOrigin
  cistSelectedRole : PortRole
  -- of `per_tree_port_t`
  portId : PortIdentifier
  infoIs : PortInfoOrigin
  role : PortRole
  selectedRole : PortRole
  updtInfo : Bool
  designatedPriority : PriorityVector
  portPriority : PriorityVector
  designatedTimes : Times
  portTimes : Times
  internalPortPathCost : UInt32
deriving DecidableEq, Repr

/-- `tree_t`; tree 0 is the CIST. -/
structure Tree where
  mstid : Nat
  bridgeIdentifier : BridgeIdentifier
  rootPortId : PortIdentifier
  rootPriority : PriorityVector
  bridgePriority : PriorityVector
  bridgeTimes : Times
  rootTimes : Times
  ports : List PerTreePort
deriving DecidableEq, Repr

/-- `cist` -/
def Tree.cist (t : Tree) : Bool := t.mstid = 0

/-! ## The root -/

/-- The port may become the root port. -/
def eligible (t : Tree) (ptp : PerTreePort) : Bool :=
  ptp.infoIs = .ioReceived ∧ ptp.restrictedRole = false ∧
    ptp.portPriority.designatedBridgeID ≠ t.bridgeIdentifier

/-- `root_path_priority`: what the port has received, with the cost of the port. -/
def rootPathPriority (t : Tree) (ptp : PerTreePort) : PriorityVector :=
  if ptp.rcvdInternal then
    { ptp.portPriority with
      intRootPathCost := ptp.portPriority.intRootPathCost + ptp.internalPortPathCost }
  else if t.cist then
    { ptp.portPriority with
      extRootPathCost := ptp.portPriority.extRootPathCost + ptp.externalPortPathCost
      rRootID := t.bridgeIdentifier
      intRootPathCost := 0 }
  else ptp.portPriority

/-- `tree->rootPriority`, `tree->rootPortId` and `root_ptp` while the ports are
looked at; ports are told apart by their places in the list. -/
structure Selection where
  rootPriority : PriorityVector
  rootPortId : PortIdentifier
  rootPtp : Option Nat
deriving DecidableEq, Repr

/-- The body of the loop over the ports. -/
def selectStep (t : Tree) (s : Selection) (p : PerTreePort × Nat) : Selection :=
  if eligible t p.1 ∧
      betterorsamePriority (rootPathPriority t p.1) s.rootPriority p.1.portId s.rootPortId t.cist then
    ⟨rootPathPriority t p.1, p.1.portId, some p.2⟩
  else s

/-- Clauses a) and b). -/
def selectRoot (t : Tree) : Selection :=
  t.ports.zipIdx.foldl (selectStep t) ⟨t.bridgePriority, 0, none⟩

/-- Clause c): `tree->rootTimes`. -/
def newRootTimes (t : Tree) (rootPtp : Option Nat) : Times :=
  match rootPtp.bind (t.ports[·]?) with
  | none => t.bridgeTimes
  | some ptp =>
    if ptp.rcvdInternal then
      if ptp.portTimes.remainingHops ≠ 0 then
        { ptp.portTimes with remainingHops := ptp.portTimes.remainingHops - 1 }
      else ptp.portTimes
    else { ptp.portTimes with messageAge := ptp.portTimes.messageAge + 1 }

/-! ## The ports -/

/-- Clause d): what a bridge with this root says on the port. -/
def newDesignatedPriority (t : Tree) (rootPriority : PriorityVector) (ptp : PerTreePort) :
    PriorityVector where
  rRootID := if t.cist ∧ ptp.sendRSTP = false then t.bridgeIdentifier else rootPriority.rRootID
  intRootPathCost := rootPriority.intRootPathCost
  designatedBridgeID := t.bridgeIdentifier
  designatedPortID := ptp.portId
  rootID := rootPriority.rootID
  extRootPathCost := rootPriority.extRootPathCost

/-- Clauses d) and e). -/
def designate (t : Tree) (rootPriority : PriorityVector) (rootTimes : Times) (ptp : PerTreePort) :
    PerTreePort :=
  { ptp with
    designatedPriority := newDesignatedPriority t rootPriority ptp
    designatedTimes := { rootTimes with helloTime := ptp.portTimes.helloTime } }

/-- What the port says is what it should say. -/
def infoCurrent (ptp : PerTreePort) (cist : Bool) : Bool :=
  samePriorityAndTimers ptp.portPriority ptp.designatedPriority ptp.portTimes ptp.designatedTimes
    cist

/-- `selectedRole` and `updtInfo`, with `updtInfo` set where it is not reset. -/
def PerTreePort.withRole (ptp : PerTreePort) (role : PortRole) (updtInfo : Bool) : PerTreePort :=
  { ptp with selectedRole := role, updtInfo := updtInfo }

/-- Clauses f) to m). -/
def selectRole (t : Tree) (isRoot : Bool) (ptp : PerTreePort) : PerTreePort :=
  if ptp.infoIs = .ioDisabled then ptp.withRole .roleDisabled ptp.updtInfo
  else if !t.cist ∧ ptp.cistInfoIs = .ioReceived ∧ ptp.infoInternal = false then
    ptp.withRole (if ptp.cistSelectedRole = .roleRoot then .roleMaster else ptp.cistSelectedRole)
      (ptp.updtInfo || !infoCurrent ptp false)
  else
    match ptp.infoIs with
    | .ioDisabled => ptp
    | .ioAged => ptp.withRole .roleDesignated true
    | .ioMine => ptp.withRole .roleDesignated (ptp.updtInfo || !infoCurrent ptp t.cist)
    | .ioReceived =>
      if isRoot then ptp.withRole .roleRoot false
      else if betterorsamePriority ptp.portPriority ptp.designatedPriority 0 0 t.cist then
        ptp.withRole
          (if ptp.portPriority.designatedBridgeID ≠ t.bridgeIdentifier then .roleAlternate
            else .roleBackup) false
      else ptp.withRole .roleDesignated true

/-- What `updtRolesTree` leaves: the tree, whether it called `syncMaster`, and the
ports for which it called `reselectMSTIs`. -/
structure RolesUpdate where
  tree : Tree
  syncMaster : Bool
  reselectMSTIs : List Nat
deriving DecidableEq, Repr

/-- `updtRolesTree` -/
def updtRolesTree (t : Tree) : RolesUpdate :=
  let s := selectRoot t
  let rootTimes := newRootTimes t s.rootPtp
  let ports := t.ports.zipIdx.map fun p =>
    selectRole t (s.rootPtp = some p.2) (designate t s.rootPriority rootTimes p.1)
  { tree := { t with
      rootPortId := s.rootPortId
      rootPriority := s.rootPriority
      rootTimes := rootTimes
      ports := ports }
    syncMaster := t.cist ∧ s.rootPriority.rRootID ≠ t.rootPriority.rRootID ∧
      (s.rootPriority.extRootPathCost ≠ 0 ∨ t.rootPriority.extRootPathCost ≠ 0)
    reselectMSTIs := (ports.zipIdx.filter fun p =>
      t.cist ∧ p.1.infoIs = .ioReceived ∧ p.1.selectedRole ≠ p.1.role).map Prod.snd }

/-! ## The root priority vector is the least -/

/-- What the selection is compared by. -/
def Selection.key (t : Tree) (s : Selection) : Key := Mstp.key t.cist s.rootPriority s.rootPortId

/-- What a port is compared by. -/
def pathKey (t : Tree) (ptp : PerTreePort) : Key :=
  Mstp.key t.cist (rootPathPriority t ptp) ptp.portId

/-- The selection of a port. -/
def selectionOf (t : Tree) (p : PerTreePort × Nat) : Selection :=
  ⟨rootPathPriority t p.1, p.1.portId, some p.2⟩

theorem selectStep_cases (t : Tree) (s : Selection) (p : PerTreePort × Nat) :
    (eligible t p.1 = true ∧ pathKey t p.1 ≤ s.key t ∧ selectStep t s p = selectionOf t p) ∨
      ((eligible t p.1 = true → s.key t < pathKey t p.1) ∧ selectStep t s p = s) := by
  have hb := betterorsamePriority_iff (rootPathPriority t p.1) s.rootPriority p.1.portId
    s.rootPortId t.cist
  unfold selectStep
  by_cases h : eligible t p.1 = true ∧
      betterorsamePriority (rootPathPriority t p.1) s.rootPriority p.1.portId s.rootPortId
        t.cist = true
  · left
    exact ⟨h.1, hb.mp h.2, if_pos h⟩
  · right
    exact ⟨fun he => lt_of_not_ge fun hle => h ⟨he, hb.mpr hle⟩, if_neg h⟩

/-- **The loop** ends with the least of what it started from and the eligible
ports. -/
theorem foldl_selectStep (t : Tree) (ps : List (PerTreePort × Nat)) (s : Selection) :
    (ps.foldl (selectStep t) s).key t ≤ s.key t ∧
      (∀ p ∈ ps, eligible t p.1 = true → (ps.foldl (selectStep t) s).key t ≤ pathKey t p.1) ∧
      (ps.foldl (selectStep t) s = s ∨
        ∃ p ∈ ps, eligible t p.1 = true ∧ ps.foldl (selectStep t) s = selectionOf t p) := by
  induction ps generalizing s with
  | nil => exact ⟨le_rfl, fun p hp => absurd hp List.not_mem_nil, Or.inl rfl⟩
  | cons p ps ih =>
    rw [List.foldl_cons]
    obtain ⟨hle, hall, hmem⟩ := ih (selectStep t s p)
    rcases selectStep_cases t s p with ⟨he, hpath, hstep⟩ | ⟨hno, hstep⟩ <;>
      rw [hstep] at hle hall hmem ⊢
    · refine ⟨hle.trans hpath, fun q hq hqe => ?_, Or.inr ?_⟩
      · rcases List.mem_cons.mp hq with rfl | hq
        · exact hle
        · exact hall q hq hqe
      · rcases hmem with heq | ⟨q, hq, hqe, heq⟩
        · exact ⟨p, List.mem_cons_self, he, heq⟩
        · exact ⟨q, List.mem_cons_of_mem _ hq, hqe, heq⟩
    · refine ⟨hle, fun q hq hqe => ?_, hmem.imp_right ?_⟩
      · rcases List.mem_cons.mp hq with rfl | hq
        · exact hle.trans (hno hqe).le
        · exact hall q hq hqe
      · rintro ⟨q, hq, hqe, heq⟩
        exact ⟨q, List.mem_cons_of_mem _ hq, hqe, heq⟩

/-- The root priority vector is no worse than the bridge's own. -/
theorem selectRoot_le_bridge (t : Tree) :
    (selectRoot t).key t ≤ key t.cist t.bridgePriority 0 := (foldl_selectStep t _ _).1

/-- It is no worse than the root path through any port that may become the root
port. -/
theorem selectRoot_le {t : Tree} {ptp : PerTreePort} (hp : ptp ∈ t.ports)
    (he : eligible t ptp = true) : (selectRoot t).key t ≤ pathKey t ptp := by
  obtain ⟨i, hi, rfl⟩ := List.getElem_of_mem hp
  exact (foldl_selectStep t _ _).2.1 (t.ports[i], i)
    (List.mem_zipIdx_iff_getElem?.mpr (List.getElem?_eq_getElem hi)) he

/-- It is one of these. -/
theorem selectRoot_cases (t : Tree) :
    selectRoot t = ⟨t.bridgePriority, 0, none⟩ ∨
      ∃ i ptp, t.ports[i]? = some ptp ∧ eligible t ptp = true ∧
        selectRoot t = selectionOf t (ptp, i) := by
  refine (foldl_selectStep t _ _).2.2.imp_right ?_
  rintro ⟨⟨ptp, i⟩, hp, he, heq⟩
  exact ⟨i, ptp, List.mem_zipIdx_iff_getElem?.mp hp, he, heq⟩

/-! ## What becomes of a port -/

/-- A port after the selection. -/
def updatedPort (t : Tree) (i : Nat) (ptp : PerTreePort) : PerTreePort :=
  selectRole t ((selectRoot t).rootPtp = some i)
    (designate t (selectRoot t).rootPriority (newRootTimes t (selectRoot t).rootPtp) ptp)

theorem updtRolesTree_port (t : Tree) (i : Nat) :
    (updtRolesTree t).tree.ports[i]? = (t.ports[i]?).map (updatedPort t i) := by
  simp only [updtRolesTree, List.getElem?_map, List.getElem?_zipIdx, Nat.zero_add]
  cases t.ports[i]? <;> rfl

/-! ## The order of the ports does not matter -/

/-- Ports of different ids are told apart. -/
theorem eq_of_portId {t : Tree} (hids : (t.ports.map (·.portId)).Nodup) {p q : PerTreePort}
    (hp : p ∈ t.ports) (hq : q ∈ t.ports) (h : p.portId = q.portId) : p = q :=
  List.inj_on_of_nodup_map hids hp hq h

/-- So are their places. -/
theorem index_eq_of_portId {t : Tree} (hids : (t.ports.map (·.portId)).Nodup) {i j : Nat}
    {p q : PerTreePort} (hi : t.ports[i]? = some p) (hj : t.ports[j]? = some q)
    (h : p.portId = q.portId) : i = j := by
  have hlt : i < (t.ports.map (·.portId)).length := by
    rw [List.length_map]
    exact (List.getElem?_eq_some_iff.mp hi).1
  refine (List.getElem?_inj hlt hids).mp ?_
  rw [List.getElem?_map, List.getElem?_map, hi, hj, Option.map_some, Option.map_some, h]

/-- The port is the one the root priority vector was taken from. -/
def isRootPort (t : Tree) (s : Selection) (ptp : PerTreePort) : Bool :=
  s.rootPriority.designatedBridgeID ≠ t.bridgeIdentifier ∧ ptp.portId = s.rootPortId

section Ids
variable {t : Tree} (hbridge : t.bridgePriority.designatedBridgeID = t.bridgeIdentifier)
  (hids : (t.ports.map (·.portId)).Nodup)
include hbridge

theorem rootPtp_eq_none_iff : (selectRoot t).rootPtp = none ↔
    (selectRoot t).rootPriority.designatedBridgeID = t.bridgeIdentifier := by
  rcases selectRoot_cases t with heq | ⟨i, ptp, hi, he, heq⟩ <;> rw [heq]
  · exact iff_of_true rfl hbridge
  · simp only [eligible, decide_eq_true_eq] at he
    refine iff_of_false (by simp [selectionOf]) fun h => he.2.2 (Eq.trans ?_ h)
    simp only [selectionOf, rootPathPriority]
    split
    · rfl
    split
    · rfl
    · rfl

include hids

/-- With ids of their own, ports are told apart by these as well as by their
places. -/
theorem rootPtp_iff {i : Nat} {ptp : PerTreePort} (hi : t.ports[i]? = some ptp) :
    (selectRoot t).rootPtp = some i ↔ isRootPort t (selectRoot t) ptp = true := by
  have hnone := rootPtp_eq_none_iff hbridge
  simp only [isRootPort, decide_eq_true_eq, ne_eq, ← hnone]
  rcases selectRoot_cases t with heq | ⟨j, q, hj, -, heq⟩ <;> rw [heq]
  · simp
  · simp only [selectionOf, Option.some.injEq, reduceCtorEq, not_false_eq_true, true_and]
    constructor
    · rintro rfl
      obtain rfl := Option.some.inj (hi.symm.trans hj)
      rfl
    · intro hid
      exact index_eq_of_portId hids hj hi hid.symm

/-- The ports after the selection, without their places. -/
theorem updtRolesTree_ports : (updtRolesTree t).tree.ports = t.ports.map fun ptp =>
    selectRole t (isRootPort t (selectRoot t) ptp)
      (designate t (selectRoot t).rootPriority (newRootTimes t (selectRoot t).rootPtp) ptp) := by
  refine List.ext_getElem? fun i => ?_
  rw [updtRolesTree_port, List.getElem?_map]
  cases hi : t.ports[i]? with
  | none => rfl
  | some ptp =>
    have hroot : decide ((selectRoot t).rootPtp = some i) = isRootPort t (selectRoot t) ptp := by
      rw [Bool.eq_iff_iff, decide_eq_true_eq]
      exact rootPtp_iff hbridge hids hi
    simp only [Option.map_some, updatedPort, hroot]

end Ids

section Perm
variable {t : Tree} {ports : List PerTreePort} (hcist : t.mstid = 0)
  (hperm : ports.Perm t.ports)

include hcist hperm in
/-- The least is the least in any order. -/
theorem selectRoot_key_perm :
    (selectRoot { t with ports := ports }).rootPriority = (selectRoot t).rootPriority ∧
      (selectRoot { t with ports := ports }).rootPortId = (selectRoot t).rootPortId := by
  have hle : ∀ (u v : Tree), (∀ q, q ∈ u.ports ↔ q ∈ v.ports) →
      u = { v with ports := u.ports } → (selectRoot u).key u ≤ (selectRoot v).key v := by
    intro u v hmem huv
    rcases selectRoot_cases v with heq | ⟨i, ptp, hi, he, heq⟩
    · have hb := selectRoot_le_bridge u
      rw [heq, Selection.key, Selection.key]
      rw [huv] at hb ⊢
      exact hb
    · have hin := (hmem ptp).mpr (List.mem_of_getElem? hi)
      have hsame : eligible u ptp = eligible v ptp := by rw [huv]; rfl
      have hle := selectRoot_le hin (hsame.trans he)
      have hpath : pathKey u ptp = pathKey v ptp := by rw [huv]; rfl
      rw [hpath] at hle
      rw [heq]
      exact hle
  have hc : t.cist = true := by simp [Tree.cist, hcist]
  have hc' : Tree.cist { t with ports := ports } = true := hc
  have h1 := hle { t with ports := ports } t (fun q => hperm.mem_iff) rfl
  have h2 := hle t { t with ports := ports } (fun q => hperm.mem_iff.symm) rfl
  have heq := le_antisymm h1 h2
  rw [Selection.key, Selection.key, hc, hc'] at heq
  exact key_inj heq

/-- The times of the root port are those of the same port. -/
theorem newRootTimes_perm (hcist : t.mstid = 0) (hperm : ports.Perm t.ports)
    (hbridge : t.bridgePriority.designatedBridgeID = t.bridgeIdentifier)
    (hids : (t.ports.map (·.portId)).Nodup) :
    newRootTimes { t with ports := ports } (selectRoot { t with ports := ports }).rootPtp =
      newRootTimes t (selectRoot t).rootPtp := by
  obtain ⟨hprio, hid⟩ := selectRoot_key_perm hcist hperm
  have hnone : (selectRoot { t with ports := ports }).rootPtp = none ↔
      (selectRoot t).rootPtp = none := by
    rw [rootPtp_eq_none_iff hbridge, rootPtp_eq_none_iff (t := { t with ports := ports }) hbridge,
      hprio]
  rcases selectRoot_cases t with heq | ⟨i, p, hi, -, heq⟩
  · rw [hnone.mpr (by rw [heq]), heq]
    rfl
  · rcases selectRoot_cases { t with ports := ports } with heq' | ⟨j, q, hj, -, heq'⟩
    · rw [heq, heq'] at hnone
      cases hnone.mp rfl
    · -- both are the port with the selected id
      have hq : q ∈ t.ports := hperm.mem_iff.mp (List.mem_of_getElem? hj)
      have hpq : q.portId = p.portId := by
        rw [heq, heq'] at hid
        exact hid
      obtain rfl := eq_of_portId hids hq (List.mem_of_getElem? hi) hpq
      rw [heq, heq']
      simp only [selectionOf, newRootTimes, Option.bind_some, hi, hj]

end Perm

/-- **Roles do not depend on the order of the ports.**  In a CIST whose ports have
ids of their own, listing the ports in another order gives the same root priority
vector, root port and times, and every port the same role, the same vector to send
and the same need to send it. -/
theorem updtRolesTree_perm (t : Tree) (ports : List PerTreePort) (hcist : t.mstid = 0)
    (hbridge : t.bridgePriority.designatedBridgeID = t.bridgeIdentifier)
    (hids : (t.ports.map (·.portId)).Nodup) (hperm : ports.Perm t.ports) :
    let u := updtRolesTree { t with ports := ports }
    u.tree.ports.Perm (updtRolesTree t).tree.ports ∧
      { u.tree with ports := [] } = { (updtRolesTree t).tree with ports := [] } ∧
      u.syncMaster = (updtRolesTree t).syncMaster := by
  obtain ⟨hprio, hid⟩ := selectRoot_key_perm hcist hperm
  have htimes := newRootTimes_perm hcist hperm hbridge hids
  have hids' : (ports.map (·.portId)).Nodup := (hperm.map _).nodup_iff.mpr hids
  refine ⟨?_, ?_, ?_⟩
  · rw [updtRolesTree_ports hbridge hids,
      updtRolesTree_ports (t := { t with ports := ports }) hbridge hids']
    have hfun : ∀ ptp, isRootPort { t with ports := ports } (selectRoot { t with ports := ports })
        ptp = isRootPort t (selectRoot t) ptp := fun ptp => by rw [isRootPort, isRootPort, hprio, hid]
    simp only [hfun, hprio, htimes]
    exact hperm.map _
  · simp only [updtRolesTree, hprio, hid, htimes]
  · simp only [updtRolesTree, hprio]
    rfl

/-- The vector of the bridge with identifier 1 on its port `port`. -/
def fromOne (port : PortIdentifier) : PriorityVector := ⟨1, 0, 1, port, 1, 0⟩

/-- The vector of the bridge with identifier 2, behind its first port. -/
def fromTwo (port : PortIdentifier) : PriorityVector := ⟨2, 0, 2, port, 1, 200⟩

/-- A port with default settings. -/
def plainPort (port : PortIdentifier) (infoIs : PortInfoOrigin) (role : PortRole)
    (designated known : PriorityVector) (designatedTimes portTimes : Times) : PerTreePort where
  restrictedRole := false
  rcvdInternal := false
  infoInternal := false
  sendRSTP := true
  externalPortPathCost := 200
  cistInfoIs := infoIs
  cistSelectedRole := role
  portId := port
  infoIs := infoIs
  role := role
  selectedRole := role
  updtInfo := false
  designatedPriority := designated
  portPriority := known
  designatedTimes := designatedTimes
  portTimes := portTimes
  internalPortPathCost := 200

/-- The times of a root bridge, and one bridge further. -/
def startTimes : Times := ⟨20, 15, 20, 0, 2⟩
def nextTimes : Times := ⟨20, 15, 20, 1, 2⟩

/-- The tree of the bridge with identifier 2: a root port and an alternate port. -/
def treeTwo : Tree where
  mstid := 0
  bridgeIdentifier := 2
  rootPortId := 0x8001
  rootPriority := ⟨2, 0, 1, 0x8001, 1, 200⟩
  bridgePriority := ⟨2, 0, 2, 0, 2, 0⟩
  bridgeTimes := startTimes
  rootTimes := nextTimes
  ports :=
    [plainPort 0x8001 .ioReceived .roleRoot (fromTwo 0x8001) (fromOne 0x8001) nextTimes startTimes,
      plainPort 0x8002 .ioReceived .roleAlternate (fromTwo 0x8002) (fromOne 0x8002) nextTimes
        startTimes]

/-- The two ports in the other order. -/
theorem updtRolesTree_perm_treeTwo :
    let u := updtRolesTree { treeTwo with ports := treeTwo.ports.reverse }
    u.tree.ports.Perm (updtRolesTree treeTwo).tree.ports ∧
      { u.tree with ports := [] } = { (updtRolesTree treeTwo).tree with ports := [] } ∧
      u.syncMaster = (updtRolesTree treeTwo).syncMaster :=
  updtRolesTree_perm treeTwo treeTwo.ports.reverse rfl rfl (by decide) (List.reverse_perm _)

end TfPackages.Mstp
