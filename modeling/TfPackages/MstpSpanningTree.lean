import TfPackages.MstpNetwork

/-! # The active topology

The vertices are the bridges and the LANs, the edges the ports that forward: root
ports and designated ports.  A network at rest has no loop (`stable_loop_free`),
whatever its size and wiring and even where a port may not become a root port.  If
every port may, and the ports that take part connect everything, all bridges agree
on the one with the smallest identifier as the root, and the active topology is a
tree (`stable_spanning_tree`).
-/
namespace TfPackages.Mstp.Network
variable {B L : Type} {N : Network B L}

/-- The port forwards frames. -/
def Port.Forwards (p : N.Port) : Prop :=
  p.ptp.role = .roleRoot ∨ p.ptp.role = .roleDesignated

/-- A bridge and a LAN are connected by a port with property `P`. -/
def Link (P : N.Port → Prop) : B ⊕ L → B ⊕ L → Prop
  | .inl b, .inr l => ∃ p : N.Port, p.bridge = b ∧ p.lan = l ∧ P p
  | _, _ => False

/-- The graph of the ports that take part. -/
def attached (N : Network B L) : SimpleGraph (B ⊕ L) :=
  SimpleGraph.fromRel (Link (N := N) Port.Enabled)

/-- The graph of the ports that forward. -/
def active (N : Network B L) : SimpleGraph (B ⊕ L) :=
  SimpleGraph.fromRel (Link (N := N) Port.Forwards)

/-- The ends of an edge. -/
theorem fromRel_link {P : N.Port → Prop} {v w : B ⊕ L}
    (h : (SimpleGraph.fromRel (Link P)).Adj v w) :
    ∃ p : N.Port, P p ∧
      (v = .inl p.bridge ∧ w = .inr p.lan ∨ v = .inr p.lan ∧ w = .inl p.bridge) := by
  rw [SimpleGraph.fromRel_adj] at h
  rcases h with ⟨-, h | h⟩
  · match v, w, h with
    | .inl _, .inr _, ⟨p, rfl, rfl, hp⟩ => exact ⟨p, hp, Or.inl ⟨rfl, rfl⟩⟩
  · match w, v, h with
    | .inl _, .inr _, ⟨p, rfl, rfl, hp⟩ => exact ⟨p, hp, Or.inr ⟨rfl, rfl⟩⟩

theorem adj_of_port {P : N.Port → Prop} {p : N.Port} (hp : P p) :
    (SimpleGraph.fromRel (Link P)).Adj (.inl p.bridge) (.inr p.lan) := by
  rw [SimpleGraph.fromRel_adj]
  exact ⟨Sum.inl_ne_inr, Or.inl ⟨p, rfl, rfl, hp⟩⟩

open Classical in
/-- Bridges rank by the costs of their paths to the root, LANs behind their
designated bridges. -/
noncomputable def rank (N : Network B L) : B ⊕ L → (ℕ ×ₗ ℕ) ×ₗ ℕ
  | .inl b => toLex (N.cost b, 0)
  | .inr l =>
    if h : ∃ q : N.Port, q.lan = l ∧ q.ptp.role = .roleDesignated then
      toLex (N.cost h.choose.bridge, 1)
    else toLex (toLex (0, 0), 0)

/-- Some bridge has a path of least cost. -/
theorem exists_minimal_cost [Nonempty B] (N : Network B L) :
    ∃ b : B, ∀ b' : B, ¬ N.cost b' < N.cost b := by
  obtain ⟨c, ⟨b, rfl⟩, hmin⟩ := WellFounded.has_min (wellFounded_lt (α := ℕ ×ₗ ℕ))
    (Set.range N.cost) (Set.range_nonempty N.cost)
  exact ⟨b, fun b' => hmin _ ⟨b', rfl⟩⟩

section Rest
variable {version : UInt8} (hc : N.Configured version) (hs : N.Stable)
include hc hs

theorem Stable.rank_lan {q : N.Port} (hq : q.ptp.role = .roleDesignated) :
    N.rank (.inr q.lan) = toLex (N.cost q.bridge, 1) := by
  have h : ∃ r : N.Port, r.lan = q.lan ∧ r.ptp.role = .roleDesignated := ⟨q, rfl, hq⟩
  dsimp only [rank]
  rw [dif_pos h, hs.designated_unique hc h.choose_spec.2 hq h.choose_spec.1]

/-- The LAN of a designated port is behind its bridge. -/
theorem Stable.rank_designated {p : N.Port} (hp : p.ptp.role = .roleDesignated) :
    N.rank (.inl p.bridge) < N.rank (.inr p.lan) := by
  rw [hs.rank_lan hc hp]
  exact Prod.Lex.toLex_lt_toLex.mpr (Or.inr ⟨rfl, Nat.zero_lt_one⟩)

/-- A bridge is behind the LAN of its root port. -/
theorem Stable.rank_root {p : N.Port} (hp : p.ptp.role = .roleRoot) :
    N.rank (.inr p.lan) < N.rank (.inl p.bridge) := by
  obtain ⟨hinfo, -⟩ := ((hs.settled p.bridge).root_iff p.mem).mp hp
  obtain ⟨q, -, hlan, hq, -⟩ := hs.received hc hinfo
  obtain ⟨-, -, hcost⟩ := hs.towards_root hc hp hq hlan
  rw [← hlan, hs.rank_lan hc hq]
  exact Prod.Lex.toLex_lt_toLex.mpr (Or.inl hcost)

/-- A port by which a bridge has a LAN of lower rank is its root port. -/
theorem Stable.root_of_lower {p : N.Port} (hp : p.Forwards)
    (hlt : N.rank (.inr p.lan) < N.rank (.inl p.bridge)) : p.ptp.role = .roleRoot :=
  hp.resolve_right fun hd => absurd (hs.rank_designated hc hd) hlt.asymm

/-- A port by which a LAN has a bridge of lower rank is its designated port. -/
theorem Stable.designated_of_lower {p : N.Port} (hp : p.Forwards)
    (hlt : N.rank (.inl p.bridge) < N.rank (.inr p.lan)) : p.ptp.role = .roleDesignated :=
  hp.resolve_left fun hr => absurd (hs.rank_root hc hr) hlt.asymm

/-- **The active topology is ranked.** -/
theorem Stable.ranked : RankedForest.Ranked N.active N.rank where
  rank_ne v w hadj := by
    obtain ⟨p, hp, ⟨rfl, rfl⟩ | ⟨rfl, rfl⟩⟩ := fromRel_link hadj
    · rcases hp with hr | hd
      · exact (hs.rank_root hc hr).ne'
      · exact (hs.rank_designated hc hd).ne
    · rcases hp with hr | hd
      · exact (hs.rank_root hc hr).ne
      · exact (hs.rank_designated hc hd).ne'
  lower_unique v w w' hw hw' hlt hlt' := by
    obtain ⟨p, hp, ⟨rfl, rfl⟩ | ⟨rfl, rfl⟩⟩ := fromRel_link hw
    · obtain ⟨q, hq, ⟨hv, rfl⟩ | ⟨hv, rfl⟩⟩ := fromRel_link hw'
      · have hb : p.bridge = q.bridge := Sum.inl.inj hv
        rw [hb] at hlt
        rw [hv] at hlt'
        have hpr := hs.root_of_lower hc hp (hb ▸ hlt)
        have hqr := hs.root_of_lower hc hq hlt'
        rw [hs.root_unique hpr hqr hb]
      · cases hv
    · obtain ⟨q, hq, ⟨hv, rfl⟩ | ⟨hv, rfl⟩⟩ := fromRel_link hw'
      · cases hv
      · have hl : p.lan = q.lan := Sum.inr.inj hv
        have hpd := hs.designated_of_lower hc hp hlt
        have hqd := hs.designated_of_lower hc hq (hl ▸ hlt')
        rw [hs.designated_unique hc hpd hqd hl]

/-- No two ports that forward connect the same bridge and LAN. -/
theorem Stable.forwards_unique {p q : N.Port} (hp : p.Forwards) (hq : q.Forwards)
    (hb : p.bridge = q.bridge) (hl : p.lan = q.lan) : p = q := by
  rcases lt_or_ge (N.rank (.inr p.lan)) (N.rank (.inl p.bridge)) with hlt | hge
  · exact hs.root_unique (hs.root_of_lower hc hp hlt)
      (hs.root_of_lower hc hq (hl ▸ hb ▸ hlt)) hb
  · have hlt := lt_of_le_of_ne hge ((hs.ranked hc).rank_ne _ _ (adj_of_port hp))
    exact hs.designated_unique hc (hs.designated_of_lower hc hp hlt)
      (hs.designated_of_lower hc hq (hl ▸ hb ▸ hlt)) hl

/-- A port and the designated port of its LAN have the same root. -/
theorem Stable.rootID_eq {p q : N.Port} (hr : p.ptp.restrictedRole = false) (hp : p.Enabled)
    (hq : q.ptp.role = .roleDesignated) (hlan : q.lan = p.lan) :
    N.rootID p.bridge = N.rootID q.bridge := by
  have hset := hs.settled p.bridge
  cases hinfo : p.ptp.infoIs with
  | ioDisabled => exact absurd hinfo hp
  | ioAged => exact absurd hinfo (hset.not_aged p.mem)
  | ioMine => rw [hs.designated_unique hc ((hset.designated_iff p.mem).mpr hinfo) hq hlan.symm]
  | ioReceived =>
    obtain ⟨q', -, hlan', hq', hport⟩ := hs.received hc hinfo
    obtain rfl : q' = q := hs.designated_unique hc hq' hq (hlan'.trans hlan.symm)
    by_cases hown : q'.bridge = p.bridge
    · rw [hown]
    obtain ⟨hrid, -, hbr, -⟩ := hs.designatedPriority_eq q'
    rw [← hport] at hrid hbr
    rcases hset.of_received p.mem hinfo with ⟨hroot, hrole⟩ | ⟨-, hle, -⟩
    · exact (hs.towards_root hc hrole hq hlan).2.1.symm
    · -- neither the bridge nor the port knows a better root than the other
      have helig : eligible (N.tree p.bridge) p.ptp = true := by
        simp only [eligible, decide_eq_true_eq]
        exact ⟨hinfo, hr, fun heq => hown (hc.bridgeIdentifiers (hbr.symm.trans heq))⟩
      have hbest := selectRoot_le (List.mem_of_getElem? p.mem) helig
      have hpath : (rootPathPriority (N.tree p.bridge) p.ptp).rootID =
          p.ptp.portPriority.rootID := by
        rw [rootPathPriority, hset.cist_eq]
        split
        · rfl
        · rfl
      have h1 : (N.rootID p.bridge).toNat ≤ (N.rootID q'.bridge).toNat := by
        rw [Selection.key, pathKey, hset.cist_eq, hset.rootPriority_eq] at hbest
        have := (Prod.Lex.toLex_le_toLex.mp hbest).imp le_of_lt (fun h => h.1.le)
        simp only [if_true, hpath, hrid, or_self] at this
        exact this
      have h2 : (N.rootID q'.bridge).toNat ≤ (N.rootID p.bridge).toNat := by
        have := (Prod.Lex.toLex_le_toLex.mp hle).imp le_of_lt (fun h => h.1.le)
        simp only [if_true, hrid, (hs.designatedPriority_eq p).1, or_self] at this
        exact this
      exact UInt64.toNat_inj.mp (le_antisymm h1 h2)

end Rest

/-! ## Loops -/

/-- **No loops.**  In a network of bridges at rest the ports that forward form no
cycle: not through bridges and LANs, and not by two ports of a bridge on one LAN.
On every LAN exactly one port is designated. -/
theorem stable_loop_free (N : Network B L) (version : UInt8) (hc : N.Configured version)
    (hs : N.Stable) :
    N.active.IsAcyclic ∧
      (∀ p q : N.Port, p.Forwards → q.Forwards → p.bridge = q.bridge → p.lan = q.lan → p = q) ∧
      ∀ p : N.Port, p.Enabled → ∃! q : N.Port, q.lan = p.lan ∧ q.ptp.role = .roleDesignated := by
  refine ⟨(hs.ranked hc).isAcyclic, fun p q hp hq hb hl => hs.forwards_unique hc hp hq hb hl,
    fun p hp => ?_⟩
  obtain ⟨q, hlan, hq⟩ := hs.exists_designated hc hp
  exact ⟨q, ⟨hlan, hq⟩, fun r hr => hs.designated_unique hc hr.2 hq (hr.1.trans hlan.symm)⟩

/-! ## The spanning tree -/

section Rest
variable {version : UInt8} (hc : N.Configured version) (hs : N.Stable)
  (hr : ∀ p : N.Port, p.ptp.restrictedRole = false) (hconn : N.attached.Connected)

/-- The root that a vertex knows of: for a LAN, that of its designated bridge. -/
def Knows (N : Network B L) (id : BridgeIdentifier) : B ⊕ L → Prop
  | .inl b => N.rootID b = id
  | .inr l => ∃ q : N.Port, q.lan = l ∧ q.ptp.role = .roleDesignated ∧ N.rootID q.bridge = id

include hc hs hr in
/-- Neighbours know of the same root. -/
theorem Stable.knows_adj {id : BridgeIdentifier} {v w : B ⊕ L} (hadj : N.attached.Adj v w)
    (hv : N.Knows id v) : N.Knows id w := by
  obtain ⟨p, hp, ⟨rfl, rfl⟩ | ⟨rfl, rfl⟩⟩ := fromRel_link hadj
  · obtain ⟨q, hlan, hq⟩ := hs.exists_designated hc hp
    exact ⟨q, hlan, hq, (hs.rootID_eq hc (hr p) hp hq hlan).symm.trans hv⟩
  · obtain ⟨q, hlan, hq, hid⟩ := hv
    exact (hs.rootID_eq hc (hr p) hp hq hlan).trans hid

include hc hs hr hconn in
/-- **All bridges agree on the root.** -/
theorem Stable.agree (b b' : B) : N.rootID b = N.rootID b' := by
  obtain ⟨walk⟩ := hconn.preconnected (.inl b') (.inl b)
  have key : ∀ {v w : B ⊕ L}, N.attached.Walk v w → N.Knows (N.rootID b') v →
      N.Knows (N.rootID b') w := by
    intro v w walk
    induction walk with
    | nil => exact id
    | cons hadj _ ih => exact fun hv => ih (hs.knows_adj hc hr hadj hv)
  exact key walk rfl

include hc hs in
/-- Some bridge has no root port: one that is nearest to the root. -/
theorem Stable.exists_root [Nonempty B] :
    ∃ b : B, ∀ p : N.Port, p.bridge = b → p.ptp.role ≠ .roleRoot := by
  obtain ⟨b, hmin⟩ := exists_minimal_cost N
  refine ⟨b, ?_⟩
  rintro p rfl hp
  obtain ⟨hinfo, -⟩ := ((hs.settled p.bridge).root_iff p.mem).mp hp
  obtain ⟨q, -, hlan, hq, -⟩ := hs.received hc hinfo
  exact absurd (hs.towards_root hc hp hq hlan).2.2 (hmin q.bridge)

include hc hs in
/-- A bridge without a root port is the root it knows of. -/
theorem Stable.rootID_of_no_root {b : B}
    (hno : ∀ p : N.Port, p.bridge = b → p.ptp.role ≠ .roleRoot) :
    N.rootID b = (N.tree b).bridgeIdentifier := by
  rw [rootID, hs.rootPriority_of_no_root hno, hc.bridgePriority]

include hc hs in
/-- The root has an identifier no larger than that of any bridge that knows of it. -/
theorem Stable.rootID_le (b : B) : N.rootID b ≤ (N.tree b).bridgeIdentifier := by
  have hset := hs.settled b
  have hle := selectRoot_le_bridge (N.tree b)
  rw [Selection.key, hset.cist_eq, hset.rootPriority_eq, hc.bridgePriority] at hle
  have := (Prod.Lex.toLex_le_toLex.mp hle).imp le_of_lt (fun h => h.1.le)
  simp only [if_true, or_self] at this
  exact UInt64.le_iff_toNat_le.mpr this

end Rest

/-- **The spanning tree.**  In a network at rest whose ports connect all bridges and
LANs and may all become root ports, there is one root bridge, the one with the
smallest identifier, on which all bridges agree; every other bridge has exactly one
root port; and the ports that forward connect all bridges and LANs as a tree. -/
theorem stable_spanning_tree [Nonempty B] (N : Network B L) (version : UInt8)
    (hc : N.Configured version) (hs : N.Stable)
    (hr : ∀ p : N.Port, p.ptp.restrictedRole = false) (hconn : N.attached.Connected) :
    N.active.IsTree ∧
      ∃ root : B,
        (∀ b, N.rootID b = (N.tree root).bridgeIdentifier) ∧
        (∀ b, (N.tree root).bridgeIdentifier ≤ (N.tree b).bridgeIdentifier) ∧
        (∀ p : N.Port, p.bridge = root → p.ptp.role ≠ .roleRoot) ∧
        ∀ b, b ≠ root → ∃! p : N.Port, p.bridge = b ∧ p.ptp.role = .roleRoot := by
  obtain ⟨root, hno⟩ := hs.exists_root hc
  have hroot : ∀ b, N.rootID b = (N.tree root).bridgeIdentifier := fun b =>
    (hs.agree hc hr hconn b root).trans (hs.rootID_of_no_root hc hno)
  have hother : ∀ b, b ≠ root → ∃ p : N.Port, p.bridge = b ∧ p.ptp.role = .roleRoot := by
    intro b hb
    by_contra hnone
    have hid := hs.rootID_of_no_root hc (b := b) fun p hp hrole => hnone ⟨p, hp, hrole⟩
    exact hb (hc.bridgeIdentifiers (hid.symm.trans (hroot b)))
  have hrooted : RankedForest.Rooted N.active N.rank (.inl root) := by
    intro v hv
    match v with
    | .inl b =>
      obtain ⟨p, rfl, hp⟩ := hother b fun heq => hv (by rw [heq])
      exact ⟨_, adj_of_port (Or.inl hp), hs.rank_root hc hp⟩
    | .inr l =>
      -- the LAN is connected, so some port of it takes part
      obtain ⟨walk⟩ := hconn.preconnected (.inr l) (.inl root)
      obtain ⟨p, hp, hl⟩ : ∃ p : N.Port, p.Enabled ∧ p.lan = l := by
        cases walk with
        | cons hadj _ =>
          obtain ⟨p, hp, ⟨hl, -⟩ | ⟨hl, -⟩⟩ := fromRel_link hadj
          · cases hl
          · exact ⟨p, hp, (Sum.inr.inj hl).symm⟩
      obtain ⟨q, hlan, hq⟩ := hs.exists_designated hc hp
      obtain rfl : q.lan = l := hlan.trans hl
      exact ⟨_, (adj_of_port (Or.inr hq)).symm, hs.rank_designated hc hq⟩
  refine ⟨RankedForest.isTree (hs.ranked hc) hrooted, root, hroot, fun b => ?_, hno, fun b hb => ?_⟩
  · rw [← hroot b]
    exact hs.rootID_le hc b
  · obtain ⟨p, hpb, hp⟩ := hother b hb
    exact ⟨p, ⟨hpb, hp⟩, fun q hq => hs.root_unique hq.2 hp (hq.1.trans hpb.symm)⟩

/-! ## Two bridges with two links -/

/-- The tree of the bridge with identifier 1: both ports are designated. -/
def treeOne : Tree where
  mstid := 0
  bridgeIdentifier := 1
  rootPortId := 0
  rootPriority := ⟨1, 0, 1, 0, 1, 0⟩
  bridgePriority := ⟨1, 0, 1, 0, 1, 0⟩
  bridgeTimes := startTimes
  rootTimes := startTimes
  ports :=
    [plainPort 0x8001 .ioMine .roleDesignated (fromOne 0x8001) (fromOne 0x8001) startTimes startTimes,
      plainPort 0x8002 .ioMine .roleDesignated (fromOne 0x8002) (fromOne 0x8002) startTimes
        startTimes]

/-- Two bridges, connected twice. -/
def twoLinks : Network Bool Bool where
  bridge _ := ⟨protoRSTP, [], 20⟩
  tree b := if b then treeTwo else treeOne
  lan _ i := i = 1

/-- The port of a bridge on a link. -/
def linkPort : (b : Bool) → (i : Bool) → twoLinks.Port
  | false, false => ⟨false, 0, _, rfl⟩
  | false, true => ⟨false, 1, _, rfl⟩
  | true, false => ⟨true, 0, _, rfl⟩
  | true, true => ⟨true, 1, _, rfl⟩

theorem eq_linkPort (p : twoLinks.Port) : ∃ b i, p = linkPort b i := by
  obtain ⟨b, i, ptp, hp⟩ := p
  match b, i, hp with
  | false, 0, hp => exact ⟨false, false, Port.eq_of rfl rfl⟩
  | false, 1, hp => exact ⟨false, true, Port.eq_of rfl rfl⟩
  | false, n + 2, hp => cases hp
  | true, 0, hp => exact ⟨true, false, Port.eq_of rfl rfl⟩
  | true, 1, hp => exact ⟨true, true, Port.eq_of rfl rfl⟩
  | true, n + 2, hp => cases hp

theorem forall_port {P : twoLinks.Port → Prop} (h : ∀ b i, P (linkPort b i)) (p : twoLinks.Port) :
    P p := by
  obtain ⟨b, i, rfl⟩ := eq_linkPort p
  exact h b i

theorem settled_twoLinks (b : Bool) : (twoLinks.tree b).Settled := by
  cases b
  · constructor <;> decide +kernel
  · constructor <;> decide +kernel

theorem configured_twoLinks : twoLinks.Configured protoRSTP where
  version_eq _ := rfl
  bridgePriority b := by cases b <;> rfl
  bridgeIdentifiers := by
    intro b b' h
    cases b <;> cases b'
    · rfl
    · exact absurd h (by decide)
    · exact absurd h (by decide)
    · rfl
  portIds b := by cases b <;> decide
  sendRSTP := forall_port (by decide)
  internalCost := forall_port (by decide)
  externalCost := forall_port (by decide +kernel)

theorem stable_twoLinks : twoLinks.Stable where
  settled := settled_twoLinks
  heard := by
    refine forall_port fun b i hinfo => ?_
    cases b
    · cases i <;> cases hinfo
    · clear hinfo
      have hne : linkPort false i ≠ linkPort true i := by
        intro h
        have hb := congrArg Port.bridge h
        cases i <;> cases hb
      cases i
      · exact ⟨linkPort false false, _, hne, rfl, rfl, by decide +kernel, rfl⟩
      · exact ⟨linkPort false true, _, hne, rfl, rfl, by decide +kernel, rfl⟩
  quiet := by
    refine forall_port fun b i => forall_port fun b' i' => ?_
    intro m hne hlan _ hsend
    obtain rfl : i' = i := by
      cases b <;> cases i <;> cases b' <;> cases i' <;> first | rfl | cases hlan
    cases b <;> cases i' <;> cases b' <;> first
      | exact absurd rfl hne
      | (cases hsend; decide +kernel)

/-- All vertices are connected with the first bridge. -/
theorem connected_twoLinks : twoLinks.attached.Connected := by
  have hadj : ∀ b i, twoLinks.attached.Adj (.inl b) (.inr i) := fun b i => by
    have h := adj_of_port (N := twoLinks) (P := Port.Enabled) (p := linkPort b i)
      (by unfold Port.Enabled; cases b <;> cases i <;> decide)
    cases b <;> cases i <;> exact h
  have hreach : ∀ v, twoLinks.attached.Reachable v (.inl false) := by
    intro v
    match v with
    | .inr i => exact (hadj false i).symm.reachable
    | .inl b => exact (hadj b false).reachable.trans (hadj false false).symm.reachable
  have : Nonempty (Bool ⊕ Bool) := ⟨.inl false⟩
  exact ⟨fun v w => (hreach v).trans (hreach w).symm⟩

theorem stable_loop_free_twoLinks :
    twoLinks.active.IsAcyclic ∧
      (∀ p q : twoLinks.Port, p.Forwards → q.Forwards → p.bridge = q.bridge → p.lan = q.lan →
        p = q) ∧
      ∀ p : twoLinks.Port, p.Enabled →
        ∃! q : twoLinks.Port, q.lan = p.lan ∧ q.ptp.role = .roleDesignated :=
  stable_loop_free twoLinks protoRSTP configured_twoLinks stable_twoLinks

theorem stable_spanning_tree_twoLinks :
    twoLinks.active.IsTree ∧
      ∃ root : Bool,
        (∀ b, twoLinks.rootID b = (twoLinks.tree root).bridgeIdentifier) ∧
        (∀ b, (twoLinks.tree root).bridgeIdentifier ≤ (twoLinks.tree b).bridgeIdentifier) ∧
        (∀ p : twoLinks.Port, p.bridge = root → p.ptp.role ≠ .roleRoot) ∧
        ∀ b, b ≠ root → ∃! p : twoLinks.Port, p.bridge = b ∧ p.ptp.role = .roleRoot :=
  stable_spanning_tree twoLinks protoRSTP configured_twoLinks stable_twoLinks
    (forall_port (by decide)) connected_twoLinks

end TfPackages.Mstp.Network
