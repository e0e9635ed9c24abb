import Mathlib.Combinatorics.SimpleGraph.Acyclic

/-! # Forests by ranks

A graph whose vertices carry ranks, such that adjacent vertices differ in rank
and no vertex has two neighbours of smaller rank, has no cycle: the vertex of
greatest rank on a cycle would have two.  If every vertex but one has a neighbour
of smaller rank, and ranks are well-founded, the graph is connected, hence a
tree.

Protocols that compute a spanning tree keep such a rank, the distance to the
root; what has to be shown of them is `Ranked` and `Rooted`.
-/
namespace RankedForest
open SimpleGraph

variable {V R : Type*} [LinearOrder R] {G : SimpleGraph V} {rank : V → R}

/-- Neighbours differ in rank, and at most one of them ranks lower. -/
structure Ranked (G : SimpleGraph V) (rank : V → R) : Prop where
  rank_ne : ∀ v w, G.Adj v w → rank v ≠ rank w
  lower_unique : ∀ v w w', G.Adj v w → G.Adj v w' → rank w < rank v → rank w' < rank v → w = w'

/-- Every vertex but `r` has a neighbour of lower rank. -/
def Rooted (G : SimpleGraph V) (rank : V → R) (r : V) : Prop :=
  ∀ v, v ≠ r → ∃ w, G.Adj v w ∧ rank w < rank v

/-- A vertex of greatest rank on a walk. -/
theorem exists_max_rank (rank : V → R) {u v : V} (p : G.Walk u v) :
    ∃ w ∈ p.support, ∀ x ∈ p.support, rank x ≤ rank w := by
  induction p with
  | nil => exact ⟨_, List.mem_singleton.mpr rfl, fun x hx => by rw [List.mem_singleton.mp hx]⟩
  | @cons a b c hadj p ih =>
    obtain ⟨w, hw, hmax⟩ := ih
    rcases le_total (rank a) (rank w) with hle | hle
    · refine ⟨w, List.mem_cons_of_mem _ hw, fun x hx => ?_⟩
      rcases List.mem_cons.mp hx with rfl | hx
      · exact hle
      · exact hmax x hx
    · refine ⟨a, List.mem_cons_self, fun x hx => ?_⟩
      rcases List.mem_cons.mp hx with rfl | hx
      · exact le_rfl
      · exact (hmax x hx).trans hle

/-- A neighbour of a vertex of greatest rank ranks lower. -/
theorem Ranked.lt_of_le (h : Ranked G rank) {v w : V} (hadj : G.Adj v w)
    (hle : rank w ≤ rank v) : rank w < rank v :=
  lt_of_le_of_ne hle (h.rank_ne v w hadj).symm

/-- **A ranked graph has no cycle.** -/
theorem Ranked.isAcyclic (h : Ranked G rank) : G.IsAcyclic := by
  classical
  intro v c hc
  obtain ⟨w, hw, hmax⟩ := exists_max_rank rank c
  -- the cycle, read from its greatest vertex
  have hrot : (c.rotate w hw).IsCycle := hc.rotate hw
  have hmem : ∀ x ∈ (c.rotate w hw).support, rank x ≤ rank w := fun x hx =>
    hmax x (by simpa using hx)
  have hnil := hrot.not_nil
  have hsnd : G.Adj w (c.rotate w hw).snd := (c.rotate w hw).adj_snd hnil
  have hpen : G.Adj w (c.rotate w hw).penultimate :=
    ((c.rotate w hw).adj_penultimate hnil).symm
  refine hrot.snd_ne_penultimate (h.lower_unique w _ _ hsnd hpen ?_ ?_)
  · exact h.lt_of_le hsnd (hmem _ ((c.rotate w hw).getVert_mem_support 1))
  · exact h.lt_of_le hpen (hmem _ ((c.rotate w hw).getVert_mem_support _))

/-- **A rooted graph is connected.** -/
theorem Rooted.reachable [WellFoundedLT R] {r : V} (h : Rooted G rank r) (v : V) :
    G.Reachable v r := by
  induction hk : rank v using WellFoundedLT.induction generalizing v with
  | _ k ih =>
    by_cases hv : v = r
    · rw [hv]
    · obtain ⟨w, hadj, hlt⟩ := h v hv
      exact hadj.reachable.trans (ih (rank w) (hk ▸ hlt) w rfl)

theorem Rooted.connected [WellFoundedLT R] {r : V} (h : Rooted G rank r) : G.Connected where
  preconnected v w := (h.reachable v).trans (h.reachable w).symm
  nonempty := ⟨r⟩

/-- **A ranked and rooted graph is a tree.** -/
theorem isTree [WellFoundedLT R] {r : V} (h : Ranked G rank) (hr : Rooted G rank r) :
    G.IsTree :=
  ⟨hr.connected, h.isAcyclic⟩

end RankedForest
