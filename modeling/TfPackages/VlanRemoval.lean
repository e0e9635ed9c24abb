import TfPackages.VlanPortCommands

/-! # Deleting VLANs and taking ports out of them

`vlan_delete` goes through a range of VLANs and ends with a Lua error at the first
one that has no section, with those before it gone.  `vlan_add_notMemberPorts`
looks at the first VLAN of its range only; where that would be left without ports,
it calls `vlan_delete` for the whole range.

Both are specified by what is left of each VLAN, and an error must not come after
a deletion.  The conditions are those on the range: which of its VLANs exist,
which is the management VLAN, and what ports they have.
-/
namespace TfPackages.Vlan

/-- **What deleting is for.**  The VLANs of the range other than the management
VLAN are gone, the others are as before, and an error leaves no VLAN deleted. -/
structure DeletesRange (vlanRange : Range) (c : Config) (out : Outcome) : Prop where
  sections : ∀ s, s ∈ out.config.sections ↔
    s ∈ c.sections ∧ ¬ (s.vlan ∈ vlanRange.values ∧ c.lanDevice ≠ .vlan s.vlan)
  error : out.luaError = true → ∀ v, c.HasVlan v → out.config.HasVlan v

/-- All VLANs of the range exist, the management VLAN apart. -/
def AllExist (vlanRange : Range) (c : Config) : Prop :=
  ∀ v ∈ vlanRange.values, c.lanDevice ≠ .vlan v → c.HasVlan v

/-- The condition for deleting: of the VLANs other than the management VLAN all
exist, or none. -/
def DeleteFits (vlanRange : Range) (c : Config) : Prop :=
  AllExist vlanRange c ∨ ∀ v ∈ vlanRange.values, c.lanDevice ≠ .vlan v → ¬ c.HasVlan v

/-- **What taking ports out is for.**  The VLANs of the range lose the ports of the
range and nothing else, only an empty VLAN that is not the management VLAN may be
gone, the others are as before, and an error leaves no VLAN deleted. -/
structure RemovesPorts (vlanRange portRange : Range) (c : Config) (out : Outcome) : Prop where
  ports : ∀ v ∈ vlanRange.values, ∀ q,
    out.config.Has v q ↔ c.Has v q ∧ q.num ∉ portRange.values
  deleted : ∀ v ∈ vlanRange.values, c.HasVlan v → ¬ out.config.HasVlan v →
    (∀ q, c.Has v q → q.num ∈ portRange.values) ∧ c.lanDevice ≠ .vlan v
  others : ∀ v ∉ vlanRange.values, SameVlan c out.config v
  error : out.luaError = true → ∀ v, c.HasVlan v → out.config.HasVlan v

/-- The VLAN has no port of the range. -/
def Clear (portRange : Range) (c : Config) (v : Nat) : Prop :=
  ∀ q, c.Has v q → q.num ∉ portRange.values

/-- The VLAN has only ports of the range. -/
def Covered (portRange : Range) (c : Config) (v : Nat) : Prop :=
  ∀ q, c.Has v q → q.num ∈ portRange.values

/-- The first VLAN of the range keeps a port. -/
def FirstKeeps (vlanRange portRange : Range) (c : Config) : Prop :=
  ∃ q, c.Has vlanRange.first q ∧ q.seen ∉ portRange.values

/-- The condition for taking ports out.  Only the first VLAN is looked at: if it
has no section nothing happens, if it keeps a port it gets a new list, and
otherwise the whole range is deleted. -/
structure RemoveFits (vlanRange portRange : Range) (c : Config) : Prop where
  absent : ¬ c.HasVlan vlanRange.first → ∀ v ∈ vlanRange.values, Clear portRange c v
  keeps : FirstKeeps vlanRange portRange c →
    (∀ q, c.Has vlanRange.first q → (q.num ∈ portRange.values ↔ q.seen ∈ portRange.values)) ∧
      ∀ v ∈ vlanRange.values, v ≠ vlanRange.first → Clear portRange c v
  deletes : c.HasVlan vlanRange.first → ¬ FirstKeeps vlanRange portRange c →
    AllExist vlanRange c → ∀ v ∈ vlanRange.values,
      if c.lanDevice = .vlan v then Clear portRange c v else Covered portRange c v
  stops : c.HasVlan vlanRange.first → ¬ FirstKeeps vlanRange portRange c →
    ¬ AllExist vlanRange c → c.lanDevice = .vlan vlanRange.first ∧
      ¬ c.HasVlan (vlanRange.first + 1) ∧ ∀ v ∈ vlanRange.values, Clear portRange c v

section Delete
variable (mainVlan : LanDevice) (list : List Section)

/-- The loop ends without an error exactly if all VLANs but the management VLAN
have sections. -/
theorem deleteLoop_noError_iff (keys : List Nat) (c : Config) :
    (deleteLoop mainVlan list keys c).luaError = false ↔
      ∀ key ∈ keys, mainVlan ≠ .vlan key → bridgeVlan list key ≠ none := by
  induction keys generalizing c with
  | nil => simp [deleteLoop]
  | cons key keys ih =>
    rw [deleteLoop, List.forall_mem_cons]
    by_cases hmain : mainVlan = .vlan key
    · rw [if_pos hmain, ih]
      simp [hmain]
    · rw [if_neg hmain]
      cases h : bridgeVlan list key with
      | none => simp [hmain]
      | some s => simp [ih]

/-- The loop deletes nothing else. -/
theorem mem_deleteLoop_of_not_mem {keys : List Nat} {s : Section}
    (h : s.vlan ∉ keys ∨ mainVlan = .vlan s.vlan) (c : Config) :
    s ∈ (deleteLoop mainVlan list keys c).config.sections ↔ s ∈ c.sections := by
  induction keys generalizing c with
  | nil => exact Iff.rfl
  | cons key keys ih =>
    have hrest : s.vlan ∉ keys ∨ mainVlan = .vlan s.vlan :=
      h.imp (fun hnot hmem => hnot (List.mem_cons_of_mem _ hmem)) id
    rw [deleteLoop]
    by_cases hmain : mainVlan = .vlan key
    · rw [if_pos hmain, ih hrest]
    · rw [if_neg hmain]
      cases bridgeVlan list key with
      | none => exact Iff.rfl
      | some t =>
        have hne : s.vlan ≠ key := by
          rintro rfl
          exact h.elim (fun hnot => hnot List.mem_cons_self) hmain
        refine (ih hrest _).trans ?_
        rw [Config.delete, Config.filter, List.mem_filter]
        simp [hne]

theorem mem_of_mem_deleteLoop {keys : List Nat} {c : Config} {s : Section}
    (h : s ∈ (deleteLoop mainVlan list keys c).config.sections) : s ∈ c.sections := by
  induction keys generalizing c with
  | nil => exact h
  | cons key keys ih =>
    rw [deleteLoop] at h
    split at h
    · exact ih h
    · split at h
      · exact h
      · exact (List.mem_filter.mp (ih h)).1

/-- A VLAN that the loop reaches is gone. -/
theorem not_hasVlan_deleteLoop (pre post : List Nat) {v : Nat} (hv : mainVlan ≠ .vlan v)
    (hex : bridgeVlan list v ≠ none)
    (hpre : ∀ key ∈ pre, mainVlan ≠ .vlan key → bridgeVlan list key ≠ none) (c : Config) :
    ¬ (deleteLoop mainVlan list (pre ++ v :: post) c).config.HasVlan v := by
  induction pre generalizing c with
  | nil =>
    rw [List.nil_append, deleteLoop, if_neg hv]
    cases h : bridgeVlan list v with
    | none => exact absurd h hex
    | some s =>
      rintro ⟨t, ht, htv⟩
      have hmem := (List.mem_filter.mp (mem_of_mem_deleteLoop mainVlan list ht)).2
      simp [htv] at hmem
  | cons key pre ih =>
    rw [List.forall_mem_cons] at hpre
    rw [List.cons_append, deleteLoop]
    by_cases hmain : mainVlan = .vlan key
    · rw [if_pos hmain]
      exact ih hpre.2 c
    · rw [if_neg hmain]
      cases h : bridgeVlan list key with
      | none => exact absurd h (hpre.1 hmain)
      | some s => exact ih hpre.2 _

/-- If the loop stops, it does so at once or after it has deleted a VLAN. -/
theorem deleteLoop_error_cases {keys : List Nat} {c : Config}
    (h : (deleteLoop mainVlan list keys c).luaError = true) :
    (deleteLoop mainVlan list keys c).config = c ∨ ∃ key ∈ keys, bridgeVlan list key ≠ none ∧
      ¬ (deleteLoop mainVlan list keys c).config.HasVlan key := by
  induction keys generalizing c with
  | nil => cases h
  | cons key keys ih =>
    by_cases hmain : mainVlan = .vlan key
    · have heq : deleteLoop mainVlan list (key :: keys) c = deleteLoop mainVlan list keys c := by
        rw [deleteLoop, if_pos hmain]
      rw [heq] at h ⊢
      exact (ih h).imp_right fun ⟨k, hk, hrest⟩ => ⟨k, List.mem_cons_of_mem _ hk, hrest⟩
    · cases hkey : bridgeVlan list key with
      | none =>
        left
        rw [deleteLoop, if_neg hmain, hkey]
      | some s =>
        right
        refine ⟨key, List.mem_cons_self, by rw [hkey]; simp, ?_⟩
        exact not_hasVlan_deleteLoop mainVlan list [] keys hmain (by rw [hkey]; simp) nofun c

end Delete

section Range
variable (vlanRange portRange : Range) (c : Config)

theorem allExist_iff : AllExist vlanRange c ↔
    (vlanDelete c.lanDevice c.sections (some vlanRange) c).luaError = false := by
  rw [vlanDelete, deleteLoop_noError_iff]
  refine forall₃_congr fun v _ _ => ?_
  rw [ne_eq, ← not_hasVlan_iff, not_not]

/-- The sections that are left if all VLANs exist. -/
theorem mem_vlanDelete_of_allExist (h : AllExist vlanRange c) (s : Section) :
    s ∈ (vlanDelete c.lanDevice c.sections (some vlanRange) c).config.sections ↔
      s ∈ c.sections ∧ ¬ (s.vlan ∈ vlanRange.values ∧ c.lanDevice ≠ .vlan s.vlan) := by
  have hexist : ∀ v ∈ vlanRange.values, c.lanDevice ≠ .vlan v →
      bridgeVlan c.sections v ≠ none := fun v hv hmain hnone =>
    (not_hasVlan_iff c v).mpr hnone (h v hv hmain)
  by_cases hs : s.vlan ∈ vlanRange.values ∧ c.lanDevice ≠ .vlan s.vlan
  · refine iff_of_false (fun hmem => ?_) fun hmem => hmem.2 hs
    obtain ⟨pre, post, heq⟩ := List.append_of_mem hs.1
    have hgone := not_hasVlan_deleteLoop c.lanDevice c.sections pre post hs.2
      (hexist _ hs.1 hs.2) (fun key hkey hmain => hexist key (by simp [heq, hkey]) hmain) c
    rw [← heq] at hgone
    exact hgone ⟨s, hmem, rfl⟩
  · rw [and_iff_left hs]
    refine mem_deleteLoop_of_not_mem _ _ ?_ c
    by_contra hnot
    rw [not_or, not_not] at hnot
    exact hs hnot

/-- The VLANs outside the range stay. -/
theorem sameVlan_vlanDelete {v : Nat} (hv : v ∉ vlanRange.values) :
    SameVlan c (vlanDelete c.lanDevice c.sections (some vlanRange) c).config v :=
  fun s hs => mem_deleteLoop_of_not_mem _ _ (Or.inl (by rwa [hs])) c

/-- A deletion that stops half way has deleted a VLAN, or none at all. -/
theorem vlanDelete_error_cases (h : ¬ AllExist vlanRange c)
    (herror : (vlanDelete c.lanDevice c.sections (some vlanRange) c).luaError = true →
      ∀ v, c.HasVlan v →
        (vlanDelete c.lanDevice c.sections (some vlanRange) c).config.HasVlan v) :
    (vlanDelete c.lanDevice c.sections (some vlanRange) c).config = c := by
  rw [allExist_iff, Bool.not_eq_false] at h
  rcases deleteLoop_error_cases _ _ h with hsame | ⟨key, -, hex, hgone⟩
  · exact hsame
  · have hhas : c.HasVlan key := by
      by_contra hnot
      exact hex ((not_hasVlan_iff c key).mp hnot)
    exact absurd (herror h key hhas) hgone

theorem deletesRange_iff :
    DeletesRange vlanRange c (vlanDelete c.lanDevice c.sections (some vlanRange) c) ↔
      DeleteFits vlanRange c := by
  constructor
  · intro h
    by_cases hall : AllExist vlanRange c
    · exact Or.inl hall
    · right
      have hsame := vlanDelete_error_cases vlanRange c hall h.error
      rintro v hv hmain ⟨s, hs, rfl⟩
      exact ((h.sections s).mp (by rwa [hsame])).2 ⟨hv, hmain⟩
  · rintro (hall | hnone)
    · refine ⟨mem_vlanDelete_of_allExist vlanRange c hall, fun herror => ?_⟩
      rw [(allExist_iff vlanRange c).mp hall] at herror
      cases herror
    · have hstays : ∀ s ∈ c.sections, ¬ (s.vlan ∈ vlanRange.values ∧ c.lanDevice ≠ .vlan s.vlan) :=
        fun s hs hboth => hnone s.vlan hboth.1 hboth.2 ⟨s, hs, rfl⟩
      have hmem : ∀ s ∈ c.sections,
          s ∈ (vlanDelete c.lanDevice c.sections (some vlanRange) c).config.sections := by
        intro s hs
        refine (mem_deleteLoop_of_not_mem _ _ ?_ c).mpr hs
        by_contra hnot
        rw [not_or, not_not] at hnot
        exact hstays s hs hnot
      constructor
      · exact fun s => ⟨fun hs => ⟨mem_of_mem_deleteLoop _ _ hs,
          hstays s (mem_of_mem_deleteLoop _ _ hs)⟩, fun hs => hmem s hs.1⟩
      · rintro - v ⟨s, hs, hv⟩
        exact ⟨s, hmem s hs, hv⟩

/-- If nothing is changed, there must have been nothing to take out. -/
theorem removesPorts_same_iff (luaError : Bool) :
    RemovesPorts vlanRange portRange c ⟨c, luaError⟩ ↔
      ∀ v ∈ vlanRange.values, Clear portRange c v := by
  constructor
  · exact fun h v hv q hq => ((h.ports v hv q).mp hq).2
  · intro h
    exact ⟨fun v hv q => ⟨fun hq => ⟨hq, h v hv q hq⟩, And.left⟩,
      fun v _ hhas hnot => absurd hhas hnot, fun v _ => .refl c v, fun _ _ hhas => hhas⟩

/-- A new list for the first VLAN. -/
theorem removesPorts_setPorts_iff {l : List LanPort} (hv : c.HasVlan vlanRange.first)
    (hl : ∀ q, q ∈ l ↔ c.Has vlanRange.first q ∧ q.seen ∉ portRange.values) :
    RemovesPorts vlanRange portRange c ⟨c.setPorts vlanRange.first l, false⟩ ↔
      (∀ q, c.Has vlanRange.first q → (q.num ∈ portRange.values ↔ q.seen ∈ portRange.values)) ∧
        ∀ v ∈ vlanRange.values, v ≠ vlanRange.first → Clear portRange c v := by
  have hfirst : vlanRange.first ∈ vlanRange.values :=
    (vlanRange.mem_values _).mpr ⟨le_rfl, vlanRange.first_le⟩
  constructor
  · intro h
    refine ⟨fun q hq => ?_, fun v hmem hne q hq => ?_⟩
    · have hboth := (h.ports vlanRange.first hfirst q).symm.trans
        ((has_setPorts_self hv l q).trans (hl q))
      rw [and_iff_right hq, and_iff_right hq] at hboth
      exact not_iff_not.mp hboth
    · exact ((h.ports v hmem q).mp (((sameVlan_setPorts l hne).has_iff q).mpr hq)).2
  · rintro ⟨hread, hclear⟩
    refine ⟨fun v hmem q => ?_, fun v _ hhas hnot => ?_, fun v hnot => ?_, nofun⟩
    · by_cases hne : v = vlanRange.first
      · subst hne
        refine (has_setPorts_self hv l q).trans ((hl q).trans ?_)
        exact and_congr_right fun hq => not_congr (hread q hq).symm
      · refine ((sameVlan_setPorts l hne).has_iff q).trans ?_
        exact ⟨fun hq => ⟨hq, hclear v hmem hne q hq⟩, And.left⟩
    · exact absurd ((hasVlan_setPorts c _ v l).mpr hhas) hnot
    · refine sameVlan_setPorts l ?_
      rintro rfl
      exact hnot hfirst

/-- The whole range is deleted. -/
theorem removesPorts_vlanDelete_iff (hall : AllExist vlanRange c) :
    RemovesPorts vlanRange portRange c
        (vlanDelete c.lanDevice c.sections (some vlanRange) c) ↔
      ∀ v ∈ vlanRange.values,
        if c.lanDevice = .vlan v then Clear portRange c v else Covered portRange c v := by
  have hmem := mem_vlanDelete_of_allExist vlanRange c hall
  have hmain : ∀ v, c.lanDevice = .vlan v →
      SameVlan c (vlanDelete c.lanDevice c.sections (some vlanRange) c).config v := by
    intro v hv s hs
    rw [hmem]
    exact and_iff_left fun h => h.2 (hs ▸ hv)
  have hgone : ∀ v ∈ vlanRange.values, c.lanDevice ≠ .vlan v →
      ¬ (vlanDelete c.lanDevice c.sections (some vlanRange) c).config.HasVlan v := by
    rintro v hv hne ⟨s, hs, rfl⟩
    exact ((hmem s).mp hs).2 ⟨hv, hne⟩
  constructor
  · intro h v hv
    split
    · rename_i hlan
      exact fun q hq => ((h.ports v hv q).mp (((hmain v hlan).has_iff q).mpr hq)).2
    · rename_i hlan
      exact (h.deleted v hv (hall v hv hlan) (hgone v hv hlan)).1
  · intro h
    refine ⟨fun v hv q => ?_, fun v hv hhas hnot => ?_, fun v hv => ?_, fun herror => ?_⟩
    · have hv' := h v hv
      split at hv'
      · rename_i hlan
        rw [(hmain v hlan).has_iff]
        exact ⟨fun hq => ⟨hq, hv' q hq⟩, And.left⟩
      · rename_i hlan
        exact iff_of_false (fun hq => hgone v hv hlan hq.hasVlan) fun hq => hq.2 (hv' q hq.1)
    · have hlan : c.lanDevice ≠ .vlan v := by
        intro hlan
        obtain ⟨s, hs, hsv⟩ := hhas
        exact hnot ⟨s, (hmain v hlan s hsv).mpr hs, hsv⟩
      have hv' := h v hv
      rw [if_neg hlan] at hv'
      exact ⟨hv', hlan⟩
    · exact sameVlan_vlanDelete vlanRange c hv
    · rw [(allExist_iff vlanRange c).mp hall] at herror
      cases herror

theorem Range.exists_values_eq (r : Range) : ∃ post, r.values = r.first :: post := by
  have hle := r.first_le
  obtain ⟨n, hn⟩ : ∃ n, r.last + 1 - r.first = n + 1 := ⟨r.last - r.first, by omega⟩
  exact ⟨_, by rw [Range.values, hn, List.range'_succ]⟩

theorem Range.exists_values_eq_of_lt (r : Range) (h : r.first < r.last) :
    ∃ post, r.values = r.first :: (r.first + 1) :: post := by
  obtain ⟨n, hn⟩ : ∃ n, r.last + 1 - r.first = n + 2 := ⟨r.last - r.first - 1, by omega⟩
  exact ⟨_, by rw [Range.values, hn, List.range'_succ, List.range'_succ]⟩

/-- The deletion stops at a VLAN that does not exist. -/
theorem removesPorts_stopped_iff (hall : ¬ AllExist vlanRange c)
    (hfirst : c.HasVlan vlanRange.first) :
    RemovesPorts vlanRange portRange c
        (vlanDelete c.lanDevice c.sections (some vlanRange) c) ↔
      c.lanDevice = .vlan vlanRange.first ∧ ¬ c.HasVlan (vlanRange.first + 1) ∧
        ∀ v ∈ vlanRange.values, Clear portRange c v := by
  have hexist : ∀ v, c.HasVlan v → bridgeVlan c.sections v ≠ none := fun v hv hnone =>
    (not_hasVlan_iff c v).mpr hnone hv
  -- the missing VLAN comes after the first one
  have hlt : vlanRange.first < vlanRange.last := by
    by_contra hnot
    refine hall fun v hv _ => ?_
    have hle := (vlanRange.mem_values v).mp hv
    rwa [show v = vlanRange.first by omega]
  constructor
  · intro h
    have hsame := vlanDelete_error_cases vlanRange c hall h.error
    have hstay : ∀ v, c.HasVlan v →
        (vlanDelete c.lanDevice c.sections (some vlanRange) c).config.HasVlan v := by
      rw [hsame]
      exact fun _ hv => hv
    have hmain : c.lanDevice = .vlan vlanRange.first := by
      by_contra hne
      obtain ⟨post, hpost⟩ := vlanRange.exists_values_eq
      have hgone := not_hasVlan_deleteLoop c.lanDevice c.sections [] post hne (hexist _ hfirst)
        nofun c
      rw [List.nil_append, ← hpost] at hgone
      exact hgone (hstay _ hfirst)
    refine ⟨hmain, fun hnext => ?_, fun v hv q hq => ?_⟩
    · obtain ⟨post, hpost⟩ := vlanRange.exists_values_eq_of_lt hlt
      have hgone := not_hasVlan_deleteLoop c.lanDevice c.sections [vlanRange.first] post
        (v := vlanRange.first + 1) (by simp [hmain]) (hexist _ hnext)
        (fun key hkey hne => absurd (List.mem_singleton.mp hkey ▸ hmain) hne) c
      rw [List.singleton_append, ← hpost] at hgone
      exact hgone (hstay _ hnext)
    · have hports := h.ports v hv q
      rw [hsame] at hports
      exact (hports.mp hq).2
  · rintro ⟨hmain, hnext, hclear⟩
    obtain ⟨post, hpost⟩ := vlanRange.exists_values_eq_of_lt hlt
    have hstop : vlanDelete c.lanDevice c.sections (some vlanRange) c = ⟨c, true⟩ := by
      rw [vlanDelete, hpost, deleteLoop, if_pos hmain, deleteLoop, if_neg (by simp [hmain]),
        (not_hasVlan_iff c _).mp hnext]
    rw [hstop]
    exact (removesPorts_same_iff vlanRange portRange c true).mpr hclear

/-- What `vlan_add_notMemberPorts` does, by what it finds of the first VLAN. -/
theorem removesPorts_iff :
    RemovesPorts vlanRange portRange c (vlanAddNotMemberPorts c.lanDevice c.sections
        (some vlanRange) (some portRange) c) ↔ RemoveFits vlanRange portRange c := by
  by_cases hfirst : c.HasVlan vlanRange.first
  · obtain ⟨s, hs⟩ := (hasVlan_iff c _).mp hfirst
    have hkept : ∀ q, q ∈ s.ports.filter (outsideRange portRange) ↔
        c.Has vlanRange.first q ∧ q.seen ∉ portRange.values := by
      intro q
      rw [mem_filter_outsideRange, has_iff_of_bridgeVlan hs]
    by_cases hkeeps : FirstKeeps vlanRange portRange c
    · have hne : s.ports.filter (outsideRange portRange) ≠ [] := by
        obtain ⟨q, hq⟩ := hkeeps
        exact List.ne_nil_of_mem ((hkept q).mpr hq)
      have hout : vlanAddNotMemberPorts c.lanDevice c.sections (some vlanRange) (some portRange) c =
          ⟨c.setPorts vlanRange.first (s.ports.filter (outsideRange portRange)), false⟩ := by
        rw [vlanAddNotMemberPorts, hs]
        exact if_pos hne
      rw [hout, removesPorts_setPorts_iff vlanRange portRange c hfirst hkept]
      exact ⟨fun h => ⟨fun hnot => absurd hfirst hnot, fun _ => h,
        fun _ hnot => absurd hkeeps hnot, fun _ hnot => absurd hkeeps hnot⟩,
        fun h => h.keeps hkeeps⟩
    · have hnil : s.ports.filter (outsideRange portRange) = [] := by
        rw [List.eq_nil_iff_forall_not_mem]
        exact fun q hq => hkeeps ⟨q, (hkept q).mp hq⟩
      have hout : vlanAddNotMemberPorts c.lanDevice c.sections (some vlanRange) (some portRange) c =
          vlanDelete c.lanDevice c.sections (some vlanRange) c := by
        rw [vlanAddNotMemberPorts, hs]
        exact if_neg (not_not.mpr hnil)
      rw [hout]
      by_cases hall : AllExist vlanRange c
      · rw [removesPorts_vlanDelete_iff vlanRange portRange c hall]
        exact ⟨fun h => ⟨fun hnot => absurd hfirst hnot, fun hk => absurd hk hkeeps,
          fun _ _ _ => h, fun _ _ hnot => absurd hall hnot⟩,
          fun h => h.deletes hfirst hkeeps hall⟩
      · rw [removesPorts_stopped_iff vlanRange portRange c hall hfirst]
        exact ⟨fun h => ⟨fun hnot => absurd hfirst hnot, fun hk => absurd hk hkeeps,
          fun _ _ hall' => absurd hall' hall, fun _ _ _ => h⟩, fun h => h.stops hfirst hkeeps hall⟩
  · have hout : vlanAddNotMemberPorts c.lanDevice c.sections (some vlanRange) (some portRange) c =
        ⟨c, false⟩ := by
      rw [vlanAddNotMemberPorts, (not_hasVlan_iff c _).mp hfirst]
    rw [hout, removesPorts_same_iff]
    exact ⟨fun h => ⟨fun _ => h, fun ⟨q, hq, _⟩ => absurd hq.hasVlan hfirst,
      fun hv => absurd hv hfirst, fun hv => absurd hv hfirst⟩, fun h => h.absent hfirst⟩

end Range

/-- **Taking ports out and deleting touch what was named exactly under
`RemoveFits` and `DeleteFits`.** -/
theorem remove_and_delete_iff (vlanRange portRange : Range) (c : Config) :
    (RemovesPorts vlanRange portRange c.withPorts (vlanAddNotMemberPorts c.withPorts.lanDevice
        c.withPorts.sections (some vlanRange) (some portRange) c.withPorts) ↔
      RemoveFits vlanRange portRange c.withPorts) ∧
    (DeletesRange vlanRange c.withPorts (vlanDelete c.withPorts.lanDevice c.withPorts.sections
        (some vlanRange) c.withPorts) ↔
      DeleteFits vlanRange c.withPorts) :=
  ⟨removesPorts_iff vlanRange portRange c.withPorts, deletesRange_iff vlanRange c.withPorts⟩

/-- VLANs 1, 2 and 4, the first of which is the management VLAN. -/
def threeVlans : Config where
  sections := [⟨1, [⟨1, false⟩], none, none⟩, ⟨2, [⟨2, false⟩], none, none⟩,
    ⟨4, [⟨3, false⟩, ⟨2, true⟩], none, none⟩]
  lanDevice := .vlan 1
  vlan_nodup := by decide

/-- Deleting VLANs 2 to 4 stops at VLAN 3 with VLAN 2 gone, and taking port 2 out
of VLANs 2 to 4 does the same. -/
theorem missing_vlan_stops_half_way :
    ¬ DeletesRange ⟨2, 4, .span, by decide⟩ threeVlans.withPorts
      (vlanDelete threeVlans.withPorts.lanDevice threeVlans.withPorts.sections
        (some ⟨2, 4, .span, by decide⟩) threeVlans.withPorts) ∧
    ¬ RemovesPorts ⟨2, 4, .span, by decide⟩ ⟨2, 2, .one, le_refl 2⟩ threeVlans.withPorts
      (vlanAddNotMemberPorts threeVlans.withPorts.lanDevice threeVlans.withPorts.sections
        (some ⟨2, 4, .span, by decide⟩) (some ⟨2, 2, .one, le_refl 2⟩) threeVlans.withPorts) :=
  ⟨fun h => absurd (h.error (by decide) 2 (by decide)) (by decide),
    fun h => absurd (h.error (by decide) 2 (by decide)) (by decide)⟩

end TfPackages.Vlan
