import TfPackages.VlanMembership

/-! # What the port commands do to the membership

The commands are described by what they do to the relation `Has`: which entries
the port list of a VLAN holds.  `lan3` and `lan3:t` are different entries of one
port, so the membership of a port in a VLAN is the set of its entries.

Adding tagged and adding untagged ports each have a specification in these terms
and a condition on the configuration and the ranges, and the two are shown to be
the same.  What goes wrong comes from four places: a tagged port is read as the
last digit of its number, `vlan_add_tagged` looks up VLANs that have no section
and keeps what it has listed for the VLANs before, and `vlan_add_untagged` leaves
out a port that is busy elsewhere.

The sections are those with ports, as `getUciBridgeVlanList` leaves them.
-/
namespace TfPackages.Vlan

/-- The VLAN has a section. -/
def Config.HasVlan (c : Config) (v : Nat) : Prop := ∃ s ∈ c.sections, s.vlan = v

/-- The entry is in the port list of the VLAN. -/
def Config.Has (c : Config) (v : Nat) (q : LanPort) : Prop :=
  ∃ s ∈ c.sections, s.vlan = v ∧ q ∈ s.ports

instance (c : Config) (v : Nat) : Decidable (c.HasVlan v) :=
  inferInstanceAs (Decidable (∃ s ∈ c.sections, s.vlan = v))

instance (c : Config) (v : Nat) (q : LanPort) : Decidable (c.Has v q) :=
  inferInstanceAs (Decidable (∃ s ∈ c.sections, s.vlan = v ∧ q ∈ s.ports))

/-- The sections of a VLAN are the same in two configurations. -/
def SameVlan (c c' : Config) (v : Nat) : Prop :=
  ∀ s : Section, s.vlan = v → (s ∈ c'.sections ↔ s ∈ c.sections)

/-! ## Looking up a VLAN -/

theorem hasVlan_iff (c : Config) (v : Nat) :
    c.HasVlan v ↔ ∃ s, bridgeVlan c.sections v = some s := by
  constructor
  · rintro ⟨s, hs, hv⟩
    cases h : bridgeVlan c.sections v with
    | some t => exact ⟨t, rfl⟩
    | none =>
      rw [bridgeVlan, List.find?_eq_none] at h
      exact absurd hv (by simpa using h s hs)
  · rintro ⟨s, hs⟩
    exact ⟨s, bridgeVlan_eq_some hs⟩

theorem not_hasVlan_iff (c : Config) (v : Nat) :
    ¬ c.HasVlan v ↔ bridgeVlan c.sections v = none := by
  rw [hasVlan_iff, Option.eq_none_iff_forall_ne_some, not_exists]

/-- The entries of a VLAN are those of its one section. -/
theorem has_iff_of_bridgeVlan {c : Config} {v : Nat} {s : Section}
    (h : bridgeVlan c.sections v = some s) (q : LanPort) : c.Has v q ↔ q ∈ s.ports := by
  obtain ⟨hs, hv⟩ := bridgeVlan_eq_some h
  constructor
  · rintro ⟨t, ht, htv, hq⟩
    obtain rfl := c.eq_of_vlan_eq hs ht (hv.trans htv.symm)
    exact hq
  · exact fun hq => ⟨s, hs, hv, hq⟩

theorem Config.Has.hasVlan {c : Config} {v : Nat} {q : LanPort} (h : c.Has v q) : c.HasVlan v := by
  obtain ⟨s, hs, hv, -⟩ := h
  exact ⟨s, hs, hv⟩

theorem SameVlan.has_iff {c c' : Config} {v : Nat} (h : SameVlan c c' v) (q : LanPort) :
    c'.Has v q ↔ c.Has v q :=
  exists_congr fun s => by
    constructor
    · rintro ⟨hs, hv, hq⟩
      exact ⟨(h s hv).mp hs, hv, hq⟩
    · rintro ⟨hs, hv, hq⟩
      exact ⟨(h s hv).mpr hs, hv, hq⟩

theorem SameVlan.refl (c : Config) (v : Nat) : SameVlan c c v := fun _ _ => Iff.rfl

theorem SameVlan.trans {c₁ c₂ c₃ : Config} {v : Nat} (h : SameVlan c₁ c₂ v)
    (h' : SameVlan c₂ c₃ v) : SameVlan c₁ c₃ v :=
  fun s hv => (h' s hv).trans (h s hv)

/-! ## Setting a port list -/

theorem hasVlan_setPorts (c : Config) (v w : Nat) (l : List LanPort) :
    (c.setPorts v l).HasVlan w ↔ c.HasVlan w := by
  constructor
  · rintro ⟨t, ht, rfl⟩
    obtain ⟨s, hs, rfl⟩ := mem_setPorts.mp ht
    refine ⟨s, hs, ?_⟩
    split <;> rfl
  · rintro ⟨s, hs, rfl⟩
    by_cases h : s.vlan = v
    · exact ⟨_, mem_setPorts_self l hs h, rfl⟩
    · exact ⟨s, mem_setPorts_of_ne hs h, rfl⟩

theorem has_setPorts_self {c : Config} {v : Nat} (hv : c.HasVlan v) (l : List LanPort)
    (q : LanPort) : (c.setPorts v l).Has v q ↔ q ∈ l := by
  constructor
  · rintro ⟨t, ht, htv, hq⟩
    obtain ⟨s, -, rfl⟩ := mem_setPorts.mp ht
    split at hq
    · exact hq
    · rename_i hne
      rw [if_neg hne] at htv
      exact absurd htv hne
  · obtain ⟨s, hs, hsv⟩ := hv
    exact fun hq => ⟨_, mem_setPorts_self l hs hsv, hsv, hq⟩

theorem sameVlan_setPorts {c : Config} {v w : Nat} (l : List LanPort) (h : w ≠ v) :
    SameVlan c (c.setPorts v l) w := by
  intro s hs
  constructor
  · intro ht
    obtain ⟨u, hu, heq⟩ := mem_setPorts.mp ht
    split at heq
    · rename_i huv
      rw [← heq] at hs
      exact absurd (hs.symm.trans huv) h
    · exact heq ▸ hu
  · exact fun ht => mem_setPorts_of_ne ht (hs ▸ h)

/-! ## Adding tagged ports -/

/-- **What adding tagged ports is for.**  The VLANs of the range exist; in each of
them the ports of the range are tagged, or under `add` untagged where they were;
all else is as before. -/
structure AddsTagged (isAdd : Bool) (vlanRange portRange : Range) (c : Config) (out : Outcome) :
    Prop where
  noError : out.luaError = false
  created : ∀ v ∈ vlanRange.values, out.config.HasVlan v
  inside : ∀ v ∈ vlanRange.values, ∀ p ∈ portRange.values, ∀ tagged,
    out.config.Has v ⟨p, tagged⟩ ↔ (tagged = true ↔ ¬ (isAdd = true ∧ c.Has v ⟨p, false⟩))
  outside : ∀ v ∈ vlanRange.values, ∀ p ∉ portRange.values, ∀ tagged,
    out.config.Has v ⟨p, tagged⟩ ↔ c.Has v ⟨p, tagged⟩
  others : ∀ v ∉ vlanRange.values, SameVlan c out.config v

/-- The condition: the VLANs exist, their tagged ports are read on the right side
of the range, and what is listed for a VLAN is right for those after it. -/
structure TaggedFits (isAdd : Bool) (vlanRange portRange : Range) (c : Config) : Prop where
  exist : ∀ v ∈ vlanRange.values, c.HasVlan v
  kept : ∀ v ∈ vlanRange.values, ∀ p ∉ portRange.values, c.Has v ⟨p, true⟩ →
    p % 10 ∉ portRange.values
  once : isAdd = true → ∀ v ∈ vlanRange.values, ∀ p ∈ portRange.values, c.Has v ⟨p, true⟩ →
    c.Has v ⟨p, false⟩ → p % 10 ∈ portRange.values
  sameUntagged : isAdd = true → ∀ v ∈ vlanRange.values, ∀ w ∈ vlanRange.values, v < w →
    ∀ p ∈ portRange.values, c.Has v ⟨p, false⟩ ↔ c.Has w ⟨p, false⟩
  inLater : ∀ v ∈ vlanRange.values, ∀ w ∈ vlanRange.values, v < w →
    ∀ q : LanPort, q.num ∉ portRange.values → c.Has v q → c.Has w q

/-- A name that is read as an untagged port says what it is read as. -/
theorem getPort_eq_untagged_iff (q : LanPort) (p : Nat) :
    getPort q.text = ⟨some p, .untagged⟩ ↔ q = ⟨p, false⟩ := by
  rw [getPort_text]
  obtain ⟨n, _ | _⟩ := q
  · simp [LanPort.seen, LanPort.state]
  · simp [LanPort.seen, LanPort.state]

theorem tagged_taggedName_iff (isAdd : Bool) (ports : List LanPort) (p : Nat) :
    (taggedName isAdd ports p).tagged = true ↔ ¬ (isAdd = true ∧ ⟨p, false⟩ ∈ ports) := by
  simp only [taggedName, getPort_eq_untagged_iff, Bool.not_eq_true', Bool.and_eq_false_iff,
    List.any_eq_false, decide_eq_true_eq]
  cases isAdd with
  | false => simp
  | true =>
    simp only [Bool.true_eq_false, false_or, true_and]
    exact ⟨fun h hp => h _ hp rfl, fun h x hx heq => h (heq ▸ hx)⟩

theorem mem_map_taggedName (isAdd : Bool) (portRange : Range) (ports : List LanPort)
    (p : Nat) (tagged : Bool) :
    ⟨p, tagged⟩ ∈ portRange.values.map (taggedName isAdd ports) ↔
      p ∈ portRange.values ∧ (tagged = true ↔ ¬ (isAdd = true ∧ ⟨p, false⟩ ∈ ports)) := by
  rw [List.mem_map, ← tagged_taggedName_iff]
  constructor
  · rintro ⟨n, hn, heq⟩
    obtain rfl : n = p := congrArg LanPort.num heq
    refine ⟨hn, ?_⟩
    rw [heq]
  · rintro ⟨hp, htagged⟩
    refine ⟨p, hp, ?_⟩
    rw [← Bool.eq_iff_iff] at htagged
    rw [htagged]
    rfl

theorem mem_filter_outsideRange {portRange : Range} {ports : List LanPort} {q : LanPort} :
    q ∈ ports.filter (outsideRange portRange) ↔ q ∈ ports ∧ q.seen ∉ portRange.values := by
  rw [List.mem_filter, outsideRange_eq, portRange.outside_iff]

theorem mem_taggedList_inside {isAdd : Bool} {portRange : Range} {s : Section} {p : Nat}
    (hp : p ∈ portRange.values) (tagged : Bool) :
    ⟨p, tagged⟩ ∈ taggedList isAdd portRange s ↔
      (tagged = true ↔ ¬ (isAdd = true ∧ ⟨p, false⟩ ∈ s.ports)) ∨
        tagged = true ∧ ⟨p, true⟩ ∈ s.ports ∧ p % 10 ∉ portRange.values := by
  rw [taggedList, List.mem_append, mem_map_taggedName, mem_filter_outsideRange, and_iff_right hp]
  cases tagged <;> simp [LanPort.seen, hp]

theorem mem_taggedList_outside {isAdd : Bool} {portRange : Range} {s : Section} {p : Nat}
    (hp : p ∉ portRange.values) (tagged : Bool) :
    ⟨p, tagged⟩ ∈ taggedList isAdd portRange s ↔
      ⟨p, tagged⟩ ∈ s.ports ∧ (tagged = true → p % 10 ∉ portRange.values) := by
  rw [taggedList, List.mem_append, mem_map_taggedName, mem_filter_outsideRange,
    or_iff_right fun h => hp h.1]
  cases tagged <;> simp [LanPort.seen, hp]

section Loop
variable (isAdd : Bool) (list : List Section) (portRange : Range)

/-- The loop ends without an error exactly if the VLANs have sections. -/
theorem addTaggedLoop_noError_iff (keys : List Nat) (lanList : List LanPort) (c : Config) :
    (addTaggedLoop isAdd list portRange keys lanList c).luaError = false ↔
      ∀ key ∈ keys, bridgeVlan list key ≠ none := by
  induction keys generalizing lanList c with
  | nil => simp [addTaggedLoop]
  | cons key keys ih =>
    rw [addTaggedLoop, List.forall_mem_cons]
    cases h : bridgeVlan list key with
    | none => simp
    | some s => simp [ih]

/-- The loop leaves the other VLANs alone. -/
theorem sameVlan_addTaggedLoop {keys : List Nat} {v : Nat} (hv : v ∉ keys)
    (hkeys : ∀ key ∈ keys, bridgeVlan list key ≠ none) (lanList : List LanPort) (c : Config) :
    SameVlan c (addTaggedLoop isAdd list portRange keys lanList c).config v := by
  induction keys generalizing lanList c with
  | nil => exact .refl c v
  | cons key keys ih =>
    rw [List.forall_mem_cons] at hkeys
    rw [List.mem_cons, not_or] at hv
    rw [addTaggedLoop]
    cases h : bridgeVlan list key with
    | none => exact absurd h hkeys.1
    | some s => exact (sameVlan_setPorts _ hv.1).trans (ih hv.2 hkeys.2 _ _)

theorem hasVlan_addTaggedLoop {keys : List Nat} (hkeys : ∀ key ∈ keys, bridgeVlan list key ≠ none)
    (lanList : List LanPort) (c : Config) (v : Nat) :
    (addTaggedLoop isAdd list portRange keys lanList c).config.HasVlan v ↔ c.HasVlan v := by
  induction keys generalizing lanList c with
  | nil => exact Iff.rfl
  | cons key keys ih =>
    rw [List.forall_mem_cons] at hkeys
    rw [addTaggedLoop]
    cases h : bridgeVlan list key with
    | none => exact absurd h hkeys.1
    | some s => exact (ih hkeys.2 _ _).trans (hasVlan_setPorts c key v _)

/-- A VLAN of the loop gets what is listed for it and for the VLANs before it. -/
theorem has_addTaggedLoop {keys : List Nat} (hsorted : keys.Pairwise (· < ·))
    (hkeys : ∀ key ∈ keys, bridgeVlan list key ≠ none) {c : Config}
    (hc : ∀ key ∈ keys, c.HasVlan key) {v : Nat} (hv : v ∈ keys) (lanList : List LanPort)
    (q : LanPort) :
    (addTaggedLoop isAdd list portRange keys lanList c).config.Has v q ↔
      q ∈ lanList ∨ ∃ u ∈ keys, u ≤ v ∧
        ∃ s ∈ bridgeVlan list u, q ∈ taggedList isAdd portRange s := by
  induction keys generalizing lanList c with
  | nil => cases hv
  | cons key keys ih =>
    rw [List.pairwise_cons] at hsorted
    rw [List.forall_mem_cons] at hkeys hc
    rw [addTaggedLoop]
    cases h : bridgeVlan list key with
    | none => exact absurd h hkeys.1
    | some s =>
      have hlist : ∀ q, q ∈ lanList ++ portRange.values.map (taggedName isAdd s.ports) ++
          s.ports.filter (outsideRange portRange) ↔
          q ∈ lanList ∨ q ∈ taggedList isAdd portRange s := by
        intro q
        rw [List.append_assoc, List.mem_append]
        rfl
      simp only [List.exists_mem_cons_iff]
      by_cases hvk : v = key
      · subst hvk
        have hnot : v ∉ keys := fun hmem => absurd (hsorted.1 v hmem) (lt_irrefl v)
        rw [(sameVlan_addTaggedLoop isAdd list portRange hnot hkeys.2 _ _).has_iff,
          has_setPorts_self hc.1, hlist]
        have hlater : ¬ ∃ u ∈ keys, u ≤ v ∧
            ∃ s ∈ bridgeVlan list u, q ∈ taggedList isAdd portRange s := by
          rintro ⟨u, hu, hle, -⟩
          exact absurd (hsorted.1 u hu) (not_lt.mpr hle)
        rw [or_iff_left hlater]
        simp [h]
      · have hmem : v ∈ keys := (List.mem_cons.mp hv).resolve_left hvk
        have hle : key ≤ v := (hsorted.1 v hmem).le
        rw [ih hsorted.2 hkeys.2 (fun k hk => (hasVlan_setPorts _ _ _ _).mpr (hc.2 k hk)) hmem,
          hlist]
        simp [hle, h, or_assoc]

end Loop

/-- An entry is put on the list for a VLAN. -/
def Listed (isAdd : Bool) (portRange : Range) (c : Config) (v : Nat) (q : LanPort) : Prop :=
  ∃ s ∈ bridgeVlan c.sections v, q ∈ taggedList isAdd portRange s

section Listed
variable {isAdd : Bool} {portRange : Range} {c : Config} {v p : Nat}

theorem listed_inside_iff (hv : c.HasVlan v) (hp : p ∈ portRange.values) (tagged : Bool) :
    Listed isAdd portRange c v ⟨p, tagged⟩ ↔
      (tagged = true ↔ ¬ (isAdd = true ∧ c.Has v ⟨p, false⟩)) ∨
        tagged = true ∧ c.Has v ⟨p, true⟩ ∧ p % 10 ∉ portRange.values := by
  obtain ⟨s, hs⟩ := (hasVlan_iff c v).mp hv
  simp only [Listed, hs, Option.mem_def, Option.some.injEq, exists_eq_left',
    mem_taggedList_inside hp, has_iff_of_bridgeVlan hs]

theorem listed_outside_iff (hv : c.HasVlan v) (hp : p ∉ portRange.values) (tagged : Bool) :
    Listed isAdd portRange c v ⟨p, tagged⟩ ↔
      c.Has v ⟨p, tagged⟩ ∧ (tagged = true → p % 10 ∉ portRange.values) := by
  obtain ⟨s, hs⟩ := (hasVlan_iff c v).mp hv
  simp only [Listed, hs, Option.mem_def, Option.some.injEq, exists_eq_left',
    mem_taggedList_outside hp, has_iff_of_bridgeVlan hs]

end Listed

theorem Range.pairwise_values (r : Range) : r.values.Pairwise (· < ·) := List.pairwise_lt_range'

section Tagged
variable (isAdd : Bool) (vlanRange portRange : Range) (c : Config)

/-- The command on VLANs that all exist. -/
theorem has_vlanAddTagged (hexist : ∀ v ∈ vlanRange.values, c.HasVlan v) {v : Nat}
    (hv : v ∈ vlanRange.values) (q : LanPort) :
    (vlanAddTagged isAdd c.sections (some vlanRange) (some portRange) c).config.Has v q ↔
      ∃ u ∈ vlanRange.values, u ≤ v ∧ Listed isAdd portRange c u q := by
  have hkeys : ∀ key ∈ vlanRange.values, bridgeVlan c.sections key ≠ none := fun key hkey =>
    fun hnone => (not_hasVlan_iff c key).mpr hnone (hexist key hkey)
  rw [vlanAddTagged, has_addTaggedLoop isAdd c.sections portRange vlanRange.pairwise_values hkeys
    hexist hv]
  simp [Listed]

theorem taggedFits_of_addsTagged (h : AddsTagged isAdd vlanRange portRange c
    (vlanAddTagged isAdd c.sections (some vlanRange) (some portRange) c)) :
    TaggedFits isAdd vlanRange portRange c := by
  have hexist : ∀ v ∈ vlanRange.values, c.HasVlan v := by
    intro v hv
    have hne := (addTaggedLoop_noError_iff isAdd c.sections portRange vlanRange.values [] c).mp
      h.noError v hv
    by_contra hnot
    exact hne ((not_hasVlan_iff c v).mp hnot)
  -- what is listed for a VLAN ends up in it and in the VLANs after it
  have hlisted : ∀ v ∈ vlanRange.values, ∀ w ∈ vlanRange.values, v ≤ w → ∀ q,
      Listed isAdd portRange c v q →
      (vlanAddTagged isAdd c.sections (some vlanRange) (some portRange) c).config.Has w q :=
    fun v hv w hw hle q hq =>
      (has_vlanAddTagged isAdd vlanRange portRange c hexist hw q).mpr ⟨v, hv, hle, hq⟩
  have hkept : ∀ v ∈ vlanRange.values, ∀ p ∉ portRange.values, c.Has v ⟨p, true⟩ →
      p % 10 ∉ portRange.values := by
    intro v hv p hp hhas
    obtain ⟨u, hu, -, hq⟩ := (has_vlanAddTagged isAdd vlanRange portRange c hexist hv _).mp
      ((h.outside v hv p hp true).mpr hhas)
    exact ((listed_outside_iff (hexist u hu) hp true).mp hq).2 rfl
  refine ⟨hexist, hkept, ?_, ?_, ?_⟩
  · intro hadd v hv p hp htagged huntagged
    by_contra hmod
    have hq := hlisted v hv v hv le_rfl ⟨p, true⟩
      ((listed_inside_iff (hexist v hv) hp true).mpr (Or.inr ⟨rfl, htagged, hmod⟩))
    exact ((h.inside v hv p hp true).mp hq).mp rfl ⟨hadd, huntagged⟩
  · intro hadd v hv w hw hlt p hp
    by_cases hhas : c.Has v ⟨p, false⟩
    · have hq := hlisted v hv w hw hlt.le ⟨p, false⟩
        ((listed_inside_iff (hexist v hv) hp false).mpr (Or.inl (by simp [hadd, hhas])))
      have hinside := (h.inside w hw p hp false).mp hq
      simp only [hadd, true_and, Bool.false_eq_true, false_iff, not_not] at hinside
      exact iff_of_true hhas hinside
    · have hq := hlisted v hv w hw hlt.le ⟨p, true⟩
        ((listed_inside_iff (hexist v hv) hp true).mpr (Or.inl (by simp [hhas])))
      have hinside := (h.inside w hw p hp true).mp hq
      exact iff_of_false hhas fun hw' => hinside.mp rfl ⟨hadd, hw'⟩
  · rintro v hv w hw hlt ⟨p, tagged⟩ hp hhas
    have hq := hlisted v hv w hw hlt.le ⟨p, tagged⟩
      ((listed_outside_iff (hexist v hv) hp tagged).mpr ⟨hhas, fun htagged =>
        hkept v hv p hp (htagged ▸ hhas)⟩)
    exact (h.outside w hw p hp tagged).mp hq

theorem addsTagged_of_taggedFits (h : TaggedFits isAdd vlanRange portRange c) :
    AddsTagged isAdd vlanRange portRange c
      (vlanAddTagged isAdd c.sections (some vlanRange) (some portRange) c) := by
  have hkeys : ∀ key ∈ vlanRange.values, bridgeVlan c.sections key ≠ none := fun key hkey =>
    fun hnone => (not_hasVlan_iff c key).mpr hnone (h.exist key hkey)
  have hsame : ∀ u ∈ vlanRange.values, ∀ v ∈ vlanRange.values, u ≤ v → ∀ p ∈ portRange.values,
      isAdd = true → (c.Has u ⟨p, false⟩ ↔ c.Has v ⟨p, false⟩) := by
    intro u hu v hv hle p hp hadd
    rcases hle.lt_or_eq with hlt | rfl
    · exact h.sameUntagged hadd u hu v hv hlt p hp
    · exact Iff.rfl
  refine ⟨(addTaggedLoop_noError_iff _ _ _ _ _ _).mpr hkeys, ?_, ?_, ?_, ?_⟩
  · exact fun v hv => (hasVlan_addTaggedLoop _ _ _ hkeys _ _ _).mpr (h.exist v hv)
  · intro v hv p hp tagged
    rw [has_vlanAddTagged isAdd vlanRange portRange c h.exist hv]
    constructor
    · rintro ⟨u, hu, hle, hq⟩
      have hcongr := hsame u hu v hv hle p hp
      rcases (listed_inside_iff (h.exist u hu) hp tagged).mp hq with hq | ⟨rfl, hhas, hmod⟩
      · rw [hq]
        exact not_congr (and_congr_right hcongr)
      · refine iff_of_true rfl fun hboth => hmod ?_
        exact h.once hboth.1 u hu p hp hhas ((hcongr hboth.1).mpr hboth.2)
    · intro hq
      exact ⟨v, hv, le_rfl, (listed_inside_iff (h.exist v hv) hp tagged).mpr (Or.inl hq)⟩
  · intro v hv p hp tagged
    rw [has_vlanAddTagged isAdd vlanRange portRange c h.exist hv]
    constructor
    · rintro ⟨u, hu, hle, hq⟩
      have hhas := ((listed_outside_iff (h.exist u hu) hp tagged).mp hq).1
      rcases hle.lt_or_eq with hlt | rfl
      · exact h.inLater u hu v hv hlt ⟨p, tagged⟩ hp hhas
      · exact hhas
    · intro hhas
      exact ⟨v, hv, le_rfl, (listed_outside_iff (h.exist v hv) hp tagged).mpr
        ⟨hhas, fun htagged => h.kept v hv p hp (htagged ▸ hhas)⟩⟩
  · exact fun v hv => sameVlan_addTaggedLoop _ _ _ hv hkeys _ _

end Tagged

/-- **Adding tagged ports does what it is for exactly under `TaggedFits`.** -/
theorem adds_tagged_iff (isAdd : Bool) (vlanRange portRange : Range) (c : Config) :
    AddsTagged isAdd vlanRange portRange c.withPorts
        (vlanAddTagged isAdd c.withPorts.sections (some vlanRange) (some portRange) c.withPorts) ↔
      TaggedFits isAdd vlanRange portRange c.withPorts :=
  ⟨taggedFits_of_addsTagged isAdd vlanRange portRange c.withPorts,
    addsTagged_of_taggedFits isAdd vlanRange portRange c.withPorts⟩

/-- A configuration with VLAN 1 on port 1. -/
def oneVlan : Config where
  sections := [⟨1, [⟨1, false⟩], none, none⟩]
  lanDevice := .vlan 1
  vlan_nodup := by decide

/-- A VLAN that has no section yet: the command ends in an error. -/
theorem new_vlan_not_tagged :
    ¬ AddsTagged true ⟨2, 2, .one, le_rfl⟩ ⟨3, 3, .one, le_rfl⟩ oneVlan.withPorts
      (vlanAddTagged true oneVlan.withPorts.sections (some ⟨2, 2, .one, le_rfl⟩)
        (some ⟨3, 3, .one, le_rfl⟩) oneVlan.withPorts) := by
  intro h
  exact absurd h.noError (by decide)

/-! ## Adding untagged ports -/

/-- The port is untagged in another VLAN. -/
def BusyElsewhere (c : Config) (v p : Nat) : Prop := ∃ w, w ≠ v ∧ c.Has w ⟨p, false⟩

/-- **What adding untagged ports is for.**  The ports of the range that are not
untagged elsewhere are untagged, or under `add` tagged where they were; all else
is as before, and every section has ports. -/
structure AddsUntagged (isAdd : Bool) (v : Nat) (portRange : Range) (c : Config) (c' : Config) :
    Prop where
  busy : ∀ p ∈ portRange.values, BusyElsewhere c v p → ∀ tagged,
    c'.Has v ⟨p, tagged⟩ ↔ c.Has v ⟨p, tagged⟩
  free : ∀ p ∈ portRange.values, ¬ BusyElsewhere c v p → ∀ tagged,
    c'.Has v ⟨p, tagged⟩ ↔ (tagged = true ↔ isAdd = true ∧ c.Has v ⟨p, true⟩)
  outside : ∀ p ∉ portRange.values, ∀ tagged, c'.Has v ⟨p, tagged⟩ ↔ c.Has v ⟨p, tagged⟩
  others : ∀ w, w ≠ v → SameVlan c c' w
  ports : ∀ s ∈ c'.sections, s.ports ≠ []

/-- A tagged port of the VLAN is read as this number. -/
def ReadTagged (c : Config) (v p : Nat) : Prop := ∃ n, c.Has v ⟨n, true⟩ ∧ n % 10 = p

/-- There is no port to add, and all ports of the VLAN are read as ports of the
range. -/
def NothingListed (v : Nat) (portRange : Range) (c : Config) : Prop :=
  (∀ p ∈ portRange.values, BusyElsewhere c v p) ∧
    ∀ q, c.Has v q → q.seen ∈ portRange.values

/-- The condition where there is something to list: the VLAN does not have a port
of the range that is busy elsewhere, and the tagged ports it has are read as what
they are. -/
structure Rereads (isAdd : Bool) (v : Nat) (portRange : Range) (c : Config) : Prop where
  busy : ∀ p ∈ portRange.values, BusyElsewhere c v p → ∀ tagged, ¬ c.Has v ⟨p, tagged⟩
  free : isAdd = true → ∀ p ∈ portRange.values, ¬ BusyElsewhere c v p →
    (ReadTagged c v p ↔ c.Has v ⟨p, true⟩)
  outside : ∀ p ∉ portRange.values, ReadTagged c v p ↔ c.Has v ⟨p, true⟩

/-- The condition for adding untagged ports. -/
def UntaggedFits (isAdd : Bool) (v : Nat) (portRange : Range) (c : Config) : Prop :=
  (NothingListed v portRange c → c.HasVlan v) ∧
    (¬ NothingListed v portRange c → Rereads isAdd v portRange c)

/-- What `vlan_add_untagged` writes. -/
def untaggedList (isAdd : Bool) (v : Nat) (portRange : Range) (c : Config) : List LanPort :=
  keptPorts v portRange (saveUntaggedPorts v c.sections) ++
    addedPorts isAdd v portRange (saveUntaggedPorts v c.sections)

theorem mem_rewritten {portRange : Range} {s : Section} {p : Nat} {tagged : Bool} :
    ⟨p, tagged⟩ ∈ rewritten portRange s ↔ p ∉ portRange.values ∧
      ∃ q ∈ s.ports, q.seen = p ∧ q.tagged = tagged := by
  simp only [rewritten, List.mem_map, List.mem_filter, portRange.outside_iff, LanPort.mk.injEq]
  constructor
  · rintro ⟨q, ⟨hq, hout⟩, rfl, rfl⟩
    exact ⟨hout, q, hq, rfl, rfl⟩
  · rintro ⟨hout, q, hq, rfl, rfl⟩
    exact ⟨q, ⟨hq, hout⟩, rfl, rfl⟩

theorem readTagged_iff {c : Config} {v : Nat} {s : Section}
    (h : bridgeVlan c.sections v = some s) (p : Nat) :
    ReadTagged c v p ↔ ∃ q ∈ s.ports, q.seen = p ∧ q.tagged = true := by
  constructor
  · rintro ⟨n, hn, rfl⟩
    exact ⟨⟨n, true⟩, (has_iff_of_bridgeVlan h _).mp hn, rfl, rfl⟩
  · rintro ⟨⟨n, tagged⟩, hq, rfl, rfl⟩
    exact ⟨n, (has_iff_of_bridgeVlan h _).mpr hq, rfl⟩

theorem mem_keptPorts (v : Nat) (portRange : Range) (c : Config) (p : Nat) (tagged : Bool) :
    ⟨p, tagged⟩ ∈ keptPorts v portRange (saveUntaggedPorts v c.sections) ↔
      p ∉ portRange.values ∧ if tagged then ReadTagged c v p else c.Has v ⟨p, false⟩ := by
  rw [keptPorts_eq v portRange c.vlan_nodup]
  cases h : bridgeVlan c.sections v with
  | none =>
    have hnot := (not_hasVlan_iff c v).mpr h
    have hread : ¬ ReadTagged c v p := fun ⟨n, hn, _⟩ => hnot hn.hasVlan
    have hhas : ¬ c.Has v ⟨p, false⟩ := fun hp => hnot hp.hasVlan
    simp [hread, hhas]
  | some s =>
    rw [Option.map_some, Option.getD_some, mem_rewritten, readTagged_iff h,
      has_iff_of_bridgeVlan h]
    refine and_congr_right fun _ => ?_
    cases tagged with
    | true => rfl
    | false =>
      constructor
      · rintro ⟨⟨n, tagged⟩, hq, rfl, rfl⟩
        exact hq
      · exact fun hq => ⟨_, hq, rfl, rfl⟩

theorem state_eq_tagged_iff (q : LanPort) : q.state = .tagged ↔ q.tagged = true := by
  unfold LanPort.state
  cases q.tagged <;> simp

theorem seen_untagged_iff (q : LanPort) (p : Nat) :
    q.seen = p ∧ q.state = .untagged ↔ q = ⟨p, false⟩ := by
  obtain ⟨n, _ | _⟩ := q
  · simp [LanPort.seen, LanPort.state]
  · simp [LanPort.seen, LanPort.state]

theorem busyElsewhere_iff (c : Config) (v p : Nat) :
    BusyElsewhere c v p ↔ ∃ s ∈ c.sections, s.vlan ≠ v ∧
      ∃ q ∈ s.ports, ¬ (q.state = .tagged ∧ s.vlan ≠ v) ∧ q.seen = p ∧ q.state = .untagged := by
  simp only [seen_untagged_iff]
  constructor
  · rintro ⟨w, hw, s, hs, rfl, hp⟩
    exact ⟨s, hs, hw, _, hp, by simp [state_eq_tagged_iff], rfl⟩
  · rintro ⟨s, hs, hne, q, hq, -, rfl⟩
    exact ⟨s.vlan, hne, s, hs, rfl, hq⟩

theorem readTagged_iff_exists (c : Config) (v p : Nat) :
    ReadTagged c v p ↔ ∃ s ∈ c.sections, s.vlan = v ∧
      ∃ q ∈ s.ports, ¬ (q.state = .tagged ∧ s.vlan ≠ v) ∧ q.seen = p ∧ q.state = .tagged := by
  constructor
  · rintro ⟨n, ⟨s, hs, hv, hn⟩, rfl⟩
    exact ⟨s, hs, hv, _, hn, fun h => h.2 hv, rfl, rfl⟩
  · rintro ⟨s, hs, hv, ⟨n, tagged⟩, hq, -, rfl, htagged⟩
    obtain rfl : tagged = true := (state_eq_tagged_iff _).mp htagged
    exact ⟨n, ⟨s, hs, hv, hq⟩, rfl⟩

theorem mem_addedPorts (isAdd : Bool) (v : Nat) (portRange : Range) (c : Config) (p : Nat)
    (tagged : Bool) :
    ⟨p, tagged⟩ ∈ addedPorts isAdd v portRange (saveUntaggedPorts v c.sections) ↔
      p ∈ portRange.values ∧ ¬ BusyElsewhere c v p ∧
        (tagged = true ↔ isAdd = true ∧ ReadTagged c v p) := by
  unfold addedPorts saveUntaggedPorts
  simp only [List.mem_filterMap, List.any_map, List.any_filter, Function.comp_def, getPort_text,
    Option.ite_none_left_eq_some, Option.some.injEq, LanPort.mk.injEq,
    Bool.eq_iff_iff (b := tagged), List.any_eq_true, Bool.and_eq_true, Bool.not_eq_true',
    Bool.and_eq_false_iff, decide_eq_true_eq, decide_eq_false_iff_not, ← not_and_or,
    ← busyElsewhere_iff, ← readTagged_iff_exists]
  constructor
  · rintro ⟨n, hn, hfree, rfl, htagged⟩
    exact ⟨hn, hfree, htagged.symm⟩
  · rintro ⟨hp, hfree, htagged⟩
    exact ⟨p, hp, hfree, rfl, htagged.symm⟩

/-- The configuration with a section for the VLAN. -/
def Config.withVlan (c : Config) (v : Nat) : Config :=
  match bridgeVlan c.sections v with
  | none => c.add v
  | some _ => c

theorem hasVlan_withVlan (c : Config) (v : Nat) : (c.withVlan v).HasVlan v := by
  unfold Config.withVlan
  split
  · exact exists_mem_add c v
  · rename_i s hs
    exact ⟨s, bridgeVlan_eq_some hs⟩

theorem sameVlan_withVlan {c : Config} {v w : Nat} (h : w ≠ v) : SameVlan c (c.withVlan v) w := by
  unfold Config.withVlan
  split
  · intro s hs
    refine ⟨fun ht => ?_, mem_add_of_mem⟩
    exact (mem_add ht).resolve_right fun hnew => h (hs.symm.trans hnew.1)
  · exact .refl c w

/-- `vlan_add_untagged` writes its list unless it is empty. -/
theorem vlanAddUntagged_one (isAdd : Bool) (v : Nat) (portRange : Range) (c : Config) :
    (vlanAddUntagged isAdd c.sections (some ⟨v, v, .one, le_refl v⟩) (some portRange) c).config =
      if untaggedList isAdd v portRange c ≠ [] then
        (c.withVlan v).setPorts v (untaggedList isAdd v portRange c)
      else c.withVlan v := by
  have hone : ¬ (RangeFlag.one = .span) := by decide
  unfold vlanAddUntagged
  dsimp only
  rw [if_neg hone, apply_ite Outcome.config]
  rfl

theorem mem_untaggedList_inside {isAdd : Bool} {v : Nat} {portRange : Range} {c : Config} {p : Nat}
    (hp : p ∈ portRange.values) (tagged : Bool) :
    ⟨p, tagged⟩ ∈ untaggedList isAdd v portRange c ↔ ¬ BusyElsewhere c v p ∧
      (tagged = true ↔ isAdd = true ∧ ReadTagged c v p) := by
  rw [untaggedList, List.mem_append, mem_keptPorts, mem_addedPorts, or_iff_right fun h => h.1 hp,
    and_iff_right hp]

theorem mem_untaggedList_outside {isAdd : Bool} {v : Nat} {portRange : Range} {c : Config}
    {p : Nat} (hp : p ∉ portRange.values) (tagged : Bool) :
    ⟨p, tagged⟩ ∈ untaggedList isAdd v portRange c ↔
      if tagged then ReadTagged c v p else c.Has v ⟨p, false⟩ := by
  rw [untaggedList, List.mem_append, mem_keptPorts, mem_addedPorts, or_iff_left fun h => hp h.1,
    and_iff_right hp]

theorem untaggedList_eq_nil_iff (isAdd : Bool) (v : Nat) (portRange : Range) (c : Config) :
    untaggedList isAdd v portRange c = [] ↔ NothingListed v portRange c := by
  classical
  rw [List.eq_nil_iff_forall_not_mem]
  constructor
  · intro h
    refine ⟨fun p hp => ?_, fun q hq => ?_⟩
    · by_contra hfree
      refine h ⟨p, decide (isAdd = true ∧ ReadTagged c v p)⟩ ?_
      exact (mem_untaggedList_inside hp _).mpr ⟨hfree, decide_eq_true_iff⟩
    · by_contra hout
      refine h ⟨q.seen, q.tagged⟩ ((mem_untaggedList_outside hout _).mpr ?_)
      obtain ⟨n, _ | _⟩ := q
      · exact hq
      · exact ⟨n, hq, rfl⟩
  · rintro ⟨hbusy, hseen⟩ ⟨p, tagged⟩ hmem
    by_cases hp : p ∈ portRange.values
    · exact ((mem_untaggedList_inside hp tagged).mp hmem).1 (hbusy p hp)
    · have hread := (mem_untaggedList_outside hp tagged).mp hmem
      cases tagged with
      | true =>
        obtain ⟨n, hn, rfl⟩ := hread
        exact hp (hseen ⟨n, true⟩ hn)
      | false => exact hp (hseen ⟨p, false⟩ hread)

section Untagged
variable (isAdd : Bool) (v : Nat) (portRange : Range) {c : Config}
  (hc : ∀ s ∈ c.sections, s.ports ≠ [])
include hc

/-- With nothing to list, only a new section is wrong. -/
theorem addsUntagged_withVlan_iff (h : NothingListed v portRange c) :
    AddsUntagged isAdd v portRange c (c.withVlan v) ↔ c.HasVlan v := by
  constructor
  · intro hadds
    by_contra hnot
    obtain ⟨s, hs, hsv⟩ := hasVlan_withVlan c v
    refine hadds.ports s hs ?_
    unfold Config.withVlan at hs
    rw [(not_hasVlan_iff c v).mp hnot] at hs
    rcases mem_add hs with hmem | ⟨-, hnil⟩
    · exact absurd ⟨s, hmem, hsv⟩ hnot
    · exact hnil
  · intro hv
    have hsame : c.withVlan v = c := by
      obtain ⟨s, hs⟩ := (hasVlan_iff c v).mp hv
      unfold Config.withVlan
      rw [hs]
    rw [hsame]
    exact ⟨fun p _ _ _ => Iff.rfl, fun p hp hfree => absurd (h.1 p hp) hfree,
      fun p _ _ => Iff.rfl, fun w _ => .refl c w, hc⟩

theorem addsUntagged_setPorts_iff (h : untaggedList isAdd v portRange c ≠ []) :
    AddsUntagged isAdd v portRange c
        ((c.withVlan v).setPorts v (untaggedList isAdd v portRange c)) ↔
      Rereads isAdd v portRange c := by
  have hhas : ∀ q, ((c.withVlan v).setPorts v (untaggedList isAdd v portRange c)).Has v q ↔
      q ∈ untaggedList isAdd v portRange c := has_setPorts_self (hasVlan_withVlan c v) _
  constructor
  · intro hadds
    refine ⟨fun p hp hbusy tagged hmem => ?_, fun hadd p hp hfree => ?_, fun p hp => ?_⟩
    · have hlisted := (hhas _).mp ((hadds.busy p hp hbusy tagged).mpr hmem)
      exact ((mem_untaggedList_inside hp tagged).mp hlisted).1 hbusy
    · have hboth := (hadds.free p hp hfree true).symm.trans
        ((hhas _).trans (mem_untaggedList_inside hp true))
      simpa [hadd, hfree, iff_comm] using hboth
    · exact ((mem_untaggedList_outside hp true).symm.trans (hhas _).symm).trans
        (hadds.outside p hp true)
  · intro hre
    refine ⟨fun p hp hbusy tagged => ?_, fun p hp hfree tagged => ?_, fun p hp tagged => ?_, ?_, ?_⟩
    · rw [hhas, mem_untaggedList_inside hp]
      exact iff_of_false (fun hmem => hmem.1 hbusy) (hre.busy p hp hbusy tagged)
    · rw [hhas, mem_untaggedList_inside hp, and_iff_right hfree]
      refine iff_congr Iff.rfl (and_congr_right fun hadd => hre.free hadd p hp hfree)
    · rw [hhas, mem_untaggedList_outside hp]
      cases tagged with
      | true => exact hre.outside p hp
      | false => exact Iff.rfl
    · exact fun w hw => (sameVlan_withVlan hw).trans (sameVlan_setPorts _ hw)
    · intro t ht
      obtain ⟨s, hs, rfl⟩ := mem_setPorts.mp ht
      split
      · exact h
      · rename_i hne
        exact hc s ((sameVlan_withVlan hne s rfl).mp hs)

end Untagged

theorem ports_ne_nil_of_mem_withPorts {c : Config} {s : Section} (hs : s ∈ c.withPorts.sections) :
    s.ports ≠ [] := by
  simpa using (List.mem_filter.mp hs).2

/-- **Adding untagged ports costs no port its membership exactly under
`UntaggedFits`.** -/
theorem adds_untagged_iff (isAdd : Bool) (v : Nat) (portRange : Range) (c : Config) :
    AddsUntagged isAdd v portRange c.withPorts
        (vlanAddUntagged isAdd c.withPorts.sections (some ⟨v, v, .one, le_refl v⟩)
          (some portRange) c.withPorts).config ↔
      UntaggedFits isAdd v portRange c.withPorts := by
  have hc : ∀ s ∈ c.withPorts.sections, s.ports ≠ [] := fun s => ports_ne_nil_of_mem_withPorts
  rw [vlanAddUntagged_one, UntaggedFits]
  by_cases hnil : untaggedList isAdd v portRange c.withPorts = []
  · have hnothing := (untaggedList_eq_nil_iff isAdd v portRange c.withPorts).mp hnil
    rw [if_neg (not_not.mpr hnil), addsUntagged_withVlan_iff isAdd v portRange hc hnothing]
    simp [hnothing]
  · have hnothing := (untaggedList_eq_nil_iff isAdd v portRange c.withPorts).not.mp hnil
    rw [if_pos hnil, addsUntagged_setPorts_iff isAdd v portRange hc hnil]
    simp [hnothing]

/-- VLAN 2 has port 1 tagged, and port 1 is untagged in VLAN 1. -/
def trunkPort : Config where
  sections := [⟨1, [⟨1, false⟩], none, none⟩, ⟨2, [⟨1, true⟩, ⟨2, true⟩], none, none⟩]
  lanDevice := .vlan 1
  vlan_nodup := by decide

/-- Adding ports 1 to 2 untagged to VLAN 2 takes port 1 out of it. -/
theorem trunk_port_lost :
    ¬ AddsUntagged true 2 ⟨1, 2, .span, by decide⟩ trunkPort.withPorts
      (vlanAddUntagged true trunkPort.withPorts.sections (some ⟨2, 2, .one, le_refl 2⟩)
        (some ⟨1, 2, .span, by decide⟩) trunkPort.withPorts).config := by
  intro h
  have hbusy : BusyElsewhere trunkPort.withPorts 2 1 := ⟨1, by decide, by decide⟩
  exact absurd ((h.busy 1 (by decide) hbusy true).mpr (by decide)) (by decide)

end TfPackages.Vlan
