import TfPackages.Runs
import TfPackages.VlanConfig
import Mathlib.Data.List.Nodup

/-! # VLAN membership under the commands

A port is to occur at most once in the port list of a VLAN and to be untagged in
at most one VLAN.  Most commands only take entries out of port lists (`Shrinks`),
which keeps this.  Two commands build new lists, and both can list a port twice:

* `vlan_add_untagged` writes ports back under the number it has read, and
  `lan1` and `lan11:t` are read as the same number;
* `vlan_add_tagged` decides by the number it has read whether a port is in the
  range, and it does not empty its list between two VLANs.

`Keeps` states for every command when it does not happen; a run stays consistent
exactly if all its commands meet it.
-/
namespace TfPackages.Vlan

/-- **Consistent membership**: a port occurs at most once in a VLAN and is
untagged in at most one VLAN. -/
structure Consistent (c : Config) : Prop where
  once : ∀ s ∈ c.sections, (s.ports.map LanPort.num).Nodup
  untagged_once : ∀ s ∈ c.sections, ∀ t ∈ c.sections, ∀ n,
    ⟨n, false⟩ ∈ s.ports → ⟨n, false⟩ ∈ t.ports → s.vlan = t.vlan

/-- Of the ports that `vlan_add_untagged` takes to be outside the range, no two
are read as the same number. -/
def KeepsUntagged (portRange : Range) (s : Section) : Prop :=
  ((s.ports.map LanPort.seen).filter portRange.outside).Nodup

/-- A port in the range is also read as one, and the next VLAN of the range, if
there is one, does not exist. -/
def KeepsTagged (bridgeVlanList : List Section) (vlanRange portRange : Range) (s : Section) :
    Prop :=
  (∀ p ∈ s.ports, p.num ∈ portRange.values → p.seen ∈ portRange.values) ∧
    (vlanRange.first < vlanRange.last → bridgeVlan bridgeVlanList (vlanRange.first + 1) = none)

/-- The condition on a command and the configuration it meets. -/
def Keeps (c : Config) (args : Args) : Prop :=
  c.lanDevice ≠ .missing → ∀ vlanRange ∈ checkPortRange args.vlanRange,
    ∀ portRange ∈ checkPortRange args.portList,
    ∀ s ∈ bridgeVlan c.withPorts.sections vlanRange.first,
    match args.cmd with
    | .add .untagged | .edit .untagged => vlanRange.flag ≠ .span → KeepsUntagged portRange s
    | .add .tagged | .edit .tagged => KeepsTagged c.withPorts.sections vlanRange portRange s
    | _ => True

/-! ## Looking up and changing sections -/

theorem bridgeVlan_eq_some {l : List Section} {key : Nat} {s : Section}
    (h : bridgeVlan l key = some s) : s ∈ l ∧ s.vlan = key := by
  refine ⟨List.mem_of_find?_eq_some h, ?_⟩
  simpa using List.find?_some h

/-- A VLAN has one section. -/
theorem Config.eq_of_vlan_eq (c : Config) {s t : Section} (hs : s ∈ c.sections)
    (ht : t ∈ c.sections) (h : s.vlan = t.vlan) : s = t :=
  List.inj_on_of_nodup_map c.vlan_nodup hs ht h

theorem mem_setPorts {c : Config} {v : Nat} {l : List LanPort} {t : Section} :
    t ∈ (c.setPorts v l).sections ↔
      ∃ s ∈ c.sections, (if s.vlan = v then { s with ports := l } else s) = t :=
  List.mem_map

theorem mem_setPorts_of_ne {c : Config} {v : Nat} {l : List LanPort} {s : Section}
    (hs : s ∈ c.sections) (h : s.vlan ≠ v) : s ∈ (c.setPorts v l).sections :=
  mem_setPorts.mpr ⟨s, hs, if_neg h⟩

theorem mem_setPorts_self {c : Config} {v : Nat} (l : List LanPort) {s : Section}
    (hs : s ∈ c.sections) (h : s.vlan = v) : { s with ports := l } ∈ (c.setPorts v l).sections :=
  mem_setPorts.mpr ⟨s, hs, if_pos h⟩

theorem mem_add_of_mem {c : Config} {v : Nat} {s : Section} (hs : s ∈ c.sections) :
    s ∈ (c.add v).sections := by
  unfold Config.add
  split
  · exact hs
  · exact List.mem_append_left _ hs

theorem mem_add {c : Config} {v : Nat} {t : Section} (ht : t ∈ (c.add v).sections) :
    t ∈ c.sections ∨ (t.vlan = v ∧ t.ports = []) := by
  unfold Config.add at ht
  split at ht
  · exact Or.inl ht
  · rcases List.mem_append.mp ht with ht | ht
    · exact Or.inl ht
    · rw [List.mem_singleton] at ht
      exact Or.inr ⟨by rw [ht], by rw [ht]⟩

/-- After `uci:add` the VLAN has a section. -/
theorem exists_mem_add (c : Config) (v : Nat) : ∃ s ∈ (c.add v).sections, s.vlan = v := by
  unfold Config.add
  split
  · rename_i h
    exact List.mem_map.mp h
  · exact ⟨_, List.mem_append_right _ List.mem_cons_self, rfl⟩

/-! ## Commands that take entries out -/

/-- Every port list of `c'` is part of the one `c` has for the same VLAN. -/
def Shrinks (c c' : Config) : Prop :=
  ∀ t ∈ c'.sections, t.ports = [] ∨ ∃ s ∈ c.sections, s.vlan = t.vlan ∧ t.ports.Sublist s.ports

theorem Shrinks.refl (c : Config) : Shrinks c c := fun t ht => Or.inr ⟨t, ht, rfl, .refl _⟩

theorem Shrinks.trans {c₁ c₂ c₃ : Config} (h : Shrinks c₁ c₂) (h' : Shrinks c₂ c₃) :
    Shrinks c₁ c₃ := by
  intro u hu
  rcases h' u hu with hnil | ⟨t, ht, hvlan, hsub⟩
  · exact Or.inl hnil
  · rcases h t ht with hnil | ⟨s, hs, hvlan', hsub'⟩
    · rw [hnil] at hsub
      exact Or.inl (List.sublist_nil.mp hsub)
    · exact Or.inr ⟨s, hs, hvlan'.trans hvlan, hsub.trans hsub'⟩

theorem Shrinks.consistent {c c' : Config} (h : Shrinks c c') (hc : Consistent c) :
    Consistent c' where
  once := by
    intro t ht
    rcases h t ht with hnil | ⟨s, hs, -, hsub⟩
    · rw [hnil]
      exact List.nodup_nil
    · exact (hc.once s hs).sublist (hsub.map _)
  untagged_once := by
    intro t ht u hu n hnt hnu
    rcases h t ht with hnil | ⟨s, hs, hvlan, hsub⟩
    · rw [hnil] at hnt
      cases hnt
    · rcases h u hu with hnil | ⟨s', hs', hvlan', hsub'⟩
      · rw [hnil] at hnu
        cases hnu
      · rw [← hvlan, ← hvlan']
        exact hc.untagged_once s hs s' hs' n (hsub.subset hnt) (hsub'.subset hnu)

theorem shrinks_filter (c : Config) (p : Section → Bool) : Shrinks c (c.filter p) :=
  fun t ht => Or.inr ⟨t, (List.mem_filter.mp ht).1, rfl, .refl _⟩

theorem shrinks_add (c : Config) (v : Nat) : Shrinks c (c.add v) := by
  intro t ht
  rcases mem_add ht with ht | ⟨-, hnil⟩
  · exact Or.inr ⟨t, ht, rfl, .refl _⟩
  · exact Or.inl hnil

/-- A new section without ports changes nothing. -/
theorem consistent_add_iff (c : Config) (v : Nat) : Consistent (c.add v) ↔ Consistent c := by
  constructor
  · intro h
    exact ⟨fun s hs => h.once s (mem_add_of_mem hs), fun s hs t ht n hns hnt =>
      h.untagged_once s (mem_add_of_mem hs) t (mem_add_of_mem ht) n hns hnt⟩
  · exact (shrinks_add c v).consistent

theorem shrinks_deleteLoop (mainVlan : LanDevice) (list : List Section) (keys : List Nat)
    (c : Config) : Shrinks c (deleteLoop mainVlan list keys c).config := by
  induction keys generalizing c with
  | nil => exact .refl c
  | cons key keys ih =>
    unfold deleteLoop
    split
    · exact ih c
    · split
      · exact .refl c
      · exact (shrinks_filter c _).trans (ih _)

theorem shrinks_vlanDelete (mainVlan : LanDevice) (list : List Section) (r : Option Range)
    (c : Config) : Shrinks c (vlanDelete mainVlan list r c).config := by
  cases r with
  | none => exact .refl c
  | some r => exact shrinks_deleteLoop mainVlan list r.values c

theorem shrinks_setParamLoop (param : Param) (value : String) (list : List Section)
    (keys : List Nat) (c : Config) :
    Shrinks c (setParamLoop param value list keys c).config := by
  induction keys generalizing c with
  | nil => exact .refl c
  | cons key keys ih =>
    unfold setParamLoop
    split
    · exact .refl c
    · refine Shrinks.trans (fun t ht => Or.inr ?_) (ih _)
      obtain ⟨s, hs, rfl⟩ := List.mem_map.mp ht
      refine ⟨s, hs, ?_⟩
      split
      · cases param <;> exact ⟨rfl, .refl _⟩
      · exact ⟨rfl, .refl _⟩

theorem shrinks_vlanSetParam (param : Param) (value : String) (list : List Section)
    (r : Option Range) (c : Config) : Shrinks c (vlanSetParam param value list r c).config := by
  cases r with
  | none => exact .refl c
  | some r => exact shrinks_setParamLoop param value list r.values c

theorem shrinks_vlanMngt (list : List Section) (r : Option Range) (c : Config) :
    Shrinks c (vlanMngt list r c).config := by
  unfold vlanMngt
  split
  · exact .refl c
  · split
    · exact .refl c
    · split
      · exact .refl c
      · exact fun t ht => Or.inr ⟨t, ht, rfl, .refl _⟩

theorem shrinks_vlanAddNotMemberPorts (mainVlan : LanDevice) (r portRange : Option Range)
    (c : Config) :
    Shrinks c (vlanAddNotMemberPorts mainVlan c.sections r portRange c).config := by
  unfold vlanAddNotMemberPorts
  split
  · exact .refl c
  · split
    · exact .refl c
    · rename_i thisVlan hvlan
      split
      · exact .refl c
      · dsimp only
        split
        · obtain ⟨hmem, hkey⟩ := bridgeVlan_eq_some hvlan
          intro t ht
          obtain ⟨s, hs, rfl⟩ := mem_setPorts.mp ht
          split
          · rename_i hv
            obtain rfl := c.eq_of_vlan_eq hs hmem (hv.trans hkey.symm)
            exact Or.inr ⟨s, hs, rfl, List.filter_sublist⟩
          · exact Or.inr ⟨s, hs, rfl, .refl _⟩
        · exact shrinks_vlanDelete mainVlan c.sections _ c

/-! ## A new port list -/

/-- A port list for a VLAN keeps the membership consistent if it is so itself and
has no port untagged that is untagged elsewhere. -/
theorem consistent_setPorts_iff {c : Config} (hc : Consistent c) {v : Nat}
    (hv : ∃ s ∈ c.sections, s.vlan = v) {l : List LanPort}
    (hfree : ∀ n, ⟨n, false⟩ ∈ l → ∀ t ∈ c.sections, t.vlan ≠ v → ⟨n, false⟩ ∉ t.ports) :
    Consistent (c.setPorts v l) ↔ (l.map LanPort.num).Nodup := by
  obtain ⟨s, hs, hsv⟩ := hv
  constructor
  · intro h
    exact h.once _ (mem_setPorts_self l hs hsv)
  · intro hl
    constructor
    · intro t ht
      obtain ⟨u, hu, rfl⟩ := mem_setPorts.mp ht
      split
      · exact hl
      · exact hc.once u hu
    · -- of two sections at most one has the new list
      intro t ht t' ht' n hn hn'
      obtain ⟨u, hu, rfl⟩ := mem_setPorts.mp ht
      obtain ⟨u', hu', rfl⟩ := mem_setPorts.mp ht'
      by_cases huv : u.vlan = v
      · by_cases huv' : u'.vlan = v
        · rw [if_pos huv, if_pos huv']
          exact huv.trans huv'.symm
        · rw [if_pos huv] at hn
          rw [if_neg huv'] at hn'
          exact absurd hn' (hfree n hn u' hu' huv')
      · by_cases huv' : u'.vlan = v
        · rw [if_neg huv] at hn
          rw [if_pos huv'] at hn'
          exact absurd hn (hfree n hn' u hu huv)
        · rw [if_neg huv] at hn ⊢
          rw [if_neg huv'] at hn' ⊢
          exact hc.untagged_once u hu u' hu' n hn hn'

/-- What a VLAN has untagged no other VLAN has. -/
theorem Consistent.free {c : Config} (hc : Consistent c) {s t : Section} (hs : s ∈ c.sections)
    (ht : t ∈ c.sections) {n : Nat} (hn : ⟨n, false⟩ ∈ s.ports) (hne : t.vlan ≠ s.vlan) :
    ⟨n, false⟩ ∉ t.ports :=
  fun hn' => hne (hc.untagged_once t ht s hs n hn' hn)

theorem outsideRange_eq (portRange : Range) (p : LanPort) :
    outsideRange portRange p = portRange.outside p.seen := by
  rw [outsideRange, getPort_text]
  rfl

/-! ## Adding untagged ports -/

/-- What is kept of the VLAN's own list: the ports outside the range, under the
numbers they are read as. -/
def rewritten (portRange : Range) (s : Section) : List LanPort :=
  (s.ports.filter fun p => portRange.outside p.seen).map fun p => ⟨p.seen, p.tagged⟩

theorem filterMap_own (portRange : Range) (ports : List LanPort) :
    (ports.map fun p => getPort p.text).filterMap (fun port => do
        let portNum ← port.portNumber
        if portRange.outside portNum then some (⟨portNum, port.state = .tagged⟩ : LanPort)
        else none) =
      (ports.filter fun p => portRange.outside p.seen).map fun p => ⟨p.seen, p.tagged⟩ := by
  induction ports with
  | nil => rfl
  | cons p ports ih =>
    rw [List.map_cons, List.filterMap_cons, ih, getPort_text, List.filter_cons]
    have hstate : decide (p.state = .tagged) = p.tagged := by
      unfold LanPort.state
      cases p.tagged <;> rfl
    by_cases hout : portRange.outside p.seen = true
    · simp [hout, hstate]
    · simp [hout]

theorem keptPorts_eq (key : Nat) (portRange : Range) {l : List Section}
    (hl : (l.map Section.vlan).Nodup) :
    keptPorts key portRange (saveUntaggedPorts key l) =
      ((bridgeVlan l key).map (rewritten portRange)).getD [] := by
  induction l with
  | nil => rfl
  | cons s l ih =>
    rw [List.map_cons, List.nodup_cons] at hl
    have hcons : keptPorts key portRange (saveUntaggedPorts key (s :: l)) =
        (if s.vlan = key then rewritten portRange s else []) ++
          keptPorts key portRange (saveUntaggedPorts key l) := by
      unfold keptPorts saveUntaggedPorts
      rw [List.map_cons, List.flatMap_cons]
      congr 1
      dsimp only
      split
      · rename_i hkey
        rw [rewritten, ← filterMap_own, List.filter_eq_self.mpr]
        intro port _
        simp [hkey]
      · rfl
    rw [hcons, ih hl.2]
    by_cases hkey : s.vlan = key
    · -- no other section has this VLAN
      have hnone : bridgeVlan l key = none := by
        rw [bridgeVlan, List.find?_eq_none]
        intro t ht htkey
        have htkey : t.vlan = key := by simpa using htkey
        exact hl.1 (List.mem_map.mpr ⟨t, ht, htkey.trans hkey.symm⟩)
      have hsome : bridgeVlan (s :: l) key = some s := by simp [bridgeVlan, hkey]
      rw [if_pos hkey, hnone, hsome]
      simp
    · have hskip : bridgeVlan (s :: l) key = bridgeVlan l key := by simp [bridgeVlan, hkey]
      rw [if_neg hkey, hskip, List.nil_append]

/-- The ports that are added have the numbers of the range, each at most once. -/
theorem map_num_addedPorts (isAdd : Bool) (key : Nat) (portRange : Range)
    (busy : List (Nat × List Port)) :
    ((addedPorts isAdd key portRange busy).map LanPort.num).Sublist portRange.values := by
  unfold addedPorts
  generalize portRange.values = l
  induction l with
  | nil => exact .refl _
  | cons p l ih =>
    rw [List.filterMap_cons]
    dsimp only
    split
    · exact ih.cons p
    · rename_i q hq
      split at hq
      · cases hq
      · cases hq
        exact ih.cons_cons p

/-- No port is added that is untagged in another VLAN. -/
theorem free_of_mem_addedPorts {isAdd tagged : Bool} {key n : Nat} {portRange : Range}
    {l : List Section} (h : ⟨n, tagged⟩ ∈ addedPorts isAdd key portRange (saveUntaggedPorts key l))
    {t : Section} (ht : t ∈ l) (hne : t.vlan ≠ key) : ⟨n, false⟩ ∉ t.ports := by
  intro hn
  obtain ⟨p, -, hp⟩ := List.mem_filterMap.mp h
  dsimp only at hp
  split at hp
  · cases hp
  · rename_i hflag
    obtain rfl : p = n := congrArg LanPort.num (Option.some.inj hp)
    apply hflag
    rw [List.any_eq_true]
    refine ⟨_, List.mem_map.mpr ⟨t, ht, rfl⟩, ?_⟩
    simp only [hne, ne_eq, not_false_eq_true, decide_true, Bool.true_and, List.any_eq_true]
    refine ⟨getPort (LanPort.text ⟨p, false⟩), List.mem_filter.mpr
      ⟨List.mem_map.mpr ⟨_, hn, rfl⟩, ?_⟩, ?_⟩
    · simp [getPort_untagged]
    · simp [getPort_untagged]

/-- The kept ports and the added ones make up a list without repetitions exactly
if the kept ones do. -/
theorem nodup_rewritten_append_iff {portRange : Range} {s : Section} {added : List LanPort}
    (hadded : (added.map LanPort.num).Sublist portRange.values) :
    ((rewritten portRange s ++ added).map LanPort.num).Nodup ↔ KeepsUntagged portRange s := by
  have hkept : (rewritten portRange s).map LanPort.num =
      (s.ports.map LanPort.seen).filter portRange.outside := by
    rw [rewritten, List.map_map, List.filter_map]
    rfl
  rw [List.map_append, List.nodup_append, hkept, KeepsUntagged]
  constructor
  · exact fun h => h.1
  · intro h
    refine ⟨h, portRange.nodup_values.sublist hadded, ?_⟩
    rintro a ha b hb rfl
    have hout := (portRange.outside_iff a).mp (List.mem_filter.mp ha).2
    exact hout (hadded.subset hb)

/-- A port that is kept untagged has been untagged before. -/
theorem mem_ports_of_mem_rewritten {portRange : Range} {s : Section} {n : Nat}
    (h : ⟨n, false⟩ ∈ rewritten portRange s) : ⟨n, false⟩ ∈ s.ports := by
  obtain ⟨p, hp, heq⟩ := List.mem_map.mp h
  obtain ⟨hseen, htagged⟩ := LanPort.mk.inj heq
  have hmem := (List.mem_filter.mp hp).1
  rw [LanPort.seen, htagged] at hseen
  have : p = ⟨n, false⟩ := by
    cases p
    simp_all
  exact this ▸ hmem

theorem vlanAddUntagged_iff {c : Config} (hc : Consistent c) (isAdd : Bool)
    (vlanRange portRange : Option Range) :
    Consistent (vlanAddUntagged isAdd c.sections vlanRange portRange c).config ↔
      ∀ r ∈ vlanRange, ∀ pr ∈ portRange, ∀ s ∈ bridgeVlan c.sections r.first,
        r.flag ≠ .span → KeepsUntagged pr s := by
  cases vlanRange with
  | none => exact iff_of_true hc (by simp)
  | some r =>
    by_cases hspan : r.flag = .span
    · have hout : vlanAddUntagged isAdd c.sections (some r) portRange c = ⟨c, false⟩ := if_pos hspan
      rw [hout]
      exact iff_of_true hc (by simp [hspan])
    · cases portRange with
      | none =>
        have hout : vlanAddUntagged isAdd c.sections (some r) none c = ⟨c, false⟩ := if_neg hspan
        rw [hout]
        exact iff_of_true hc (by simp)
      | some pr =>
        have hkept := keptPorts_eq r.first pr c.vlan_nodup
        have hadded := map_num_addedPorts isAdd r.first pr (saveUntaggedPorts r.first c.sections)
        unfold vlanAddUntagged
        simp only [if_neg hspan, hkept]
        cases hvlan : bridgeVlan c.sections r.first with
        | none =>
          -- a new section: nothing is kept, and what is added is free
          simp only [Option.map_none, Option.getD_none, List.nil_append]
          have hc' := (consistent_add_iff c r.first).mpr hc
          split
          · refine iff_of_true ?_ (by simp [hvlan])
            refine (consistent_setPorts_iff hc' (exists_mem_add c r.first) ?_).mpr
              (pr.nodup_values.sublist hadded)
            intro n hn t ht hne
            rcases mem_add ht with ht | ⟨hv, -⟩
            · exact free_of_mem_addedPorts hn ht hne
            · exact absurd hv hne
          · exact iff_of_true hc' (by simp [hvlan])
        | some s =>
          obtain ⟨hs, hkey⟩ := bridgeVlan_eq_some hvlan
          simp only [Option.map_some, Option.getD_some]
          have hcond : (∀ r' ∈ some r, ∀ pr' ∈ some pr, ∀ s' ∈ bridgeVlan c.sections r'.first,
              r'.flag ≠ .span → KeepsUntagged pr' s') ↔ KeepsUntagged pr s := by
            simp [hvlan, hspan]
          split
          · rw [hcond, ← nodup_rewritten_append_iff hadded]
            refine consistent_setPorts_iff hc ⟨s, hs, hkey⟩ fun n hn t ht hne => ?_
            rcases List.mem_append.mp hn with hn | hn
            · exact hc.free hs ht (mem_ports_of_mem_rewritten hn) (hkey ▸ hne)
            · exact free_of_mem_addedPorts hn ht hne
          · rename_i hnil
            rw [hcond, ← nodup_rewritten_append_iff hadded, not_not.mp hnil]
            exact iff_of_true hc List.nodup_nil

/-! ## Adding tagged ports -/

/-- The list built for the first VLAN of the range. -/
def taggedList (isAdd : Bool) (portRange : Range) (s : Section) : List LanPort :=
  portRange.values.map (taggedName isAdd s.ports) ++ s.ports.filter (outsideRange portRange)

theorem map_num_taggedName (isAdd : Bool) (ports : List LanPort) (l : List Nat) :
    (l.map (taggedName isAdd ports)).map LanPort.num = l := by
  rw [List.map_map]
  exact List.map_id l

theorem nodup_taggedList_iff {s : Section} (hs : (s.ports.map LanPort.num).Nodup) (isAdd : Bool)
    (portRange : Range) : ((taggedList isAdd portRange s).map LanPort.num).Nodup ↔
      ∀ p ∈ s.ports, p.num ∈ portRange.values → p.seen ∈ portRange.values := by
  rw [taggedList, List.map_append, List.nodup_append, map_num_taggedName]
  constructor
  · rintro ⟨-, -, hdisj⟩ p hp hnum
    by_contra hseen
    refine hdisj p.num hnum p.num (List.mem_map.mpr ⟨p, List.mem_filter.mpr ⟨hp, ?_⟩, rfl⟩) rfl
    rw [outsideRange_eq, portRange.outside_iff]
    exact hseen
  · intro h
    refine ⟨portRange.nodup_values, hs.sublist (List.filter_sublist.map _), ?_⟩
    rintro a ha b hb rfl
    obtain ⟨p, hp, rfl⟩ := List.mem_map.mp hb
    obtain ⟨hmem, hout⟩ := List.mem_filter.mp hp
    rw [outsideRange_eq, portRange.outside_iff] at hout
    exact hout (h p hmem ha)

/-- A port that is untagged in the new list has been untagged before. -/
theorem mem_ports_of_mem_taggedList {isAdd : Bool} {portRange : Range} {s : Section} {n : Nat}
    (h : ⟨n, false⟩ ∈ taggedList isAdd portRange s) : ⟨n, false⟩ ∈ s.ports := by
  rcases List.mem_append.mp h with h | h
  · obtain ⟨p, -, heq⟩ := List.mem_map.mp h
    obtain ⟨rfl, hflag⟩ := LanPort.mk.inj heq
    have hany : (s.ports.any fun q => getPort q.text = ⟨some p, .untagged⟩) = true := by
      cases isAdd <;> simp_all
    obtain ⟨q, hq, hget⟩ := List.any_eq_true.mp hany
    have hget : getPort q.text = ⟨some p, .untagged⟩ := by simpa using hget
    rw [getPort_text] at hget
    obtain ⟨num, tagged⟩ := q
    cases tagged with
    | true => exact absurd (Port.mk.inj hget).2 (by simp [LanPort.state])
    | false =>
      obtain rfl : num = p := Option.some.inj (Port.mk.inj hget).1
      exact hq
  · exact (List.mem_filter.mp h).1

/-- The loop leaves the VLANs that are not in the range alone. -/
theorem mem_addTaggedLoop {isAdd : Bool} {list : List Section} {portRange : Range}
    {keys : List Nat} {lanList : List LanPort} {c : Config} {s : Section} (hs : s ∈ c.sections)
    (hkeys : s.vlan ∉ keys) :
    s ∈ (addTaggedLoop isAdd list portRange keys lanList c).config.sections := by
  induction keys generalizing lanList c with
  | nil => exact hs
  | cons key keys ih =>
    obtain ⟨hne, hrest⟩ := not_or.mp (List.mem_cons.not.mp hkeys)
    unfold addTaggedLoop
    split
    · exact mem_add_of_mem hs
    · exact ih (mem_setPorts_of_ne hs hne) hrest

theorem consistent_taggedList_iff {c : Config} (hc : Consistent c) {s : Section}
    (hs : s ∈ c.sections) (isAdd : Bool) (portRange : Range) :
    Consistent (c.setPorts s.vlan (taggedList isAdd portRange s)) ↔
      ∀ p ∈ s.ports, p.num ∈ portRange.values → p.seen ∈ portRange.values := by
  rw [← nodup_taggedList_iff (hc.once s hs) isAdd portRange]
  refine consistent_setPorts_iff hc ⟨s, hs, rfl⟩ fun n hn t ht hne => ?_
  exact hc.free hs ht (mem_ports_of_mem_taggedList hn) hne

theorem Range.values_eq (r : Range) :
    r.values = r.first :: List.range' (r.first + 1) (r.last - r.first) := by
  have hle := r.first_le
  rw [Range.values, show r.last + 1 - r.first = (r.last - r.first) + 1 by omega, List.range'_succ]

/-- A list that already has the ports of the range has them twice then. -/
theorem not_nodup_append {l : List LanPort} {portRange : Range}
    (hl : portRange.first ∈ l.map LanPort.num) (isAdd : Bool) (ports rest : List LanPort) :
    ¬ ((l ++ portRange.values.map (taggedName isAdd ports) ++ rest).map LanPort.num).Nodup := by
  intro h
  rw [List.map_append, List.map_append, map_num_taggedName] at h
  obtain ⟨-, -, hdisj⟩ := List.nodup_append.mp (List.nodup_append.mp h).1
  exact hdisj _ hl _ ((portRange.mem_values _).mpr ⟨le_refl _, portRange.first_le⟩) rfl

theorem vlanAddTagged_iff {c : Config} (hc : Consistent c) (isAdd : Bool)
    (vlanRange portRange : Option Range) :
    Consistent (vlanAddTagged isAdd c.sections vlanRange portRange c).config ↔
      ∀ r ∈ vlanRange, ∀ pr ∈ portRange, ∀ s ∈ bridgeVlan c.sections r.first,
        KeepsTagged c.sections r pr s := by
  cases vlanRange with
  | none => exact iff_of_true hc (by simp)
  | some r =>
    cases portRange with
    | none => exact iff_of_true hc (by simp)
    | some pr =>
      change Consistent (addTaggedLoop isAdd c.sections pr r.values [] c).config ↔ _
      rw [r.values_eq]
      unfold addTaggedLoop
      cases hvlan : bridgeVlan c.sections r.first with
      | none => exact iff_of_true ((consistent_add_iff c _).mpr hc) (by simp [hvlan])
      | some s =>
        obtain ⟨hs, hkey⟩ := bridgeVlan_eq_some hvlan
        have hcond : (∀ r' ∈ some r, ∀ pr' ∈ some pr, ∀ s' ∈ bridgeVlan c.sections r'.first,
            KeepsTagged c.sections r' pr' s') ↔ KeepsTagged c.sections r pr s := by
          simp [hvlan]
        have hfirst := consistent_taggedList_iff hc hs isAdd pr
        rw [hkey] at hfirst
        rw [hcond]
        change Consistent (addTaggedLoop isAdd c.sections pr _ (taggedList isAdd pr s)
          (c.setPorts r.first (taggedList isAdd pr s))).config ↔ _
        by_cases hlast : r.first < r.last
        · rw [show r.last - r.first = (r.last - r.first - 1) + 1 by omega, List.range'_succ]
          unfold addTaggedLoop
          cases hnext : bridgeVlan c.sections (r.first + 1) with
          | none =>
            rw [consistent_add_iff, hfirst]
            exact ⟨fun h => ⟨h, fun _ => hnext⟩, fun h => h.1⟩
          | some t =>
            -- the second VLAN's list is not touched any more, and it is not consistent
            obtain ⟨ht, htkey⟩ := bridgeVlan_eq_some hnext
            refine iff_of_false (fun h => ?_) fun h => ?_
            · have hmem : t ∈ (c.setPorts r.first (taggedList isAdd pr s)).sections :=
                mem_setPorts_of_ne ht (by omega)
              have hin : pr.first ∈ (taggedList isAdd pr s).map LanPort.num := by
                rw [taggedList, List.map_append, map_num_taggedName]
                exact List.mem_append_left _
                  ((pr.mem_values _).mpr ⟨le_refl _, pr.first_le⟩)
              refine not_nodup_append hin isAdd t.ports (t.ports.filter (outsideRange pr)) ?_
              refine h.once _ (mem_addTaggedLoop (mem_setPorts_self _ hmem htkey) ?_)
              change t.vlan ∉ _
              rw [List.mem_range'_1]
              omega
            · exact absurd (h.2 hlast) (by simp [hnext])
        · have hone : r.last - r.first = 0 := by omega
          rw [hone]
          change Consistent (c.setPorts r.first (taggedList isAdd pr s)) ↔ _
          rw [hfirst]
          exact ⟨fun h => ⟨h, fun hlt => absurd hlt hlast⟩, fun h => h.1⟩

/-! ## Every command, and every run -/

theorem withPorts_shrinks (c : Config) : Shrinks c c.withPorts := shrinks_filter c _

/-- **One command** keeps a consistent membership consistent exactly under its
condition. -/
theorem configVlan_iff {c : Config} (hc : Consistent c) (args : Args) :
    Consistent (configVlan c args) ↔ Keeps c args := by
  have hc' : Consistent c.withPorts := (withPorts_shrinks c).consistent hc
  unfold configVlan main
  by_cases hdev : c.lanDevice = .missing
  · rw [if_pos hdev]
    exact iff_of_true hc' fun h => absurd hdev h
  · rw [if_neg hdev]
    obtain ⟨vlanRange, cmd, portList⟩ := args
    have hdrops : ∀ {o : Config}, Shrinks c.withPorts o → Consistent o := fun h => h.consistent hc'
    unfold Keeps
    rw [imp_iff_right hdev]
    cases cmd with
    | add t =>
      cases t with
      | tagged => exact vlanAddTagged_iff hc' true _ _
      | untagged => exact vlanAddUntagged_iff hc' true _ _
      | notMemb => exact iff_of_true hc' (by simp)
    | edit t =>
      cases t with
      | tagged => exact vlanAddTagged_iff hc' false _ _
      | untagged => exact vlanAddUntagged_iff hc' false _ _
      | notMemb =>
        exact iff_of_true (hdrops (shrinks_vlanAddNotMemberPorts _ _ _ c.withPorts)) (by simp)
    | delete => exact iff_of_true (hdrops (shrinks_vlanDelete _ _ _ _)) (by simp)
    | name value => exact iff_of_true (hdrops (shrinks_vlanSetParam _ _ _ _ _)) (by simp)
    | state value => exact iff_of_true (hdrops (shrinks_vlanSetParam _ _ _ _ _)) (by simp)
    | mngtVlan => exact iff_of_true (hdrops (shrinks_vlanMngt _ _ _)) (by simp)

/-- **Membership stays consistent in a run exactly when all its commands meet
their condition.** -/
theorem membership_kept_iff {c : Config} (hc : Consistent c) (cmds : List Args) :
    Runs.Always configVlan Consistent c cmds ↔ Runs.Meets configVlan Keeps c cmds := by
  refine Runs.always_iff_meets (I := Consistent) (C := Keeps) (fun d args hd => ?_) hc
  exact configVlan_iff hd args

/-- VLAN 1 with port 1 and VLAN 2 with port 2. -/
def twoVlans : Config where
  sections := [⟨1, [⟨1, false⟩], none, none⟩, ⟨2, [⟨2, false⟩], none, none⟩]
  lanDevice := .vlan 1
  vlan_nodup := by decide

theorem twoVlans_consistent : Consistent twoVlans := by
  constructor
  · decide
  · intro s hs t ht n hn hn'
    simp only [twoVlans, List.mem_cons, List.not_mem_nil, or_false] at hs ht
    rcases hs with rfl | rfl <;> rcases ht with rfl | rfl <;> simp_all

/-- The commands of a session: port 3 becomes untagged in VLAN 1, and then it is
taken out of it again. -/
theorem membership_kept_untagged_session :
    Runs.Always configVlan Consistent twoVlans
      [⟨.one 1, .add .untagged, .one 3⟩, ⟨.one 1, .edit .notMemb, .one 3⟩] := by
  refine (membership_kept_iff twoVlans_consistent _).mpr ⟨?_, ?_, trivial⟩
  · intro _ r hr pr hpr s hs _
    obtain rfl := Option.some.inj hr
    obtain rfl := Option.some.inj hpr
    have hone : bridgeVlan twoVlans.withPorts.sections 1 = some ⟨1, [⟨1, false⟩], none, none⟩ := by
      decide
    obtain rfl := Option.some.inj (hone.symm.trans hs)
    exact (by decide : ([1].filter fun n => n < 3 || 3 < n).Nodup)
  · exact fun _ _ _ _ _ _ _ => trivial

/-- Port 3 is added tagged to the VLANs 1 to 2: it is twice in VLAN 2. -/
theorem tagged_range_lists_port_twice :
    (configVlan twoVlans ⟨.span 1 2, .add .tagged, .one 3⟩).sections.map Section.ports =
        [[⟨3, true⟩, ⟨1, false⟩], [⟨3, true⟩, ⟨1, false⟩, ⟨3, true⟩, ⟨2, false⟩]] ∧
      ¬ Runs.Always configVlan Consistent twoVlans [⟨.span 1 2, .add .tagged, .one 3⟩] := by
  have hports : (configVlan twoVlans ⟨.span 1 2, .add .tagged, .one 3⟩).sections =
      [⟨1, [⟨3, true⟩, ⟨1, false⟩], none, none⟩,
        ⟨2, [⟨3, true⟩, ⟨1, false⟩, ⟨3, true⟩, ⟨2, false⟩], none, none⟩] := by
    decide +kernel
  refine ⟨by rw [hports]; rfl, fun h => ?_⟩
  have hlast := h.2.once _ (by rw [hports]; exact List.mem_cons_of_mem _ List.mem_cons_self)
  exact absurd hlast (by decide)

end TfPackages.Vlan
