import Mathlib.Data.List.Infix

/-! # Runs of a system and what holds along them

A system is a function `step : S → E → S`: the state after one event.  A run is
a list of events from a start state.  Two predicates speak about a whole run:
`Always I` — every state visited, first and last included, satisfies `I` — and
`Meets C` — every event, in the state it meets, satisfies `C`.  `Meets` serves
both for what the environment promises and for what the system guarantees of its
steps.

`always_of_meets` is the invariant rule.  `always_iff_meets` is its sharp form:
where one step keeps the invariant exactly under `C`, a run keeps it exactly
when all its steps meet `C`.
-/
namespace Runs
variable {S E : Type} (step : S → E → S)

/-- The state after a run. -/
def exec (s : S) (es : List E) : S := es.foldl step s

/-- Every state of the run satisfies `I`. -/
def Always (I : S → Prop) : S → List E → Prop
  | s, [] => I s
  | s, e :: es => I s ∧ Always I (step s e) es

/-- Every event of the run satisfies `C` in the state it meets. -/
def Meets (C : S → E → Prop) : S → List E → Prop
  | _, [] => True
  | s, e :: es => C s e ∧ Meets C (step s e) es

/-- Some state of the run satisfies `I`. -/
def Reaches (I : S → Prop) (s : S) (es : List E) : Prop :=
  ∃ pre, pre <+: es ∧ I (exec step s pre)

instance Always.decidable (I : S → Prop) [DecidablePred I] :
    ∀ (s : S) (es : List E), Decidable (Always step I s es)
  | s, [] => inferInstanceAs (Decidable (I s))
  | s, e :: es =>
    have := Always.decidable I (step s e) es
    inferInstanceAs (Decidable (I s ∧ Always step I (step s e) es))

instance Meets.decidable (C : S → E → Prop) [∀ s e, Decidable (C s e)] :
    ∀ (s : S) (es : List E), Decidable (Meets step C s es)
  | _, [] => isTrue trivial
  | s, e :: es =>
    have := Meets.decidable C (step s e) es
    inferInstanceAs (Decidable (C s e ∧ Meets step C (step s e) es))

variable {step} {I J : S → Prop} {C D : S → E → Prop}

theorem Always.head {s : S} {es : List E} (h : Always step I s es) : I s := by
  cases es with
  | nil => exact h
  | cons e es => exact h.1

theorem Always.last {s : S} {es : List E} (h : Always step I s es) : I (exec step s es) := by
  induction es generalizing s with
  | nil => exact h
  | cons e es ih => exact ih h.2

/-- What fails in every state of a run is not reached by it. -/
theorem Always.not_reaches {s : S} {es : List E} (h : Always step (fun s => ¬ I s) s es) :
    ¬ Reaches step I s es := by
  rintro ⟨pre, ⟨post, rfl⟩, hI⟩
  induction pre generalizing s with
  | nil => exact h.head hI
  | cons e pre ih => exact ih hI h.2

theorem Always.mono (hIJ : ∀ s, I s → J s) {s : S} {es : List E} (h : Always step I s es) :
    Always step J s es := by
  induction es generalizing s with
  | nil => exact hIJ s h
  | cons e es ih => exact ⟨hIJ s h.1, ih h.2⟩

/-- What holds along the run of a system with more to its state holds along the run of the
part that steps by itself. -/
theorem Always.map {T : Type} {stepT : T → E → T} (f : T → S)
    (hf : ∀ t e, f (stepT t e) = step (f t) e) {t : T} {es : List E}
    (h : Always stepT (fun t => I (f t)) t es) : Always step I (f t) es := by
  induction es generalizing t with
  | nil => exact h
  | cons e es ih => exact ⟨h.1, hf t e ▸ ih h.2⟩

/-- **The invariant rule.**  An invariant of the start state that every step
meeting `C` keeps holds in every state of a run whose steps all meet `C`. -/
theorem always_of_meets (hstep : ∀ s e, I s → C s e → I (step s e)) {s : S} {es : List E}
    (hs : I s) (hC : Meets step C s es) : Always step I s es := by
  induction es generalizing s with
  | nil => exact hs
  | cons e es ih => exact ⟨hs, ih (hstep s e hs hC.1) hC.2⟩

/-- A condition on the events alone. -/
theorem meets_of_forall {s : S} {es : List E} (h : ∀ e ∈ es, ∀ s, C s e) : Meets step C s es := by
  induction es generalizing s with
  | nil => trivial
  | cons e es ih =>
    exact ⟨h e List.mem_cons_self s, ih fun e he => h e (List.mem_cons_of_mem _ he)⟩

theorem Meets.mono (hCD : ∀ s e, C s e → D s e) {s : S} {es : List E} (h : Meets step C s es) :
    Meets step D s es := by
  induction es generalizing s with
  | nil => trivial
  | cons e es ih => exact ⟨hCD s e h.1, ih h.2⟩

/-- A condition on the events alone beside another one. -/
theorem Meets.and_forall {P : E → Prop} {s : S} {es : List E} (h : Meets step C s es)
    (hP : ∀ e ∈ es, P e) : Meets step (fun s e => C s e ∧ P e) s es := by
  induction es generalizing s with
  | nil => trivial
  | cons e es ih =>
    exact ⟨⟨h.1, hP e List.mem_cons_self⟩, ih h.2 fun e he => hP e (List.mem_cons_of_mem _ he)⟩

/-- The invariant rule for an invariant that every step keeps. -/
theorem always_of_step (hstep : ∀ s e, I s → I (step s e)) {s : S} (hs : I s) (es : List E) :
    Always step I s es := by
  induction es generalizing s with
  | nil => exact hs
  | cons e es ih => exact ⟨hs, ih (hstep s e hs)⟩

/-- **The sharp invariant rule.**  When a step from a state satisfying `I` keeps
`I` exactly under `C`, a run keeps it exactly when all its steps meet `C`. -/
theorem always_iff_meets (hstep : ∀ s e, I s → (I (step s e) ↔ C s e)) {s : S} {es : List E}
    (hs : I s) : Always step I s es ↔ Meets step C s es := by
  induction es generalizing s with
  | nil => exact ⟨fun _ => trivial, fun _ => hs⟩
  | cons e es ih =>
    constructor
    · rintro ⟨-, hrest⟩
      have hnext : I (step s e) := hrest.head
      exact ⟨(hstep s e hs).mp hnext, (ih hnext).mp hrest⟩
    · rintro ⟨hc, hrest⟩
      exact ⟨hs, (ih ((hstep s e hs).mpr hc)).mpr hrest⟩

/-- A guarantee of single steps, given by an invariant, holds of every step of a
run along which the invariant holds. -/
theorem Always.meets (hstep : ∀ s e, I s → C s e → D s e) {s : S} {es : List E}
    (h : Always step I s es) (hC : Meets step C s es) : Meets step D s es := by
  induction es generalizing s with
  | nil => trivial
  | cons e es ih => exact ⟨hstep s e h.1 hC.1, ih h.2 hC.2⟩

/-- A guarantee that the invariant alone gives. -/
theorem Always.meets_of (hstep : ∀ s e, I s → D s e) {s : S} {es : List E}
    (h : Always step I s es) : Meets step D s es := by
  induction es generalizing s with
  | nil => trivial
  | cons e es ih => exact ⟨hstep s e h.1, ih h.2⟩

/-! ## Infinite runs -/

/-- The states of the run whose event at time `t` is `ev t`. -/
def states (step : S → E → S) (s : S) (ev : Nat → E) : Nat → S
  | 0 => s
  | t + 1 => step (states step s ev t) (ev t)

/-- The invariant rule along an infinite run. -/
theorem states_of_meets (hstep : ∀ s e, I s → C s e → I (step s e)) {s : S} {ev : Nat → E}
    (hs : I s) (hC : ∀ t, C (states step s ev t) (ev t)) (t : Nat) : I (states step s ev t) := by
  induction t with
  | zero => exact hs
  | succ t ih => exact hstep _ _ ih (hC t)

/-- **Waiting.**  What lasts until something happens still holds when it happens. -/
theorem wait {P Q : Nat → Prop} (hlast : ∀ t, P t → ¬ Q t → P (t + 1)) {t : Nat} (ht : P t)
    (hQ : ∃ u, t ≤ u ∧ Q u) : ∃ u, t ≤ u ∧ P u ∧ Q u := by
  obtain ⟨u, htu, hu⟩ := hQ
  obtain ⟨k, rfl⟩ := Nat.exists_eq_add_of_le htu
  -- on the time that is left
  induction k generalizing t with
  | zero => exact ⟨t, Nat.le_refl t, ht, hu⟩
  | succ k ih =>
    by_cases hnow : Q t
    · exact ⟨t, Nat.le_refl t, ht, hnow⟩
    · have hu' : Q (t + 1 + k) := by
        rw [Nat.add_assoc, Nat.add_comm 1 k]
        exact hu
      obtain ⟨v, htv, hv⟩ := ih (hlast t ht hnow) (Nat.le_add_right _ _) hu'
      exact ⟨v, by omega, hv⟩

/-- What no event changes any more after time `t`. -/
theorem states_const {s : S} {ev : Nat → E} {t : Nat}
    (h : ∀ u, t ≤ u → step (states step s ev t) (ev u) = states step s ev t) {u : Nat}
    (hu : t ≤ u) : states step s ev u = states step s ev t := by
  induction u, hu using Nat.le_induction with
  | base => rfl
  | succ u hu ih =>
    show step (states step s ev u) (ev u) = _
    rw [ih, h u hu]

end Runs
