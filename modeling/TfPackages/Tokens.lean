import Mathlib.Data.List.TakeWhile

/-! # Tokens of a text

A text with a set of delimiters, given as a test `d`.  Its tokens are the maximal
runs without delimiter, and `runs` finds them the way `strtok` does: it skips
delimiters, takes what comes before the next one, and goes on behind it.  A run
is kept with the position where it begins.

`mem_runs_iff` and `pairwise_runs` say what is found: exactly the maximal runs,
from left to right.  `tokens_delim` and `tokens_run` are the two steps by which
the tokens of a text are computed.
-/
namespace Tokens
variable {α : Type} (d : α → Bool)

/-- One call of `strtok`, where the text from position `off` on is left: the token
with its position, and what is left after it. -/
def strtok (off : Nat) (s : List α) : Option ((Nat × List α) × Nat × List α) :=
  let start := off + (s.takeWhile d).length
  let s := s.dropWhile d
  if s.isEmpty then none
  else
    let t := s.takeWhile (!d ·)
    some ((start, t), start + t.length + 1, (s.dropWhile (!d ·)).drop 1)

theorem length_lt_of_strtok {off off' : Nat} {s s' : List α} {t : Nat × List α}
    (h : strtok d off s = some (t, off', s')) : s'.length < s.length := by
  unfold strtok at h
  simp only at h
  split at h
  · cases h
  · rename_i hne
    have hdrop : (s.dropWhile d).length ≤ s.length := (List.dropWhile_suffix d).length_le
    have hrest : ((s.dropWhile d).dropWhile (!d ·)).length ≤ (s.dropWhile d).length :=
      (List.dropWhile_suffix _).length_le
    cases h
    cases hs : s.dropWhile d with
    | nil => simp [hs] at hne
    | cons c u =>
      rw [hs] at hdrop hrest
      rw [List.length_drop]
      rw [List.length_cons] at hdrop hrest
      omega

/-- The tokens of a text that begins at position `off`, with their positions. -/
def runs (off : Nat) (s : List α) : List (Nat × List α) :=
  match _h : strtok d off s with
  | none => []
  | some (t, off', s') => t :: runs off' s'
termination_by s.length
decreasing_by exact length_lt_of_strtok d _h

/-- The tokens of a text. -/
def tokens (s : List α) : List (List α) := (runs d 0 s).map Prod.snd

/-- A maximal run without delimiter, at position `i`. -/
structure IsRun (s : List α) (i : Nat) (t : List α) : Prop where
  ne_nil : t ≠ []
  free : ∀ c ∈ t, d c = false
  maximal : ∃ pre post, s = pre ++ (t ++ post) ∧ pre.length = i ∧
    (∀ c ∈ pre.getLast?, d c = true) ∧ ∀ c ∈ post.head?, d c = true

variable {d}

/-! ## The two steps -/

theorem runs_nil (off : Nat) : runs d off [] = [] := by
  unfold runs
  rfl

/-- A delimiter is skipped. -/
theorem runs_delim {c : α} (hc : d c = true) (off : Nat) (s : List α) :
    runs d off (c :: s) = runs d (off + 1) s := by
  have hstep : strtok d off (c :: s) = strtok d (off + 1) s := by
    unfold strtok
    simp only [List.takeWhile_cons, List.dropWhile_cons, hc, if_true, List.length_cons]
    rw [Nat.add_comm _ 1, ← Nat.add_assoc]
  rw [runs, runs, hstep]

theorem takeWhile_free {t post : List α} (hfree : ∀ c ∈ t, d c = false)
    (hpost : ∀ c ∈ post.head?, d c = true) :
    (t ++ post).takeWhile (!d ·) = t ∧ (t ++ post).dropWhile (!d ·) = post := by
  have hall : ∀ c ∈ t, (!d c) = true := fun c hc => by rw [hfree c hc]; rfl
  rw [List.takeWhile_append_of_pos hall, List.dropWhile_append_of_pos hall]
  cases post with
  | nil => simp
  | cons c post =>
    have hc := hpost c rfl
    simp [hc]

/-- A run is a token. -/
theorem runs_run {t post : List α} (hne : t ≠ []) (hfree : ∀ c ∈ t, d c = false)
    (hpost : ∀ c ∈ post.head?, d c = true) (off : Nat) :
    runs d off (t ++ post) = (off, t) :: runs d (off + t.length) post := by
  obtain ⟨htake, hdrop⟩ := takeWhile_free hfree hpost
  obtain ⟨c, u, rfl⟩ := List.exists_cons_of_ne_nil hne
  have hc := hfree c List.mem_cons_self
  have hstep : strtok d off (c :: u ++ post) =
      some ((off, c :: u), off + (c :: u).length + 1, post.drop 1) := by
    have hskip : (c :: u ++ post).takeWhile d = [] ∧
        (c :: u ++ post).dropWhile d = c :: u ++ post := by
      simp [hc]
    unfold strtok
    simp only [hskip.1, hskip.2, htake, hdrop]
    rfl
  rw [runs, hstep]
  simp only
  congr 1
  -- the delimiter behind the token is left out either way
  cases post with
  | nil => rw [List.drop_nil, runs_nil, runs_nil]
  | cons e post =>
    rw [runs_delim (hpost e rfl)]
    rfl

/-- A text is empty, begins with a delimiter, or begins with a run. -/
theorem induction_on {P : List α → Prop} (s : List α) (nil : P [])
    (delim : ∀ c s, d c = true → P s → P (c :: s))
    (run : ∀ t post, t ≠ [] → (∀ c ∈ t, d c = false) → (∀ c ∈ post.head?, d c = true) →
      P post → P (t ++ post)) : P s := by
  induction hn : s.length using Nat.strong_induction_on generalizing s with
  | _ n ih =>
    cases s with
    | nil => exact nil
    | cons c s =>
      rw [List.length_cons] at hn
      by_cases hc : d c = true
      · exact delim c s hc (ih s.length (by omega) s rfl)
      · rw [Bool.not_eq_true] at hc
        have hsplit := List.takeWhile_append_dropWhile (p := (!d ·)) (l := c :: s)
        have hhead := List.head?_dropWhile_not (!d ·) (c :: s)
        have hfirst : (c :: s).takeWhile (!d ·) = c :: s.takeWhile (!d ·) := by simp [hc]
        have hlen := congrArg List.length hsplit
        rw [List.length_append, hfirst, List.length_cons, List.length_cons] at hlen
        have hpost := ih ((c :: s).dropWhile (!d ·)).length (by omega) _ rfl
        rw [← hsplit]
        refine run _ _ (by rw [hfirst]; simp) (fun e he => ?_) (fun e he => ?_) hpost
        · have hbool := List.mem_takeWhile_imp he
          simpa using hbool
        · rw [Option.mem_def.mp he] at hhead
          simpa using hhead

theorem map_snd_runs (off : Nat) (s : List α) : (runs d off s).map Prod.snd = tokens d s := by
  suffices h : ∀ off off', (runs d off s).map Prod.snd = (runs d off' s).map Prod.snd from h off 0
  induction s using induction_on (d := d) with
  | nil => simp [runs_nil]
  | delim c s hc ih =>
    intro off off'
    rw [runs_delim hc, runs_delim hc]
    exact ih _ _
  | run t post hne hfree hpost ih =>
    intro off off'
    rw [runs_run hne hfree hpost, runs_run hne hfree hpost, List.map_cons, List.map_cons,
      ih (off + t.length) (off' + t.length)]

theorem tokens_nil : tokens d [] = [] := by
  rw [tokens, runs_nil]
  rfl

theorem tokens_delim {c : α} (hc : d c = true) (s : List α) : tokens d (c :: s) = tokens d s := by
  rw [tokens, runs_delim hc, map_snd_runs]

theorem tokens_run {t post : List α} (hne : t ≠ []) (hfree : ∀ c ∈ t, d c = false)
    (hpost : ∀ c ∈ post.head?, d c = true) : tokens d (t ++ post) = t :: tokens d post := by
  rw [tokens, runs_run hne hfree hpost, List.map_cons, map_snd_runs]

theorem length_runs (off : Nat) (s : List α) : (runs d off s).length = (tokens d s).length := by
  rw [← map_snd_runs off, List.length_map]

/-- Delimiters in front change nothing. -/
theorem tokens_delims {pre : List α} (hpre : ∀ c ∈ pre, d c = true) (s : List α) :
    tokens d (pre ++ s) = tokens d s := by
  induction pre with
  | nil => rfl
  | cons c pre ih =>
    rw [List.cons_append, tokens_delim (hpre c List.mem_cons_self),
      ih fun e he => hpre e (List.mem_cons_of_mem _ he)]

/-- A character is a delimiter or part of a token. -/
theorem mem_tokens_of_mem {s : List α} {c : α} (h : c ∈ s) :
    d c = true ∨ ∃ t ∈ tokens d s, c ∈ t := by
  induction s using induction_on (d := d) with
  | nil => cases h
  | delim e s he ih =>
    rw [tokens_delim he]
    rcases List.mem_cons.mp h with rfl | h
    · exact .inl he
    · exact ih h
  | run t post hne hfree hpost ih =>
    rw [tokens_run hne hfree hpost]
    rcases List.mem_append.mp h with h | h
    · exact .inr ⟨t, List.mem_cons_self, h⟩
    · rcases ih h with hd | ⟨u, hu, hc⟩
      · exact .inl hd
      · exact .inr ⟨u, List.mem_cons_of_mem _ hu, hc⟩

/-- The first token of a text, and what is before and behind it. -/
theorem eq_append_of_tokens_cons {s t : List α} {ts : List (List α)} (h : tokens d s = t :: ts) :
    ∃ pre post, s = pre ++ (t ++ post) ∧ (∀ c ∈ pre, d c = true) ∧
      (∀ c ∈ post.head?, d c = true) ∧ tokens d post = ts := by
  induction s using induction_on (d := d) with
  | nil => rw [tokens_nil] at h; cases h
  | delim c s hc ih =>
    rw [tokens_delim hc] at h
    obtain ⟨pre, post, rfl, hpre, hpost, hts⟩ := ih h
    refine ⟨c :: pre, post, rfl, fun e he => ?_, hpost, hts⟩
    rcases List.mem_cons.mp he with rfl | he
    · exact hc
    · exact hpre e he
  | run u post hne hfree hpost ih =>
    rw [tokens_run hne hfree hpost, List.cons.injEq] at h
    obtain ⟨rfl, hts⟩ := h
    exact ⟨[], post, rfl, by simp, hpost, hts⟩

/-! ## The runs of a text -/

theorem not_isRun_nil (i : Nat) (t : List α) : ¬ IsRun d [] i t := by
  rintro ⟨hne, -, pre, post, h, -⟩
  have hnil := (List.append_eq_nil_iff.mp h.symm).2
  exact hne (List.append_eq_nil_iff.mp hnil).1

/-- Behind a delimiter the runs are those of the rest. -/
theorem isRun_delim {c : α} (hc : d c = true) (s : List α) (i : Nat) (t : List α) :
    IsRun d (c :: s) i t ↔ ∃ j, i = j + 1 ∧ IsRun d s j t := by
  constructor
  · rintro ⟨hne, hfree, pre, post, h, hi, hlast, hpost⟩
    cases pre with
    | nil =>
      obtain ⟨e, t, rfl⟩ := List.exists_cons_of_ne_nil hne
      rw [List.nil_append, List.cons_append, List.cons.injEq] at h
      have he := hfree e List.mem_cons_self
      rw [← h.1, hc] at he
      cases he
    | cons e pre =>
      rw [List.cons_append, List.cons.injEq] at h
      refine ⟨pre.length, hi.symm, hne, hfree, pre, post, h.2, rfl, fun x hx => ?_, hpost⟩
      refine hlast x ?_
      rw [List.getLast?_cons, Option.mem_def.mp hx]
      rfl
  · rintro ⟨j, rfl, hne, hfree, pre, post, rfl, hj, hlast, hpost⟩
    refine ⟨hne, hfree, c :: pre, post, rfl, by simp [hj], fun x hx => ?_, hpost⟩
    rw [List.getLast?_cons, Option.mem_def, Option.some.injEq] at hx
    cases hp : pre.getLast? with
    | none =>
      rw [hp] at hx
      exact hx ▸ hc
    | some y =>
      rw [hp] at hx
      exact hx ▸ hlast y hp

/-- A text that begins with a run has this one and those of the rest. -/
theorem isRun_run {t post : List α} (hne : t ≠ []) (hfree : ∀ c ∈ t, d c = false)
    (hpost : ∀ c ∈ post.head?, d c = true) (i : Nat) (u : List α) :
    IsRun d (t ++ post) i u ↔ i = 0 ∧ u = t ∨ ∃ j, i = t.length + j ∧ IsRun d post j u := by
  constructor
  · rintro ⟨hu, hufree, pre, post', h, hi, hlast, hpost'⟩
    by_cases hpre : pre = []
    · subst hpre
      rw [List.nil_append] at h
      have htake := (takeWhile_free hufree hpost').1
      rw [← h, (takeWhile_free hfree hpost).1] at htake
      exact .inl ⟨hi.symm, htake.symm⟩
    · -- the last byte before the run is a delimiter, so it is behind `t`
      have hle : t.length < pre.length := by
        by_contra hlt
        obtain ⟨pre', e, rfl⟩ := List.eq_nil_or_concat pre |>.resolve_left hpre
        rw [List.concat_eq_append] at h hlast hlt
        have he : d e = true := hlast e (by simp)
        have hmem : e ∈ t := by
          have hget := congrArg (fun l : List α => l[pre'.length]?) h
          rw [List.length_append, List.length_singleton] at hlt
          simp only [List.append_assoc, List.singleton_append, List.getElem?_append_right le_rfl,
            Nat.sub_self, List.getElem?_cons_zero] at hget
          rw [List.getElem?_append_left (by omega)] at hget
          exact List.mem_of_getElem? hget
        rw [hfree e hmem] at he
        cases he
      obtain ⟨pre', rfl⟩ : ∃ pre', pre = t ++ pre' := by
        obtain ⟨x, hx⟩ := List.prefix_of_prefix_length_le (List.prefix_append t post)
          (h ▸ List.prefix_append pre _) hle.le
        exact ⟨x, hx.symm⟩
      rw [List.append_assoc] at h
      refine .inr ⟨pre'.length, by rw [← hi, List.length_append], hu, hufree, pre', post',
        List.append_cancel_left h, rfl, fun x hx => hlast x ?_, hpost'⟩
      rw [List.getLast?_append, Option.mem_def.mp hx]
      rfl
  · rintro (⟨rfl, rfl⟩ | ⟨j, rfl, hu, hufree, pre, post', h, hj, hlast, hpost'⟩)
    · exact ⟨hne, hfree, [], post, rfl, rfl, by simp, hpost⟩
    · refine ⟨hu, hufree, t ++ pre, post', by rw [h, List.append_assoc], by simp [hj],
        fun x hx => ?_, hpost'⟩
      have hpre : pre ≠ [] := by
        rintro rfl
        obtain ⟨e, u, rfl⟩ := List.exists_cons_of_ne_nil hu
        have he := hpost e (by rw [h]; rfl)
        rw [hufree e List.mem_cons_self] at he
        cases he
      have hy := List.getLast?_eq_some_getLast hpre
      rw [List.getLast?_append, hy] at hx
      exact hlast x (by rw [hy]; exact hx)

/-- **Exactly the maximal runs are found.** -/
theorem mem_runs_iff (s : List α) (off k : Nat) (t : List α) :
    (k, t) ∈ runs d off s ↔ ∃ i, k = off + i ∧ IsRun d s i t := by
  induction s using induction_on (d := d) generalizing off with
  | nil => simp [runs_nil, not_isRun_nil]
  | delim c s hc ih =>
    rw [runs_delim hc, ih]
    simp only [isRun_delim hc]
    constructor
    · rintro ⟨i, rfl, h⟩
      exact ⟨i + 1, by omega, i, rfl, h⟩
    · rintro ⟨_, rfl, i, rfl, h⟩
      exact ⟨i, by omega, h⟩
  | run u post hne hfree hpost ih =>
    rw [runs_run hne hfree hpost, List.mem_cons, ih]
    simp only [isRun_run hne hfree hpost, Prod.mk.injEq]
    constructor
    · rintro (⟨rfl, rfl⟩ | ⟨i, rfl, h⟩)
      · exact ⟨0, rfl, .inl ⟨rfl, rfl⟩⟩
      · exact ⟨u.length + i, by omega, .inr ⟨i, rfl, h⟩⟩
    · rintro ⟨_, rfl, ⟨rfl, rfl⟩ | ⟨i, rfl, h⟩⟩
      · exact .inl ⟨rfl, rfl⟩
      · exact .inr ⟨i, by omega, h⟩

/-- The runs are found from left to right. -/
theorem pairwise_runs (s : List α) (off : Nat) :
    (runs d off s).Pairwise fun a b => a.1 < b.1 := by
  induction s using induction_on (d := d) generalizing off with
  | nil => simp [runs_nil]
  | delim c s hc ih =>
    rw [runs_delim hc]
    exact ih _
  | run t post hne hfree hpost ih =>
    rw [runs_run hne hfree hpost, List.pairwise_cons]
    refine ⟨fun b hb => ?_, ih _⟩
    obtain ⟨i, hi, -⟩ := (mem_runs_iff ..).mp hb
    have hlen := List.length_pos_iff.mpr hne
    omega

end Tokens
