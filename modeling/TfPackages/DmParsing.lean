import TfPackages.CStrings
import Mathlib.Data.List.Induction
import Mathlib.Logic.Function.Basic

/-! # Splitting lines in the device-manager client

`split_line` collects the tokens of `strtok` in an array that it enlarges as
needed, and counts them in a `uint8_t`.  The counter is also the index of the
next slot, so that the 257th token goes into slot 0 again.  `splitTokens_tokens`
says what the array holds in the end: with `n` tokens, slot `i` below `n % 256`
has the token that many places into the last incomplete round of 256, and the
slot `n % 256` is null.  `splitTokens_token?` is the case of a line with fewer
tokens, where each is in its own slot.
-/
namespace TfPackages.Dm

/-- An element of the token array.  A token carries its number in the order in
which `strtok` found them; in the source it is a pointer into the line. -/
inductive Slot where
  | unset
  | null
  | token (num : Nat) (text : List UInt8)
deriving DecidableEq, Repr

/-- `splited_line_t`. -/
structure SplitedLine where
  tokens : UInt8 → Slot
  splitLineMax : UInt8

/-- The body of the loop of `split_line`. -/
def storeToken (s : SplitedLine) (t : List UInt8 × Nat) : SplitedLine where
  tokens := Function.update s.tokens s.splitLineMax (.token t.2 t.1)
  splitLineMax := s.splitLineMax + 1

/-- `split_line`, for the tokens that `strtok` finds. -/
def splitTokens (toks : List (List UInt8)) : SplitedLine :=
  let s := toks.zipIdx.foldl storeToken ⟨fun _ => .unset, 0⟩
  { tokens := Function.update s.tokens s.splitLineMax .null
    splitLineMax := s.splitLineMax - 1 }

/-- `split_line`. -/
def splitLine (line : List UInt8) (delim : UInt8) : SplitedLine :=
  splitTokens (CStrings.tokens delim line)

/-- `replaceSymbols`. -/
def replaceSymbols (str : List UInt8) (oldSym newSym : UInt8) : List UInt8 :=
  str.map fun c => if c = oldSym then newSym else c

theorem replaceSymbols_append (s t : List UInt8) (x y : UInt8) :
    replaceSymbols (s ++ t) x y = replaceSymbols s x y ++ replaceSymbols t x y :=
  List.map_append

theorem replaceSymbols_cons (c : UInt8) (s : List UInt8) (x y : UInt8) :
    replaceSymbols (c :: s) x y = (if c = x then y else c) :: replaceSymbols s x y :=
  rfl

theorem replaceSymbols_of_not_mem {s : List UInt8} {x : UInt8} (h : x ∉ s) (y : UInt8) :
    replaceSymbols s x y = s := by
  have hmap : s.map (fun c => if c = x then y else c) = s.map id := by
    refine List.map_congr_left fun c hc => if_neg ?_
    rintro rfl
    exact h hc
  rw [replaceSymbols, hmap, List.map_id]

/-! ## The token array -/

theorem ofNat_mod (n : Nat) : UInt8.ofNat (n % 256) = UInt8.ofNat n := by
  apply UInt8.toNat_inj.mp
  simp

theorem ofNat_ne_of_lt {i n : Nat} (hi : i < n % 256) : UInt8.ofNat i ≠ UInt8.ofNat n := by
  intro h
  have := congrArg UInt8.toNat h
  simp only [UInt8.toNat_ofNat'] at this
  omega

/-- What the loop of `split_line` has stored after the tokens `toks`. -/
theorem foldl_storeToken (toks : List (List UInt8)) :
    let s := toks.zipIdx.foldl storeToken ⟨fun _ => .unset, 0⟩
    s.splitLineMax = UInt8.ofNat toks.length ∧
      ∀ i, i < toks.length % 256 → ∃ t, toks[toks.length - toks.length % 256 + i]? = some t ∧
        s.tokens (UInt8.ofNat i) = .token (toks.length - toks.length % 256 + i) t := by
  induction toks using List.reverseRecOn with
  | nil => exact ⟨rfl, fun i hi => by simp at hi⟩
  | append_singleton toks t ih =>
    obtain ⟨hmax, hslots⟩ := ih
    simp only [List.zipIdx_append, List.foldl_append, List.zipIdx_singleton, List.foldl_cons,
      List.foldl_nil, Nat.zero_add, List.length_append, List.length_singleton] at hmax hslots ⊢
    refine ⟨?_, fun i hi => ?_⟩
    · rw [storeToken, hmax, UInt8.ofNat_add]
      rfl
    · -- the new token opens a round, or extends the last one
      have hbase : toks.length + 1 - (toks.length + 1) % 256 = toks.length - toks.length % 256 := by
        omega
      rw [hbase]
      by_cases hlast : i = toks.length % 256
      · subst hlast
        have hpos : toks.length - toks.length % 256 + toks.length % 256 = toks.length := by omega
        refine ⟨t, ?_, ?_⟩
        · rw [hpos]
          simp
        · simp only [storeToken, hmax]
          rw [ofNat_mod, Function.update_self, hpos]
      · obtain ⟨u, hu, hslot⟩ := hslots i (by omega)
        refine ⟨u, ?_, ?_⟩
        · rw [List.getElem?_append_left (List.getElem?_eq_some_iff.mp hu).1, hu]
        · simp only [storeToken, hmax]
          rw [Function.update_of_ne (ofNat_ne_of_lt (by omega)), hslot]

/-- **The array `split_line` leaves.** -/
theorem splitTokens_tokens (toks : List (List UInt8)) {i : Nat} (hi : i < toks.length % 256) :
    ∃ t, toks[toks.length - toks.length % 256 + i]? = some t ∧
      (splitTokens toks).tokens (UInt8.ofNat i) =
        .token (toks.length - toks.length % 256 + i) t := by
  obtain ⟨hmax, hslots⟩ := foldl_storeToken toks
  obtain ⟨t, ht, hslot⟩ := hslots i hi
  refine ⟨t, ht, ?_⟩
  simp only [splitTokens, hmax]
  rw [Function.update_of_ne (ofNat_ne_of_lt hi), hslot]

/-- The token in a slot; without one the pointer is null, or it was never set. -/
def SplitedLine.token? (s : SplitedLine) (i : Nat) : Option (List UInt8) :=
  match s.tokens (UInt8.ofNat i) with
  | .token _ t => some t
  | _ => none

/-- **The array of a short line**: each token is in its own slot. -/
theorem splitTokens_token? {toks : List (List UInt8)} (hlen : toks.length < 256) {i : Nat}
    (hi : i < 256) : (splitTokens toks).token? i = toks[i]? := by
  have hfold : ∀ l : List (List UInt8), l.length < 256 → ∀ j, l.length ≤ j → j < 256 →
      (l.zipIdx.foldl storeToken ⟨fun _ => .unset, 0⟩).tokens (UInt8.ofNat j) = .unset := by
    intro l
    induction l using List.reverseRecOn with
    | nil => exact fun _ j _ _ => rfl
    | append_singleton l t ih =>
      intro hl j hj hj'
      rw [List.length_append, List.length_singleton] at hl hj
      have hne : UInt8.ofNat j ≠ UInt8.ofNat l.length := by
        rw [Ne, ← UInt8.toNat_inj, UInt8.toNat_ofNat', UInt8.toNat_ofNat']
        omega
      rw [List.zipIdx_append, List.foldl_append, List.zipIdx_singleton, List.foldl_cons,
        List.foldl_nil, storeToken, (foldl_storeToken l).1]
      dsimp only
      rw [Function.update_of_ne hne]
      exact ih (by omega) j (by omega) hj'
  unfold SplitedLine.token?
  by_cases hlt : i < toks.length
  · obtain ⟨t, ht, hslot⟩ := splitTokens_tokens toks (i := i) (by omega)
    rw [Nat.mod_eq_of_lt hlen, Nat.sub_self, Nat.zero_add] at ht
    rw [hslot, ht]
  · rw [List.getElem?_eq_none (by omega)]
    obtain ⟨hmax, -⟩ := foldl_storeToken toks
    simp only [splitTokens, hmax]
    by_cases heq : i = toks.length
    · rw [heq, Function.update_self]
    · have hne : UInt8.ofNat i ≠ UInt8.ofNat toks.length := by
        rw [Ne, ← UInt8.toNat_inj, UInt8.toNat_ofNat', UInt8.toNat_ofNat']
        omega
      rw [Function.update_of_ne hne, hfold toks hlen i (by omega) hi]

/-- Every token in the array was found in the line. -/
theorem mem_of_splitTokens {toks : List (List UInt8)} {i : UInt8} {num : Nat} {t : List UInt8}
    (h : (splitTokens toks).tokens i = .token num t) : t ∈ toks := by
  have hfold : ∀ (l : List (List UInt8 × Nat)) (s : SplitedLine),
      (∀ j n u, s.tokens j = .token n u → u ∈ toks) → (∀ p ∈ l, p.1 ∈ toks) →
      ∀ j n u, (l.foldl storeToken s).tokens j = .token n u → u ∈ toks := by
    intro l
    induction l with
    | nil => exact fun s hs _ => hs
    | cons p l ih =>
      intro s hs hl
      refine ih (storeToken s p) ?_ fun q hq => hl q (List.mem_cons_of_mem _ hq)
      intro j n u hu
      by_cases hj : j = s.splitLineMax
      · simp only [hj, storeToken, Function.update_self] at hu
        cases hu
        exact hl p List.mem_cons_self
      · simp only [storeToken, Function.update_of_ne hj] at hu
        exact hs j n u hu
  simp only [splitTokens] at h
  by_cases hi : i = (toks.zipIdx.foldl storeToken ⟨fun _ => .unset, 0⟩).splitLineMax
  · rw [hi, Function.update_self] at h
    cases h
  · rw [Function.update_of_ne hi] at h
    refine hfold toks.zipIdx _ (fun j n u hu => by cases hu) (fun p hp => ?_) i num t h
    exact List.fst_mem_of_mem_zipIdx hp

theorem splitTokens_null (toks : List (List UInt8)) :
    (splitTokens toks).tokens (UInt8.ofNat toks.length) = .null := by
  obtain ⟨hmax, -⟩ := foldl_storeToken toks
  simp only [splitTokens, hmax, Function.update_self]

theorem splitTokens_splitLineMax (toks : List (List UInt8)) :
    (splitTokens toks).splitLineMax = UInt8.ofNat toks.length - 1 := by
  obtain ⟨hmax, -⟩ := foldl_storeToken toks
  simp only [splitTokens, hmax]

/-- The number of slots a loop up to `splitLineMax` visits: the incomplete round,
or all of them when there is none. -/
theorem splitTokens_visited (toks : List (List UInt8)) :
    (splitTokens toks).splitLineMax.toNat + 1 =
      if toks.length % 256 = 0 then 256 else toks.length % 256 := by
  rw [splitTokens_splitLineMax, UInt8.toNat_sub]
  simp only [UInt8.toNat_ofNat', UInt8.toNat_one]
  split <;> omega

/-! ## What is read last -/

/-- The last value that is read, when each thing read overwrites what was read
before. -/
def lastRead {α β : Type} (r : α → Option β) (xs : List α) : Option β := (xs.filterMap r).getLast?

section
variable {α β : Type} (r : α → Option β)

theorem lastRead_append (xs ys : List α) :
    lastRead r (xs ++ ys) = (lastRead r ys).or (lastRead r xs) := by
  rw [lastRead, List.filterMap_append, List.getLast?_append]
  rfl

theorem lastRead_cons (x : α) (xs : List α) :
    lastRead r (x :: xs) = (lastRead r xs).or (r x) := by
  have hone : lastRead r [x] = r x := by
    rw [lastRead, List.filterMap_cons]
    cases r x <;> rfl
  rw [← List.singleton_append, lastRead_append, hone]

theorem lastRead_eq_none_iff (xs : List α) : lastRead r xs = none ↔ ∀ x ∈ xs, r x = none := by
  rw [lastRead, List.getLast?_eq_none_iff, List.filterMap_eq_nil_iff]

end

end TfPackages.Dm
