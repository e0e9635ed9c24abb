import TfPackages.DmParsing
import TfPackages.Tokens
import Mathlib.Data.List.Sort

/-! # The token array of a split line

`split_line` with any set of delimiters, and with the array it really has: 64
pointers, and 64 more each time the count reaches the size of the array.  A write
behind the array is `none`.

The count is a `uint8_t` that is compared with the size, used as the index of the
next pointer and decremented at the end.  So no write misses the array, but only
with 1 to 255 tokens does the result say what the callers read off it.
-/
namespace TfPackages.Dm

/-- `DM_TOK_BUFSIZE`. -/
def dmTokBufsize : Nat := 64

/-- An element of `tokens`.  A token is a pointer into the line; the text is what
is found there, since `strtok` ends it with a NUL. -/
inductive Pointer where
  | unset
  | null
  | token (pos : Nat) (text : List UInt8)
deriving DecidableEq, Repr

/-- `splited_line_t` with the array that is allocated. -/
structure TokenArray where
  tokens : List Pointer
  splitLineMax : UInt8
deriving DecidableEq, Repr

/-- `tokens[splitLineMax] = p`, if that is inside the array. -/
def TokenArray.store (a : TokenArray) (p : Pointer) : Option TokenArray :=
  if a.splitLineMax.toNat < a.tokens.length then
    some { a with tokens := a.tokens.set a.splitLineMax.toNat p }
  else none

/-- The body of the loop of `split_line`. -/
def addToken (a : TokenArray) (token : Nat × List UInt8) : Option TokenArray := do
  let a ← a.store (.token token.1 token.2)
  let splitLineMax := a.splitLineMax + 1
  if splitLineMax.toNat ≥ a.tokens.length then
    some ⟨a.tokens ++ List.replicate dmTokBufsize .unset, splitLineMax⟩
  else some ⟨a.tokens, splitLineMax⟩

/-- The array `malloc` gives. -/
def emptyArray : TokenArray := ⟨List.replicate dmTokBufsize .unset, 0⟩

/-- `split_line`, with the characters of `delim` as delimiters. -/
def splitLineAt (line delim : List UInt8) : Option TokenArray := do
  let a ← (Tokens.runs (delim.contains ·) 0 line).foldlM addToken emptyArray
  let a ← a.store .null
  some { a with splitLineMax := a.splitLineMax - 1 }

/-! ## What the callers assume -/

/-- Each token is in its own place. -/
def TokenArray.Holds (a : TokenArray) (ts : List (Nat × List UInt8)) : Prop :=
  ∀ (i : Nat) (t : Nat × List UInt8), ts[i]? = some t → a.tokens[i]? = some (.token t.1 t.2)

/-- The array holds the maximal runs without delimiter, in order, and a null
pointer behind them, and `splitLineMax` is the index of the last one. -/
structure SplitsInto (line delim : List UInt8) (a : TokenArray)
    (ts : List (Nat × List UInt8)) : Prop where
  runs : ∀ i t, (i, t) ∈ ts ↔ Tokens.IsRun (delim.contains ·) line i t
  ordered : ts.Pairwise fun s t => s.1 < t.1
  stored : a.Holds ts
  null : a.tokens[ts.length]? = some .null
  count : a.splitLineMax.toNat + 1 = ts.length

/-- `split_line` is a correct tokenizer for this line: it writes only to its array,
and leaves there what the callers assume. -/
def Tokenizes (line delim : List UInt8) : Prop :=
  ∃ a, splitLineAt line delim = some a ∧ ∃ ts, SplitsInto line delim a ts

/-! ## The loop -/

/-- What the loop keeps: the next write is inside the array. -/
theorem addToken_eq_some {a : TokenArray} (h : a.splitLineMax.toNat < a.tokens.length)
    (t : Nat × List UInt8) :
    ∃ a', addToken a t = some a' ∧ a'.splitLineMax = a.splitLineMax + 1 ∧
      a'.splitLineMax.toNat < a'.tokens.length ∧
      (∀ i < a.tokens.length, a'.tokens[i]? =
        if i = a.splitLineMax.toNat then some (.token t.1 t.2) else a.tokens[i]?) ∧
      ∀ i, a.tokens.length ≤ i → a'.tokens[i]? = none ∨ a'.tokens[i]? = some .unset := by
  have hset : ∀ i < a.tokens.length,
      (a.tokens.set a.splitLineMax.toNat (.token t.1 t.2))[i]? =
        if i = a.splitLineMax.toNat then some (.token t.1 t.2) else a.tokens[i]? := by
    intro i hi
    rw [List.getElem?_set]
    by_cases heq : a.splitLineMax.toNat = i
    · rw [if_pos heq, if_pos h, if_pos heq.symm]
    · rw [if_neg heq, if_neg fun h => heq h.symm]
  have hmax : (a.splitLineMax + 1).toNat ≤ a.splitLineMax.toNat + 1 := by
    rw [UInt8.toNat_add]
    exact Nat.mod_le _ _
  simp only [addToken, TokenArray.store, if_pos h, Option.bind_eq_bind, Option.bind_some,
    List.length_set]
  split
  · refine ⟨_, rfl, rfl, ?_, fun i hi => ?_, fun i hi => ?_⟩
    · simp only [List.length_append, List.length_set, List.length_replicate, dmTokBufsize]
      omega
    · simp only
      rw [List.getElem?_append_left (by simpa using hi), hset i hi]
    · simp only
      rw [List.getElem?_append_right (by simpa using hi), List.getElem?_replicate]
      split
      · exact .inr rfl
      · exact .inl rfl
  · refine ⟨_, rfl, rfl, ?_, hset, fun i hi => .inl ?_⟩
    · simp only [List.length_set]
      omega
    · rw [List.getElem?_eq_none_iff, List.length_set]
      exact hi

/-- The array after the loop.  No write has missed it; up to 255 tokens are each in
their own place. -/
theorem foldlM_addToken (ts : List (Nat × List UInt8)) :
    ∃ a, ts.foldlM addToken emptyArray = some a ∧ a.splitLineMax = UInt8.ofNat ts.length ∧
      a.splitLineMax.toNat < a.tokens.length ∧
      (ts.length < 256 → a.Holds ts) := by
  induction ts using List.reverseRecOn with
  | nil => exact ⟨emptyArray, rfl, rfl, by decide, fun _ i t ht => by simp at ht⟩
  | append_singleton ts u ih =>
    obtain ⟨a, ha, hmax, hroom, hstored⟩ := ih
    obtain ⟨a', ha', hmax', hroom', hslots, -⟩ := addToken_eq_some hroom u
    refine ⟨a', ?_, ?_, hroom', fun hlen i t ht => ?_⟩
    · rw [List.foldlM_append, ha]
      simp [ha']
    · rw [hmax', hmax, List.length_append, List.length_singleton, UInt8.ofNat_add]
      rfl
    · rw [List.length_append, List.length_singleton] at hlen
      have hcount : a.splitLineMax.toNat = ts.length := by
        rw [hmax, UInt8.toNat_ofNat', Nat.mod_eq_of_lt (by omega)]
      rw [hcount] at hslots hroom
      rw [List.getElem?_append] at ht
      split at ht
      · rename_i hi
        rw [hslots i (by omega), if_neg (by omega)]
        exact hstored (by omega) i t ht
      · rename_i hi
        have hlast : i - ts.length = 0 := by
          by_contra hne
          rw [List.getElem?_eq_none (by simp; omega)] at ht
          cases ht
        rw [hlast, List.getElem?_cons_zero, Option.some.injEq] at ht
        rw [hslots i (by omega), if_pos (by omega), ht]

/-- **No write misses the array**, whatever the line. -/
theorem splitLineAt_eq_some (line delim : List UInt8) :
    ∃ a, splitLineAt line delim = some a ∧
      a.splitLineMax = UInt8.ofNat (Tokens.runs (delim.contains ·) 0 line).length - 1 ∧
      a.tokens[(Tokens.runs (delim.contains ·) 0 line).length % 256]? = some .null ∧
      ((Tokens.runs (delim.contains ·) 0 line).length < 256 →
        a.Holds (Tokens.runs (delim.contains ·) 0 line)) := by
  unfold splitLineAt
  generalize Tokens.runs (delim.contains ·) 0 line = ts
  obtain ⟨a, ha, hmax, hroom, hstored⟩ := foldlM_addToken ts
  have hcount : a.splitLineMax.toNat = ts.length % 256 := by rw [hmax, UInt8.toNat_ofNat']
  refine ⟨⟨a.tokens.set a.splitLineMax.toNat .null, a.splitLineMax - 1⟩, ?_, ?_, ?_, ?_⟩
  · simp only [ha, TokenArray.store, if_pos hroom, Option.bind_eq_bind, Option.bind_some]
  · rw [hmax]
  · rw [← hcount, List.getElem?_set_self hroom]
  · intro hlen i t ht
    have hi := (List.getElem?_eq_some_iff.mp ht).1
    rw [List.getElem?_set_ne (by omega)]
    exact hstored hlen i t ht

/-- The tokens that fit the description are those `strtok` finds. -/
theorem SplitsInto.eq_runs {line delim : List UInt8} {a : TokenArray}
    {ts : List (Nat × List UInt8)} (h : SplitsInto line delim a ts) :
    ts = Tokens.runs (delim.contains ·) 0 line := by
  have hruns := Tokens.pairwise_runs (d := (delim.contains ·)) line 0
  have hnodup : ∀ {l : List (Nat × List UInt8)}, l.Pairwise (fun s t => s.1 < t.1) → l.Nodup :=
    fun hl => hl.imp fun hlt heq => by simp [heq] at hlt
  have hperm : ts.Perm (Tokens.runs (delim.contains ·) 0 line) := by
    refine (List.perm_ext_iff_of_nodup (hnodup h.ordered) (hnodup hruns)).mpr ?_
    rintro ⟨i, t⟩
    rw [h.runs, Tokens.mem_runs_iff]
    simp
  exact hperm.eq_of_pairwise (fun s t _ _ hst hts => absurd hst (by omega)) h.ordered hruns

/-- The array is right exactly for lines with 1 to 255 tokens. -/
theorem tokenizes_iff_length (line delim : List UInt8) :
    Tokenizes line delim ↔ 1 ≤ (Tokens.tokens (delim.contains ·) line).length ∧
      (Tokens.tokens (delim.contains ·) line).length ≤ 255 := by
  obtain ⟨a, ha, hmax, hnull, hstored⟩ := splitLineAt_eq_some line delim
  rw [← Tokens.length_runs 0]
  have hcount := congrArg UInt8.toNat hmax
  rw [UInt8.toNat_sub, UInt8.toNat_ofNat', UInt8.toNat_one] at hcount
  constructor
  · rintro ⟨a', ha', ts, h⟩
    rw [ha, Option.some.injEq] at ha'
    subst ha'
    have hts := h.eq_runs
    have hk := h.count
    rw [hts] at hk
    rw [hcount] at hk
    refine ⟨by omega, ?_⟩
    by_contra hlong
    -- with 256 tokens the null pointer has overwritten the first one
    have hall : (Tokens.runs (delim.contains ·) 0 line).length = 256 := by omega
    rw [hall, Nat.mod_self] at hnull
    have hfirst := List.getElem?_eq_getElem
      (l := Tokens.runs (delim.contains ·) 0 line) (i := 0) (by omega)
    have hstored := h.stored
    rw [hts] at hstored
    rw [hstored 0 _ hfirst] at hnull
    cases hnull
  · rintro ⟨hpos, hlen⟩
    refine ⟨a, ha, Tokens.runs (delim.contains ·) 0 line, fun i t => ?_,
      Tokens.pairwise_runs line 0, hstored (by omega), ?_, ?_⟩
    · rw [Tokens.mem_runs_iff]
      simp
    · rwa [Nat.mod_eq_of_lt (by omega)] at hnull
    · rw [hcount]
      omega

/-! ## One delimiter -/

/-- The tokens at one delimiter. -/
theorem tokens_eq (d : UInt8) (s : List UInt8) :
    CStrings.tokens d s = Tokens.tokens ([d].contains ·) s := by
  have hcons : ∀ s, CStrings.tokens d (d :: s) = CStrings.tokens d s := by
    intro s
    have h := CStrings.tokens_append_delim d [] s
    rwa [List.nil_append, show CStrings.tokens d [] = [] from rfl, List.nil_append] at h
  induction s using Tokens.induction_on (d := ([d].contains ·)) with
  | nil => rw [Tokens.tokens_nil]; rfl
  | delim c s hc ih =>
    rw [Tokens.tokens_delim hc, ← ih]
    obtain rfl : c = d := by simpa using hc
    exact hcons s
  | run t post hne hfree hpost ih =>
    rw [Tokens.tokens_run hne hfree hpost, ← ih]
    have hnot : d ∉ t := fun hmem => by simpa using hfree d hmem
    cases post with
    | nil => rw [List.append_nil, CStrings.tokens_of_not_mem hnot hne]; rfl
    | cons c post =>
      obtain rfl : c = d := by simpa using hpost c rfl
      rw [CStrings.tokens_append_delim, CStrings.tokens_of_not_mem hnot hne, hcons]
      rfl

/-- The text a pointer leads to. -/
def Pointer.text? : Pointer → Option (List UInt8)
  | .token _ t => some t
  | _ => none

/-- The text in a slot. -/
def Slot.text? : Slot → Option (List UInt8)
  | .token _ t => some t
  | _ => none

/-- The array and the slots hold the same texts. -/
structure SameTexts (a : TokenArray) (s : SplitedLine) : Prop where
  room : a.splitLineMax.toNat < a.tokens.length
  count : a.splitLineMax = s.splitLineMax
  text : ∀ i : UInt8, (a.tokens[i.toNat]?).bind Pointer.text? = (s.tokens i).text?

theorem SameTexts.addToken {a : TokenArray} {s : SplitedLine} (h : SameTexts a s)
    (t : Nat × List UInt8) (num : Nat) :
    ∃ a', Dm.addToken a t = some a' ∧ SameTexts a' (storeToken s (t.2, num)) := by
  obtain ⟨a', ha', hmax, hroom, hslots, hnew⟩ := addToken_eq_some h.room t
  refine ⟨a', ha', hroom, by rw [hmax, h.count]; rfl, fun i => ?_⟩
  simp only [storeToken, Function.update_apply]
  by_cases hi : i.toNat < a.tokens.length
  · rw [hslots _ hi]
    simp only [UInt8.toNat_inj, h.count]
    split
    · rfl
    · exact h.text i
  · have hne : i ≠ s.splitLineMax := by
      rintro rfl
      exact hi (h.count ▸ h.room)
    rw [if_neg hne, ← h.text i, List.getElem?_eq_none (l := a.tokens) (by omega)]
    rcases hnew i.toNat (by omega) with hn | hn
    · rw [hn]
    · rw [hn]
      rfl

theorem SameTexts.foldlM {a : TokenArray} {s : SplitedLine} (h : SameTexts a s)
    (ts : List (Nat × List UInt8)) (k : Nat) :
    ∃ a', ts.foldlM Dm.addToken a = some a' ∧
      SameTexts a' (((ts.map Prod.snd).zipIdx k).foldl storeToken s) := by
  induction ts generalizing a s k with
  | nil => exact ⟨a, rfl, h⟩
  | cons t ts ih =>
    obtain ⟨a₁, ha₁, h₁⟩ := h.addToken t k
    obtain ⟨a₂, ha₂, h₂⟩ := ih h₁ (k + 1)
    refine ⟨a₂, ?_, h₂⟩
    rw [List.foldlM_cons, ha₁]
    exact ha₂

/-- `splitLine` is `split_line` with one delimiter: the array holds the texts of the
slots. -/
theorem splitLineAt_singleton (line : List UInt8) (d : UInt8) :
    ∃ a, splitLineAt line [d] = some a ∧ a.splitLineMax = (splitLine line d).splitLineMax ∧
      ∀ i : UInt8, (a.tokens[i.toNat]?).bind Pointer.text? =
        ((splitLine line d).tokens i).text? := by
  have hempty : SameTexts emptyArray ⟨fun _ => .unset, 0⟩ := by
    refine ⟨by decide, rfl, fun i => ?_⟩
    rw [emptyArray, List.getElem?_replicate]
    split <;> rfl
  obtain ⟨a, ha, h⟩ := hempty.foldlM (Tokens.runs ([d].contains ·) 0 line) 0
  rw [Tokens.map_snd_runs, ← tokens_eq] at h
  refine ⟨⟨a.tokens.set a.splitLineMax.toNat .null, a.splitLineMax - 1⟩, ?_, ?_, fun i => ?_⟩
  · simp only [splitLineAt, ha, TokenArray.store, if_pos h.room, Option.bind_eq_bind,
      Option.bind_some]
  · simp only [splitLine, splitTokens, h.count]
  · simp only [splitLine, splitTokens, Function.update_apply]
    rw [List.getElem?_set]
    simp only [UInt8.toNat_inj, h.count]
    by_cases hi : i = (((CStrings.tokens d line).zipIdx 0).foldl storeToken
        ⟨fun _ => .unset, 0⟩).splitLineMax
    · rw [if_pos hi, if_pos hi.symm]
      split <;> rfl
    · rw [if_neg hi, if_neg fun hx => hi hx.symm]
      exact h.text i

/-! ## Every line -/

/-- **`split_line` is a correct tokenizer exactly for lines with 1 to 255 tokens.**
With one delimiter the array holds what `splitLine` says. -/
theorem tokenizes_iff (line delim : List UInt8) :
    (Tokenizes line delim ↔ 1 ≤ (Tokens.tokens (delim.contains ·) line).length ∧
      (Tokens.tokens (delim.contains ·) line).length ≤ 255) ∧
      ∀ d, delim = [d] → ∃ a, splitLineAt line delim = some a ∧
        a.splitLineMax = (splitLine line d).splitLineMax ∧
        ∀ i : UInt8, (a.tokens[i.toNat]?).bind Pointer.text? =
          ((splitLine line d).tokens i).text? := by
  refine ⟨tokenizes_iff_length line delim, ?_⟩
  rintro d rfl
  exact splitLineAt_singleton line d

/-- A line without tokens: `splitLineMax` is 255 instead of -1. -/
theorem empty_line_miscounted : ¬ Tokenizes [] [0x20] := by
  rintro ⟨a, ha, ts, h⟩
  have hts : ts = [] := by rw [h.eq_runs, Tokens.runs_nil]
  have hcount := h.count
  rw [hts] at hcount
  cases hcount

end TfPackages.Dm
