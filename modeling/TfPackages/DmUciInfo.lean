import Mathlib.Data.List.Infix
import Mathlib.Data.List.Nodup
import TfPackages.DmParsing

/-! # The description and the location of the device

`getUCInfo` reads the output of `uci show system`, in pieces of at most 99 bytes.
A piece with `location` anywhere in it, in the name of the option or in its value,
fills `dev_loc`, and any other piece with `description` in it fills `dev_descr`.
The text is what is between the first and the second `=` of the piece, and the last
piece decides.

`reported_as_stored_iff` says when the two fields end up with what is stored.  If
no other option gets in the way, the text must not have a `=`, it must fit in the
first piece of its line, and the description must not contain `location`.
-/
namespace TfPackages.Dm
open CStrings

/-- An option of package `system`, with its value as `uci show` prints it. -/
structure UciOption where
  key : List UInt8
  value : List UInt8
  key_no_nul : 0 ∉ key
  value_no_nul : 0 ∉ value

/-- `key='value'` -/
def UciOption.text (o : UciOption) : List UInt8 := o.key ++ lit "='" ++ o.value ++ lit "'"

/-- `uci show system`. -/
def uciShow (options : List UciOption) : List UInt8 :=
  options.flatMap fun o => o.text ++ [0x0a]

/-- `removeCharacter`. -/
def removeCharacter (str : List UInt8) (removeChar : UInt8) : List UInt8 :=
  str.filter (· ≠ removeChar)

/-- `tokens[1]` of the piece up to the end of the line, without the quotes.  There
is no value if the pointer is null. -/
def valueOf? (output : List UInt8) : Option (List UInt8) :=
  ((splitLine output 0x3d).token? 1).map fun token =>
    removeCharacter (token.takeWhile (· ≠ 0x0a)) 0x27

/-- The two fields of the search message. -/
structure DevTexts where
  devDescr : List UInt8
  devLoc : List UInt8
deriving DecidableEq

/-- The body of the loop of `getUCInfo`; `none` if it uses a null pointer.  A field is
cleared before the text is copied to it. -/
def readUciPiece (s : DevTexts) (output : List UInt8) : Option DevTexts :=
  if lit "location" <:+: output then
    (valueOf? output).map fun value => { s with devLoc := strncpy 128 value }
  else if lit "description" <:+: output then
    (valueOf? output).map fun value => { s with devDescr := strncpy 128 value }
  else some s

/-- `getUCInfo`. -/
def getUCInfo (s : DevTexts) (stream : List UInt8) : Option DevTexts :=
  (pieces 99 [] stream).foldlM readUciPiece s

/-! ## Stored texts -/

def descriptionKey : List UInt8 := lit "system.@system[0].description"

def locationKey : List UInt8 := lit "system.@system[0].location"

/-- A text that can be stored. -/
structure StoredText (s : List UInt8) : Prop where
  no_newline : 0x0a ∉ s
  no_quote : 0x27 ∉ s
  length_le : s.length ≤ 127

/-- Package `system` with a description and a location among its options, in any
order. -/
structure SystemPackage where
  options : List UciOption
  nodup : (options.map UciOption.key).Nodup
  description : List UInt8
  location : List UInt8
  description_mem : ∃ o ∈ options, o.key = descriptionKey ∧ o.value = description
  location_mem : ∃ o ∈ options, o.key = locationKey ∧ o.value = location
  description_stored : StoredText description
  location_stored : StoredText location

/-- The two fields are filled with what is stored, whatever was in them. -/
def ReportedAsStored (p : SystemPackage) : Prop :=
  ∀ s : DevTexts, s.devDescr.length = 128 → s.devLoc.length = 128 →
    getUCInfo s (uciShow p.options) =
      some ⟨strncpy 128 p.description, strncpy 128 p.location⟩

/-! ## What is read -/

/-- The pieces of an option's line. -/
def UciOption.pieces (o : UciOption) : List (List UInt8) := CStrings.pieces 99 [] (o.text ++ [0x0a])

/-- What a piece says about the location. -/
def locationIn (output : List UInt8) : Option (List UInt8) :=
  if lit "location" <:+: output then valueOf? output else none

/-- What a piece says about the description. -/
def descriptionIn (output : List UInt8) : Option (List UInt8) :=
  if lit "location" <:+: output then none
  else if lit "description" <:+: output then valueOf? output
  else none

/-- A piece that names one of the two has something behind a `=`. -/
def HasValue (output : List UInt8) : Prop :=
  lit "location" <:+: output ∨ lit "description" <:+: output → 2 ≤ (tokens 0x3d output).length

/-- The last option that says something about the location says what is stored.  The
option `location` itself does if its text has no `=` and fits in the first piece. -/
def LocationRead (p : SystemPackage) : Prop :=
  ∃ before o after, p.options = before ++ o :: after ∧
    (∀ o' ∈ after, ∀ output ∈ o'.pieces, ¬ lit "location" <:+: output) ∧
      if o.key = locationKey then 0x3d ∉ p.location ∧ p.location.length ≤ 71
      else lastRead locationIn o.pieces = some p.location

/-- The last option that says something about the description, in a piece without
`location`, says what is stored. -/
def DescriptionRead (p : SystemPackage) : Prop :=
  ∃ before o after, p.options = before ++ o :: after ∧
    (∀ o' ∈ after, ∀ output ∈ o'.pieces,
      lit "description" <:+: output → lit "location" <:+: output) ∧
      if o.key = descriptionKey then
        (0x3d ∉ p.description ∧ p.description.length ≤ 68) ∧ ¬ lit "location" <:+: p.description
      else lastRead descriptionIn o.pieces = some p.description

/-! ## The loop -/

/-- The last option that says something. -/
theorem lastRead_flatMap_iff (r : List UInt8 → Option (List UInt8)) (options : List UciOption)
    (v : List UInt8) : lastRead r (options.flatMap UciOption.pieces) = some v ↔
      ∃ before o after, options = before ++ o :: after ∧
        (∀ o' ∈ after, ∀ output ∈ o'.pieces, r output = none) ∧ lastRead r o.pieces = some v := by
  induction options with
  | nil =>
    constructor
    · intro h
      cases h
    · rintro ⟨before, o, after, heq, -⟩
      exact absurd heq.symm (by simp)
  | cons o options ih =>
    rw [List.flatMap_cons, lastRead_append]
    constructor
    · intro h
      cases hlast : lastRead r (options.flatMap UciOption.pieces) with
      | some w =>
        rw [hlast, Option.some_or, Option.some_inj] at h
        obtain ⟨before, o', after, rfl, hafter, hread⟩ := ih.mp (hlast.trans (congrArg _ h))
        exact ⟨o :: before, o', after, rfl, hafter, hread⟩
      | none =>
        rw [hlast, Option.none_or] at h
        refine ⟨[], o, options, rfl, fun o' ho' output hout => ?_, h⟩
        exact (lastRead_eq_none_iff ..).mp hlast output (List.mem_flatMap.mpr ⟨o', ho', hout⟩)
    · rintro ⟨before, o', after, heq, hafter, hread⟩
      cases before with
      | nil =>
        rw [List.nil_append, List.cons.injEq] at heq
        obtain ⟨rfl, rfl⟩ := heq
        have hnone : lastRead r (options.flatMap UciOption.pieces) = none := by
          refine (lastRead_eq_none_iff ..).mpr fun output hout => ?_
          obtain ⟨o', ho', hout⟩ := List.mem_flatMap.mp hout
          exact hafter o' ho' output hout
        rw [hnone, Option.none_or, hread]
      | cons b before =>
        rw [List.cons_append, List.cons.injEq] at heq
        rw [ih.mpr ⟨before, o', after, heq.2, hafter, hread⟩, Option.some_or]

theorem elim_or {α β : Type} (o o' : Option α) (b : β) (f : α → β) :
    (o.or o').elim b f = o.elim (o'.elim b f) f := by
  cases o <;> rfl

/-- No null pointer is used. -/
def AllValues (ps : List (List UInt8)) : Prop :=
  ∀ p ∈ ps, lit "location" <:+: p ∨ lit "description" <:+: p → (valueOf? p).isSome = true

/-- **The loop of `getUCInfo`** leaves in each field what was read last. -/
theorem foldlM_readUciPiece {ps : List (List UInt8)} (h : AllValues ps) (s : DevTexts) :
    ps.foldlM readUciPiece s =
      some ⟨(lastRead descriptionIn ps).elim s.devDescr (strncpy 128),
        (lastRead locationIn ps).elim s.devLoc (strncpy 128)⟩ := by
  induction ps generalizing s with
  | nil => rfl
  | cons p ps ih =>
    have hps : AllValues ps := fun q hq => h q (List.mem_cons_of_mem _ hq)
    have hstep : readUciPiece s p = some ⟨(descriptionIn p).elim s.devDescr (strncpy 128),
        (locationIn p).elim s.devLoc (strncpy 128)⟩ := by
      have hp := h p List.mem_cons_self
      unfold readUciPiece descriptionIn locationIn
      by_cases hloc : lit "location" <:+: p
      · obtain ⟨v, hv⟩ := Option.isSome_iff_exists.mp (hp (.inl hloc))
        simp [hloc, hv]
      · by_cases hdesc : lit "description" <:+: p
        · obtain ⟨v, hv⟩ := Option.isSome_iff_exists.mp (hp (.inr hdesc))
          simp [hloc, hdesc, hv]
        · simp [hloc, hdesc]
    rw [List.foldlM_cons, hstep, Option.bind_eq_bind, Option.bind_some, ih hps, lastRead_cons,
      lastRead_cons, elim_or, elim_or]

theorem allValues_of_foldlM {ps : List (List UInt8)} {s s' : DevTexts}
    (h : ps.foldlM readUciPiece s = some s') : AllValues ps := by
  induction ps generalizing s with
  | nil => exact fun p hp => by cases hp
  | cons p ps ih =>
    rw [List.foldlM_cons, Option.bind_eq_bind, Option.bind_eq_some_iff] at h
    obtain ⟨t, hstep, hrest⟩ := h
    refine List.forall_mem_cons.mpr ⟨fun hname => ?_, ih hrest⟩
    unfold readUciPiece at hstep
    split at hstep
    · obtain ⟨v, hv, -⟩ := Option.map_eq_some_iff.mp hstep
      rw [hv]
      rfl
    · rename_i hloc
      rw [if_pos (hname.resolve_left hloc)] at hstep
      obtain ⟨v, hv, -⟩ := Option.map_eq_some_iff.mp hstep
      rw [hv]
      rfl

theorem pieces_uciShow (options : List UciOption) :
    CStrings.pieces 99 [] (uciShow options) = options.flatMap UciOption.pieces :=
  pieces_flatMap 99 UciOption.text options

/-! ## A value -/

theorem tokens_length_lt {output : List UInt8} (h : output.length ≤ 99) (d : UInt8) :
    (tokens d output).length < 256 :=
  Nat.lt_of_le_of_lt (length_tokens_le d output) (by omega)

theorem valueOf?_eq {output : List UInt8} (h : output.length ≤ 99) :
    valueOf? output = ((tokens 0x3d output)[1]?).map fun token =>
      removeCharacter (token.takeWhile (· ≠ 0x0a)) 0x27 := by
  rw [valueOf?, splitLine, splitTokens_token? (tokens_length_lt h _) (by decide)]

theorem valueOf?_isSome_iff {output : List UInt8} (h : output.length ≤ 99) :
    (valueOf? output).isSome = true ↔ 2 ≤ (tokens 0x3d output).length := by
  rw [valueOf?_eq h, Option.isSome_map, isSome_getElem?]
  exact Iff.rfl

theorem length_le_of_valueOf? {output v : List UInt8} (h : output.length ≤ 99)
    (hv : valueOf? output = some v) : v.length ≤ output.length := by
  rw [valueOf?_eq h] at hv
  obtain ⟨token, htoken, rfl⟩ := Option.map_eq_some_iff.mp hv
  calc (removeCharacter (token.takeWhile (· ≠ 0x0a)) 0x27).length
      ≤ (token.takeWhile (· ≠ 0x0a)).length := List.length_filter_le ..
    _ ≤ token.length := (List.takeWhile_prefix _).length_le
    _ ≤ output.length := length_le_of_mem_tokens (List.mem_of_getElem? htoken)

/-- What is read of a value: the text up to the first `=`. -/
theorem read_value {u t : List UInt8} (hnewline : 0x0a ∉ u) (hquote : 0x27 ∉ u)
    (ht : t <+: lit "'\n") :
    removeCharacter (((u ++ t).takeWhile (· ≠ 0x3d)).takeWhile (· ≠ 0x0a)) 0x27 =
      u.takeWhile (· ≠ 0x3d) := by
  induction u with
  | nil =>
    have htake := List.prefix_iff_eq_take.mp ht
    have hlen : t.length ≤ 2 := ht.length_le
    rw [List.nil_append, htake]
    generalize t.length = n at hlen
    match n, hlen with
    | 0, _ => decide
    | 1, _ => decide
    | 2, _ => decide
  | cons c u ih =>
    rw [List.mem_cons, not_or] at hnewline hquote
    rw [List.cons_append, List.takeWhile_cons, List.takeWhile_cons]
    split
    · have hc : decide (c ≠ 0x0a) = true := decide_eq_true (Ne.symm hnewline.1)
      have hc' : decide (c ≠ 0x27) = true := decide_eq_true (Ne.symm hquote.1)
      rw [List.takeWhile_cons, if_pos hc, removeCharacter, List.filter_cons, if_pos hc']
      exact congrArg _ (ih hnewline.2 hquote.2)
    · rfl

theorem takeWhile_take_eq_self_iff (v : List UInt8) (m : Nat) :
    (v.take m).takeWhile (· ≠ 0x3d) = v ↔ 0x3d ∉ v ∧ v.length ≤ m := by
  constructor
  · intro h
    have hlen : v.length ≤ m := by
      have hle := (List.takeWhile_prefix (l := v.take m) (· ≠ 0x3d)).length_le
      rw [h, List.length_take] at hle
      omega
    refine ⟨fun hmem => ?_, hlen⟩
    rw [List.take_of_length_le hlen, List.takeWhile_eq_self_iff] at h
    simpa using h _ hmem
  · rintro ⟨hmem, hlen⟩
    rw [List.take_of_length_le hlen, List.takeWhile_eq_self_iff]
    intro c hc
    rw [decide_eq_true_eq]
    rintro rfl
    exact hmem hc

/-! ## The line of an option -/

/-- A key that leaves room for a value. -/
structure ShortKey (key : List UInt8) : Prop where
  ne_nil : key ≠ []
  no_newline : 0x0a ∉ key
  no_equals : 0x3d ∉ key
  length_le : key.length ≤ 29

/-- The first piece of a line. -/
def firstPiece (o : UciOption) : List UInt8 :=
  o.key ++ 0x3d :: 0x27 :: (o.value ++ lit "'\n").take (97 - o.key.length)

variable {o : UciOption}

theorem take_text (hkey : ShortKey o.key) : (o.text ++ [0x0a]).take 99 = firstPiece o := by
  have hlen := hkey.length_le
  have htext : o.text ++ [0x0a] = o.key ++ 0x3d :: 0x27 :: (o.value ++ lit "'\n") := by
    simp [UciOption.text, lit]
  obtain ⟨k, hk⟩ : ∃ k, 99 - o.key.length = k + 1 + 1 := ⟨97 - o.key.length, by omega⟩
  rw [htext, List.take_append, List.take_of_length_le (by omega), hk, List.take_succ_cons,
    List.take_succ_cons, firstPiece]
  congr
  omega

/-- A line with a stored text has two pieces at most. -/
theorem pieces_eq (hkey : ShortKey o.key) (hvalue : StoredText o.value) :
    o.pieces = firstPiece o ::
      (if o.text.length < 99 then [] else [o.text.drop 99 ++ [0x0a]]) := by
  have hno : 0x0a ∉ o.text := by
    simp [UciOption.text, lit, hkey.no_newline, hvalue.no_newline]
  have hlen : o.text.length ≤ 159 := by
    have h1 := hkey.length_le
    have h2 := hvalue.length_le
    simp [UciOption.text, lit]
    omega
  rw [UciOption.pieces, ← take_text hkey]
  split
  · rename_i hshort
    rw [pieces_line hno hshort, List.take_of_length_le (by simp; omega)]
  · rename_i hlong
    have hsplit : o.text ++ [0x0a] = o.text.take 99 ++ (o.text.drop 99 ++ [0x0a]) := by
      rw [← List.append_assoc, List.take_append_drop]
    have htake : (o.text ++ [0x0a]).take 99 = o.text.take 99 := by
      rw [List.take_append_of_le_length (by omega)]
    have hfirst : 0x0a ∉ o.text.take 99 := fun h => hno (List.mem_of_mem_take h)
    have hrest : 0x0a ∉ o.text.drop 99 := fun h => hno (List.mem_of_mem_drop h)
    rw [htake, hsplit, pieces_full hfirst (by decide) (by simp; omega),
      pieces_line hrest (by simp; omega)]

theorem valueOf?_firstPiece (hkey : ShortKey o.key) (hvalue : StoredText o.value) :
    valueOf? (firstPiece o) =
      some ((o.value.take (97 - o.key.length)).takeWhile (· ≠ 0x3d)) := by
  have hlen : (firstPiece o).length ≤ 99 := by
    rw [← take_text hkey, List.length_take]
    exact Nat.min_le_left ..
  have hnewline : 0x0a ∉ o.value.take (97 - o.key.length) :=
    fun h => hvalue.no_newline (List.mem_of_mem_take h)
  have hquote : 0x27 ∉ o.value.take (97 - o.key.length) :=
    fun h => hvalue.no_quote (List.mem_of_mem_take h)
  have htokens : (tokens 0x3d (firstPiece o))[1]? = some
      ((0x27 :: (o.value ++ lit "'\n").take (97 - o.key.length)).takeWhile (· ≠ 0x3d)) := by
    rw [firstPiece, tokens_append_delim, tokens_of_not_mem hkey.no_equals hkey.ne_nil,
      List.singleton_append, List.getElem?_cons_succ, ← List.head?_eq_getElem?,
      tokens_head (by decide)]
  rw [valueOf?_eq hlen, htokens, Option.map_some, List.take_append]
  refine congrArg some ?_
  exact read_value hnewline hquote (List.take_prefix _ _)

theorem length_text (o : UciOption) : o.text.length = o.key.length + o.value.length + 3 := by
  simp only [UciOption.text, List.length_append, lit, List.length_map]
  simp
  omega

/-- A line says its own text only in its first piece, and only if there is room for
it. -/
theorem lastRead_pieces_iff {r : List UInt8 → Option (List UInt8)}
    (hvalueOf : ∀ p v, r p = some v → valueOf? p = some v)
    (hshort : ∀ p : List UInt8, p.length ≤ 2 → r p = none) (hkey : ShortKey o.key)
    (hvalue : StoredText o.value) : lastRead r o.pieces = some o.value ↔
      o.value.length ≤ 97 - o.key.length ∧ r (firstPiece o) = some o.value := by
  have hlen := length_text o
  have hklen := hkey.length_le
  have hvlen := hvalue.length_le
  rw [pieces_eq hkey hvalue, lastRead_cons]
  by_cases hfit : o.value.length ≤ 97 - o.key.length
  · have hrest : lastRead r (if o.text.length < 99 then [] else [o.text.drop 99 ++ [0x0a]]) =
        none := by
      split
      · rfl
      · refine (lastRead_eq_none_iff ..).mpr fun p hp => hshort p ?_
        rw [List.mem_singleton.mp hp, List.length_append, List.length_drop, List.length_singleton]
        omega
    rw [hrest, Option.none_or]
    exact ⟨fun h => ⟨hfit, h⟩, fun h => h.2⟩
  · refine ⟨fun h => ?_, fun h => absurd h.1 hfit⟩
    rcases Option.or_eq_some_iff.mp h with hsecond | ⟨-, hfirst⟩
    · split at hsecond
      · cases hsecond
      · -- What is left of the text is shorter than the text.
        rw [lastRead_cons, Option.or_eq_some_iff] at hsecond
        have hv := hvalueOf _ _ (hsecond.resolve_left (by rintro ⟨⟩)).2
        have hplen : (o.text.drop 99 ++ [0x0a]).length = o.text.length - 98 := by
          rw [List.length_append, List.length_drop, List.length_singleton]
          omega
        have hle := length_le_of_valueOf? (by omega) hv
        omega
    · have hv := hvalueOf _ _ hfirst
      rw [valueOf?_firstPiece hkey hvalue, Option.some_inj, takeWhile_take_eq_self_iff] at hv
      exact absurd hv.2 hfit

theorem valueOf?_of_locationIn {p v : List UInt8} (h : locationIn p = some v) :
    valueOf? p = some v := by
  unfold locationIn at h
  split at h
  · exact h
  · cases h

theorem valueOf?_of_descriptionIn {p v : List UInt8} (h : descriptionIn p = some v) :
    valueOf? p = some v := by
  unfold descriptionIn at h
  split at h
  · cases h
  · split at h
    · exact h
    · cases h

theorem no_location_of_short {p : List UInt8} (h : p.length ≤ 2) : ¬ lit "location" <:+: p := by
  intro hin
  exact absurd (hin.length_le.trans h) (by decide)

theorem no_description_of_short {p : List UInt8} (h : p.length ≤ 2) :
    ¬ lit "description" <:+: p := by
  intro hin
  exact absurd (hin.length_le.trans h) (by decide)

theorem shortKey_location : ShortKey locationKey := ⟨by decide, by decide, by decide, by decide⟩

/-- The first piece of the option `location`. -/
theorem locationIn_firstPiece (hkey : o.key = locationKey) (hvalue : StoredText o.value) :
    locationIn (firstPiece o) = some ((o.value.take 71).takeWhile (· ≠ 0x3d)) := by
  have hklen : o.key.length = 26 := by
    rw [hkey]
    decide
  have hmention : lit "location" <:+: firstPiece o := by
    have hend : o.key = lit "system.@system[0]." ++ lit "location" := by
      rw [hkey]
      decide
    rw [firstPiece, hend]
    exact List.infix_append ..
  rw [locationIn, if_pos hmention, valueOf?_firstPiece (hkey ▸ shortKey_location) hvalue, hklen]

/-- **The option `location`.** -/
theorem lastRead_location_iff (hkey : o.key = locationKey) (hvalue : StoredText o.value) :
    lastRead locationIn o.pieces = some o.value ↔ 0x3d ∉ o.value ∧ o.value.length ≤ 71 := by
  have hklen : o.key.length = 26 := by
    rw [hkey]
    decide
  have hnone : ∀ p : List UInt8, p.length ≤ 2 → locationIn p = none := fun p hp =>
    if_neg (no_location_of_short hp)
  rw [lastRead_pieces_iff (fun _ _ => valueOf?_of_locationIn) hnone (hkey ▸ shortKey_location)
    hvalue, locationIn_firstPiece hkey hvalue, Option.some_inj, takeWhile_take_eq_self_iff, hklen]
  exact ⟨fun h => h.2, fun h => ⟨h.2, h⟩⟩

/-- **The option `description`.** -/
theorem lastRead_description_iff (hkey : o.key = descriptionKey) (hvalue : StoredText o.value) :
    lastRead descriptionIn o.pieces = some o.value ↔
      (0x3d ∉ o.value ∧ o.value.length ≤ 68) ∧ ¬ lit "location" <:+: o.value := by
  have hshortKey : ShortKey o.key := by
    rw [hkey]
    exact ⟨by decide, by decide, by decide, by decide⟩
  have hklen : o.key.length = 29 := by
    rw [hkey]
    decide
  have hnone : ∀ p : List UInt8, p.length ≤ 2 → descriptionIn p = none := fun p hp => by
    rw [descriptionIn, if_neg (no_location_of_short hp), if_neg (no_description_of_short hp)]
  have hmention : lit "description" <:+: firstPiece o := by
    have hend : o.key = lit "system.@system[0]." ++ lit "description" := by
      rw [hkey]
      decide
    rw [firstPiece, hend]
    exact List.infix_append ..
  -- The key does not name the location, so the value does.
  have hlocation : o.value.length ≤ 68 →
      (lit "location" <:+: firstPiece o ↔ lit "location" <:+: o.value) := by
    intro hfit
    have htake : (o.value ++ lit "'\n").take (97 - o.key.length) =
        o.value ++ (lit "'\n").take (68 - o.value.length) := by
      rw [hklen, List.take_append, List.take_of_length_le (by omega)]
    rw [firstPiece, htake]
    constructor
    · intro hin
      rcases infix_append_cons (by decide) hin with hin | hin
      · rw [hkey] at hin
        have hl : (0x6c : UInt8) ∈ descriptionKey := hin.mem (by decide)
        exact absurd hl (by decide)
      · rw [← List.nil_append (0x27 :: _)] at hin
        rcases infix_append_cons (by decide) hin with hin | hin
        · exact absurd hin.length_le (by decide)
        · have hlast : lit "location" = lit "locatio" ++ [0x6e] := by decide
          rw [hlast] at hin ⊢
          refine infix_of_append_left (fun hmem => ?_) hin
          exact absurd (List.mem_of_mem_take hmem) (by decide)
    · intro hin
      exact hin.trans ⟨o.key ++ [0x3d, 0x27], (lit "'\n").take (68 - o.value.length), by simp⟩
  rw [lastRead_pieces_iff (fun _ _ => valueOf?_of_descriptionIn) hnone hshortKey hvalue, hklen]
  unfold descriptionIn
  rw [if_pos hmention, valueOf?_firstPiece hshortKey hvalue, hklen]
  constructor
  · rintro ⟨hfit, hread⟩
    split at hread
    · cases hread
    · rename_i hno
      rw [Option.some_inj, takeWhile_take_eq_self_iff] at hread
      exact ⟨hread, mt (hlocation hfit).mpr hno⟩
  · rintro ⟨⟨hno, hfit⟩, hloc⟩
    refine ⟨hfit, ?_⟩
    rw [if_neg (mt (hlocation hfit).mp hloc), Option.some_inj, takeWhile_take_eq_self_iff]
    exact ⟨hno, hfit⟩

/-! ## The whole output -/

theorem length_le_of_mem_option {output : List UInt8} (h : output ∈ o.pieces) :
    output.length ≤ 99 :=
  length_le_of_mem_pieces (by decide) h

theorem allValues_iff (options : List UciOption) :
    AllValues (options.flatMap UciOption.pieces) ↔
      ∀ o ∈ options, ∀ output ∈ o.pieces, HasValue output := by
  constructor
  · intro h o ho output hout hname
    rw [← valueOf?_isSome_iff (length_le_of_mem_option hout)]
    exact h output (List.mem_flatMap.mpr ⟨o, ho, hout⟩) hname
  · intro h output hout hname
    obtain ⟨o, ho, hout⟩ := List.mem_flatMap.mp hout
    rw [valueOf?_isSome_iff (length_le_of_mem_option hout)]
    exact h o ho output hout hname

theorem locationIn_eq_none_iff {output : List UInt8} (h : output ∈ o.pieces)
    (hvalue : HasValue output) : locationIn output = none ↔ ¬ lit "location" <:+: output := by
  unfold locationIn
  split
  · rename_i hname
    have hsome := (valueOf?_isSome_iff (length_le_of_mem_option h)).mpr (hvalue (.inl hname))
    rw [Option.isSome_iff_ne_none] at hsome
    exact ⟨fun hnone => absurd hnone hsome, fun hnot => absurd hname hnot⟩
  · rename_i hname
    exact ⟨fun _ => hname, fun _ => rfl⟩

theorem descriptionIn_eq_none_iff {output : List UInt8} (h : output ∈ o.pieces)
    (hvalue : HasValue output) : descriptionIn output = none ↔
      (lit "description" <:+: output → lit "location" <:+: output) := by
  unfold descriptionIn
  split
  · rename_i hname
    exact ⟨fun _ _ => hname, fun _ => rfl⟩
  · rename_i hloc
    split
    · rename_i hname
      have hsome := (valueOf?_isSome_iff (length_le_of_mem_option h)).mpr (hvalue (.inr hname))
      rw [Option.isSome_iff_ne_none] at hsome
      exact ⟨fun hnone => absurd hnone hsome, fun himp => absurd (himp hname) hloc⟩
    · rename_i hname
      exact ⟨fun _ hin => absurd hin hname, fun _ => rfl⟩

/-- There is one option with a key. -/
theorem SystemPackage.value_eq (p : SystemPackage) {o : UciOption} (ho : o ∈ p.options)
    {key value : List UInt8} (hmem : ∃ o' ∈ p.options, o'.key = key ∧ o'.value = value)
    (hkey : o.key = key) : o.value = value := by
  obtain ⟨o', ho', hkey', hvalue'⟩ := hmem
  rw [List.inj_on_of_nodup_map p.nodup ho ho' (hkey.trans hkey'.symm), hvalue']

/-- The last option that says something: which ones say nothing, and what one of them
must be like to say the right thing. -/
theorem lastRead_options_iff (p : SystemPackage) {r : List UInt8 → Option (List UInt8)}
    {key value : List UInt8} {silent : List UInt8 → Prop} {right : Prop}
    (hsilent : ∀ o ∈ p.options, ∀ output ∈ o.pieces, r output = none ↔ silent output)
    (hright : ∀ o ∈ p.options, o.key = key → (lastRead r o.pieces = some value ↔ right)) :
    lastRead r (p.options.flatMap UciOption.pieces) = some value ↔
      ∃ before o after, p.options = before ++ o :: after ∧
        (∀ o' ∈ after, ∀ output ∈ o'.pieces, silent output) ∧
          if o.key = key then right else lastRead r o.pieces = some value := by
  rw [lastRead_flatMap_iff]
  refine exists_congr fun before => exists_congr fun o => exists_congr fun after =>
    and_congr_right fun heq => and_congr ?_ ?_
  · refine forall_congr' fun o' => forall_congr' fun ho' => forall_congr' fun output =>
      forall_congr' fun hout => ?_
    exact hsilent o' (by simp [heq, ho']) output hout
  · split
    · rename_i hkey
      exact hright o (by simp [heq]) hkey
    · exact Iff.rfl

theorem lastRead_location (p : SystemPackage)
    (hvalues : ∀ o ∈ p.options, ∀ output ∈ o.pieces, HasValue output) :
    lastRead locationIn (p.options.flatMap UciOption.pieces) = some p.location ↔
      LocationRead p := by
  refine lastRead_options_iff p
    (fun o ho output hout => locationIn_eq_none_iff hout (hvalues o ho output hout))
    fun o ho hkey => ?_
  have hvalue := p.value_eq ho p.location_mem hkey
  rw [← hvalue]
  exact lastRead_location_iff hkey (hvalue ▸ p.location_stored)

theorem lastRead_description (p : SystemPackage)
    (hvalues : ∀ o ∈ p.options, ∀ output ∈ o.pieces, HasValue output) :
    lastRead descriptionIn (p.options.flatMap UciOption.pieces) = some p.description ↔
      DescriptionRead p := by
  refine lastRead_options_iff p
    (fun o ho output hout => descriptionIn_eq_none_iff hout (hvalues o ho output hout))
    fun o ho hkey => ?_
  have hvalue := p.value_eq ho p.description_mem hkey
  rw [← hvalue]
  exact lastRead_description_iff hkey (hvalue ▸ p.description_stored)

/-- No NUL is read. -/
theorem zero_not_mem_of_lastRead {r : List UInt8 → Option (List UInt8)}
    (hvalueOf : ∀ p v, r p = some v → valueOf? p = some v) {options : List UciOption}
    {v : List UInt8} (h : lastRead r (options.flatMap UciOption.pieces) = some v) : 0 ∉ v := by
  have hmem := List.mem_of_getLast? h
  obtain ⟨output, hout, hr⟩ := List.mem_filterMap.mp hmem
  obtain ⟨o, -, hout⟩ := List.mem_flatMap.mp hout
  have hno : 0 ∉ output := by
    intro hzero
    have hin := (infix_of_mem_pieces hout).mem hzero
    simp [UciOption.text, lit, o.key_no_nul, o.value_no_nul] at hin
  have hv := hvalueOf output v hr
  rw [valueOf?_eq (length_le_of_mem_option hout)] at hv
  obtain ⟨token, htoken, rfl⟩ := Option.map_eq_some_iff.mp hv
  intro hzero
  have hin := (List.takeWhile_prefix _).mem (List.mem_filter.mp hzero).1
  exact hno (mem_of_mem_tokens (List.mem_of_getElem? htoken) hin)

/-- A field that was filled holds the text, and one that was not filled can hold
anything. -/
theorem elim_strncpy_iff {o : Option (List UInt8)} {v : List UInt8} (hv : 0 ∉ v)
    (hlen : v.length ≤ 127) (ho : ∀ w, o = some w → 0 ∉ w) :
    (∀ field : List UInt8, field.length = 128 → o.elim field (strncpy 128) = strncpy 128 v) ↔
      o = some v := by
  have hfield : field? (strncpy 128 v) = some v := by
    rw [field?_strncpy hv, if_pos (by omega)]
  constructor
  · intro h
    cases o with
    | none =>
      have hones := congrArg field? (h (List.replicate 128 1) (by simp))
      rw [hfield, Option.elim_none] at hones
      exact absurd hones (by simp [field?])
    | some w =>
      have hw := congrArg field? (h (List.replicate 128 1) (by simp))
      rw [hfield, Option.elim_some, field?_strncpy (ho w rfl)] at hw
      split at hw
      · exact hw
      · cases hw
  · rintro rfl field -
    rfl

/-- The fields are right if the last thing read for each of them is. -/
theorem reported_iff_lastRead (p : SystemPackage) :
    ReportedAsStored p ↔ AllValues (p.options.flatMap UciOption.pieces) ∧
      lastRead locationIn (p.options.flatMap UciOption.pieces) = some p.location ∧
        lastRead descriptionIn (p.options.flatMap UciOption.pieces) = some p.description := by
  have hdesc0 : 0 ∉ p.description := by
    obtain ⟨o, -, -, hvalue⟩ := p.description_mem
    exact hvalue ▸ o.value_no_nul
  have hloc0 : 0 ∉ p.location := by
    obtain ⟨o, -, -, hvalue⟩ := p.location_mem
    exact hvalue ▸ o.value_no_nul
  rw [← elim_strncpy_iff hloc0 p.location_stored.length_le
      fun _ => zero_not_mem_of_lastRead fun _ _ => valueOf?_of_locationIn,
    ← elim_strncpy_iff hdesc0 p.description_stored.length_le
      fun _ => zero_not_mem_of_lastRead fun _ _ => valueOf?_of_descriptionIn]
  unfold ReportedAsStored getUCInfo
  rw [pieces_uciShow]
  constructor
  · intro h
    have hall := allValues_of_foldlM
      (h ⟨List.replicate 128 0, List.replicate 128 0⟩ (by simp) (by simp))
    refine ⟨hall, fun field hfield => ?_, fun field hfield => ?_⟩
    · have hs := h ⟨List.replicate 128 0, field⟩ (by simp) hfield
      rw [foldlM_readUciPiece hall, Option.some_inj, DevTexts.mk.injEq] at hs
      exact hs.2
    · have hs := h ⟨field, List.replicate 128 0⟩ hfield (by simp)
      rw [foldlM_readUciPiece hall, Option.some_inj, DevTexts.mk.injEq] at hs
      exact hs.1
  · rintro ⟨hall, hloc, hdesc⟩ s hs1 hs2
    rw [foldlM_readUciPiece hall, hloc s.devLoc hs2, hdesc s.devDescr hs1]

/-- **When description and location are reported as stored**: every piece that names
one of them has a value, and the last one of each kind has the right one. -/
theorem reported_as_stored_iff (p : SystemPackage) :
    ReportedAsStored p ↔ (∀ o ∈ p.options, ∀ output ∈ o.pieces, HasValue output) ∧
      LocationRead p ∧ DescriptionRead p := by
  rw [reported_iff_lastRead, allValues_iff]
  refine and_congr_right fun hvalues => ?_
  rw [lastRead_location p hvalues, lastRead_description p hvalues]

/-- A device in a rack with a number. -/
def rackPackage : SystemPackage where
  options := [⟨descriptionKey, lit "switch", by decide, by decide⟩,
    ⟨locationKey, lit "rack=3", by decide, by decide⟩]
  nodup := by decide
  description := lit "switch"
  location := lit "rack=3"
  description_mem := ⟨_, List.mem_cons_self, rfl, rfl⟩
  location_mem := ⟨_, List.mem_cons_of_mem _ List.mem_cons_self, rfl, rfl⟩
  description_stored := ⟨by decide, by decide, by decide⟩
  location_stored := ⟨by decide, by decide, by decide⟩

/-- It is reported to be in `rack`. -/
theorem rackPackage_cut : ¬ ReportedAsStored rackPackage := by
  have hstored : StoredText (lit "rack=3") := ⟨by decide, by decide, by decide⟩
  intro h
  obtain ⟨-, hloc, -⟩ := (reported_iff_lastRead rackPackage).mp h
  dsimp only [rackPackage] at hloc
  rw [List.flatMap_cons, List.flatMap_cons, List.flatMap_nil, List.append_nil, lastRead_append,
    pieces_eq shortKey_location hstored, if_pos (by decide), lastRead_cons,
    locationIn_firstPiece rfl hstored] at hloc
  exact absurd hloc (by decide)

end TfPackages.Dm
