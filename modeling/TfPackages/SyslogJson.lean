import TfPackages.Json
import TfPackages.SyslogConvert

/-! # The JSON format

`fmt_json` puts out an array with an object for each entry.  In a string the escape
sequences of a terminal are left out: the text from an ESC to the next letter of
`abcdhsujkm`.  When there is no such letter the end of the string is passed and the
memory behind it is read.  Other control characters are put out as they are.

`json_read` says for every file which of these happens: the memory behind a string is
read, or there is an output.  That is a JSON document exactly if the file did not end
with a line that was too long and no text has a control character left in it, and then
it has an object for each line that was accepted.
-/
namespace TfPackages.SyslogFc
open CStrings (lit decimalText)

/-- `tolower`. -/
def tolower (c : UInt8) : UInt8 := if 0x41 ≤ c ∧ c ≤ 0x5a then c + 0x20 else c

/-- The character ends an escape sequence. -/
def isFinal (c : UInt8) : Bool := (lit "abcdhsujkm").contains (tolower c)

/-- A character outside of escape sequences. -/
def jsonChar (c : UInt8) : List UInt8 :=
  match c with
  | 0x08 => lit "\\b"
  | 0x0c => lit "\\f"
  | 0x0a => lit "\\n"
  | 0x0d => lit "\\r"
  | 0x09 => lit "\\t"
  | 0x5c => lit "\\\\"
  | 0x22 => lit "\\\""
  | c => [c]

/-- `fmt_json_output_encoded`; `inEscape` is the inner loop.  That stops at the NUL, and
the outer one goes on behind it. -/
def fmtJsonOutputEncoded : (inEscape : Bool) → List UInt8 → Option (List UInt8)
  | true, [] => none
  | false, [] => some []
  | true, c :: p => fmtJsonOutputEncoded (!isFinal c) p
  | false, c :: p =>
    if c = 0x1b then fmtJsonOutputEncoded true p
    else (fmtJsonOutputEncoded false p).map (jsonChar c ++ ·)

/-- A string in its quotes. -/
def jsonString (string : List UInt8) : Option (List UInt8) :=
  (fmtJsonOutputEncoded false string).map fun s => 0x22 :: (s ++ [0x22])

section Formats
variable {Tm : Type} (lib : Libc Tm) (config : Config)

/-- The `switch` over the type in `fmt_json_output_entry`. -/
def jsonValue (field : Field Tm) : Option (List UInt8) :=
  match field.info.type with
  | .time => jsonString (syslogFieldTimeFmt lib config field)
  | .uinteger => some (decimalText field.value.number)
  | .string => jsonString field.value.text

/-- The loop over the fields, with the brace behind it. -/
def jsonLoop : (count : Nat) → List (Field Tm) → Option (List UInt8)
  | _, [] => some [0x7d]
  | count, field :: fields =>
    if Flags.has field.flags flagDrop then jsonLoop count fields
    else do
      let value ← jsonValue lib config field
      let rest ← jsonLoop (count + 1) fields
      return (if count > 0 then lit "," else []) ++
        (0x22 :: (field.info.paramName ++ (lit "\":" ++ (value ++ rest))))

/-- `fmt_json_output_entry`. -/
def fmtJsonOutputEntry (num : UInt32) (fields : List (Field Tm)) : Option (List UInt8) :=
  (jsonLoop lib config 0 fields).map fun s => (if num > 1 then lit "," else []) ++ (0x7b :: s)

def fmtJson : OutputFmt Tm where
  outputStart _ := lit "["
  outputEntry := fmtJsonOutputEntry lib config
  outputEnd := lit "]"

/-! ## Escape sequences -/

/-- Whether the text goes on in an escape sequence. -/
def nextEscape (inEscape : Bool) (c : UInt8) : Bool :=
  if inEscape then !isFinal c else c = 0x1b

/-- The text ends in an escape sequence. -/
def endsInEscape (s : List UInt8) : Bool := s.foldl nextEscape false

/-- A text without the escape sequences in it. -/
def withoutEscapes : (inEscape : Bool) → List UInt8 → List UInt8
  | _, [] => []
  | true, c :: s => withoutEscapes (nextEscape true c) s
  | false, c :: s =>
    if c = 0x1b then withoutEscapes true s else c :: withoutEscapes false s

theorem fmtJsonOutputEncoded_eq (inEscape : Bool) (s : List UInt8) :
    fmtJsonOutputEncoded inEscape s =
      if s.foldl nextEscape inEscape then none
      else some ((withoutEscapes inEscape s).flatMap jsonChar) := by
  induction s generalizing inEscape with
  | nil => cases inEscape <;> rfl
  | cons c s ih =>
    rw [List.foldl_cons]
    cases inEscape with
    | true => exact ih _
    | false =>
      rw [fmtJsonOutputEncoded, withoutEscapes]
      by_cases hc : c = 0x1b
      · have hnext : nextEscape false c = true := decide_eq_true hc
        rw [if_pos hc, if_pos hc, hnext, ih]
      · have hnext : nextEscape false c = false := decide_eq_false hc
        rw [if_neg hc, if_neg hc, hnext, ih]
        cases s.foldl nextEscape false <;> rfl

theorem jsonString_eq (s : List UInt8) :
    jsonString s =
      if endsInEscape s then none
      else some (0x22 :: ((withoutEscapes false s).flatMap jsonChar ++ [0x22])) := by
  rw [jsonString, fmtJsonOutputEncoded_eq, endsInEscape]
  cases s.foldl nextEscape false <;> rfl

theorem mem_of_mem_withoutEscapes {inEscape : Bool} {s : List UInt8} {c : UInt8}
    (h : c ∈ withoutEscapes inEscape s) : c ∈ s := by
  induction s generalizing inEscape with
  | nil => cases inEscape <;> exact h
  | cons d s ih =>
    cases inEscape with
    | true => exact List.mem_cons_of_mem _ (ih h)
    | false =>
      rw [withoutEscapes] at h
      split at h
      · exact List.mem_cons_of_mem _ (ih h)
      · rcases List.mem_cons.mp h with rfl | h
        · exact List.mem_cons_self
        · exact List.mem_cons_of_mem _ (ih h)

/-! ## Strings -/

/-- How a byte is read. -/
def asChar (c : UInt8) : Char := Char.ofNat c.toNat

theorem toNat_asChar (c : UInt8) : (asChar c).toNat = c.toNat := by
  have hlt := c.toNat_lt
  have hvalid : c.toNat.isValidChar := .inl (by omega)
  rw [asChar, Char.ofNat, dif_pos hvalid]
  rfl

/-- A character that can be put out. -/
def cleanChar (c : UInt8) : Bool := 0x20 ≤ c || (lit "\x08\t\n\x0c\r").contains c

theorem asChar_injective {c d : UInt8} (h : asChar c = asChar d) : c = d := by
  rw [← UInt8.toNat_inj, ← toNat_asChar c, ← toNat_asChar d, h]

theorem run_jsonChar (c : UInt8) (acc : List Char) :
    Json.run (.string acc) ((jsonChar c).map asChar) =
      if cleanChar c then some ([], .string (asChar c :: acc)) else none := by
  unfold jsonChar
  split
  case h_8 hb hf hn hr ht hslash hquote =>
    have hquote' : asChar c ≠ '"' := fun h => hquote (asChar_injective (d := 0x22) h)
    have hslash' : asChar c ≠ '\\' := fun h => hslash (asChar_injective (d := 0x5c) h)
    have hescaped : (lit "\x08\t\n\x0c\r").contains c = false := by
      have hbytes : lit "\x08\t\n\x0c\r" = [0x08, 0x09, 0x0a, 0x0c, 0x0d] := by decide
      rw [hbytes]
      simpa using ⟨hb, ht, hn, hf, hr⟩
    rw [List.map_cons, List.map_nil, Json.run, Json.step, if_neg hquote', if_neg hslash',
      toNat_asChar, cleanChar, hescaped, Bool.or_false]
    by_cases hlow : c.toNat < 0x20
    · have hnot : ¬ 0x20 ≤ c := fun h => absurd (UInt8.le_iff_toNat_le.mp h) (Nat.not_le.mpr hlow)
      rw [if_pos hlow, decide_eq_false hnot]
      rfl
    · have hle : 0x20 ≤ c := UInt8.le_iff_toNat_le.mpr (Nat.le_of_not_lt hlow)
      rw [if_neg hlow, decide_eq_true hle]
      rfl
  all_goals rfl

/-- What is left of a text can be put out. -/
def cleanText (s : List UInt8) : Bool := (withoutEscapes false s).all cleanChar

/-- A string that is put out, and what follows. -/
theorem run_jsonString (s : List UInt8) (t : List Char) :
    Json.run .outside
        ((0x22 :: ((withoutEscapes false s).flatMap jsonChar ++ [0x22])).map asChar ++ t) =
      if cleanText s then
        (Json.run .outside t).map fun q =>
          (.str ((withoutEscapes false s).map asChar) :: q.1, q.2)
      else none := by
  have hopen : Json.run .outside [asChar 0x22] = some ([], .string []) := rfl
  have hclose : ∀ acc, Json.run (.string acc) [asChar 0x22] =
      some ([.str acc.reverse], .outside) := Json.run_close rfl rfl
  have htext := Json.run_string_flatMap run_jsonChar (withoutEscapes false s) []
  have hmap : (0x22 :: ((withoutEscapes false s).flatMap jsonChar ++ [0x22])).map asChar ++ t =
      [asChar 0x22] ++ ((withoutEscapes false s).flatMap (fun c => (jsonChar c).map asChar) ++
        ([asChar 0x22] ++ t)) := by
    simp [List.map_flatMap]
  rw [hmap, Json.run_then hopen, Json.run_append, htext, cleanText]
  cases (withoutEscapes false s).all cleanChar with
  | false => rfl
  | true =>
    rw [if_pos rfl, if_pos rfl, Option.bind_some, List.append_nil, Json.run_then (hclose _),
      List.reverse_reverse]
    cases Json.run .outside t <;> rfl

/-! ## Objects -/

/-- The value of a field as it is put out. -/
def valueText (field : Field Tm) : List UInt8 :=
  match field.info.type with
  | .uinteger => decimalText field.value.number
  | _ => 0x22 :: ((withoutEscapes false (fieldText lib config field)).flatMap jsonChar ++ [0x22])

/-- The value of a field for a reader. -/
def fieldValue (field : Field Tm) : Json.Value :=
  match field.info.type with
  | .uinteger => .num (Nat.toDigits 10 field.value.number)
  | _ => .str ((withoutEscapes false (fieldText lib config field)).map asChar)

/-- The member of an object for a field. -/
def fieldMember (field : Field Tm) : List Char × Json.Value :=
  (field.info.paramName.map asChar, fieldValue lib config field)

/-- The object for some fields. -/
def object (fields : List (Field Tm)) : Json.Value :=
  .obj ((fields.filter Field.shown).map (fieldMember lib config))

/-- The text of a field ends in an escape sequence. -/
def Field.cut (field : Field Tm) : Bool := endsInEscape (fieldText lib config field)

/-- The text of a field can be put out. -/
def Field.clean (field : Field Tm) : Bool := cleanText (fieldText lib config field)

/-- A number has no escape sequence. -/
theorem decimalText_plain (n : Nat) :
    endsInEscape (decimalText n) = false ∧ cleanText (decimalText n) = true := by
  have hdigit : ∀ c ∈ decimalText n, 0x30 ≤ c ∧ c ≤ 0x39 := fun _ => digit_of_mem_decimalText
  refine ⟨?_, List.all_eq_true.mpr fun c hc => ?_⟩
  · rw [endsInEscape]
    generalize decimalText n = s at hdigit
    induction s with
    | nil => rfl
    | cons c s ih =>
      have hc : c ≠ 0x1b := by
        rintro rfl
        exact absurd (hdigit 0x1b List.mem_cons_self) (by decide)
      have hnext : nextEscape false c = false := decide_eq_false hc
      rw [List.foldl_cons, hnext]
      exact ih fun d hd => hdigit d (List.mem_cons_of_mem _ hd)
  · have hlow := UInt8.le_iff_toNat_le.mp (hdigit c (mem_of_mem_withoutEscapes hc)).1
    have hle : 0x20 ≤ c := UInt8.le_iff_toNat_le.mpr (Nat.le_trans (by decide) hlow)
    rw [cleanChar, decide_eq_true hle, Bool.true_or]

theorem jsonValue_eq (field : Field Tm) :
    jsonValue lib config field =
      if field.cut lib config then none else some (valueText lib config field) := by
  unfold jsonValue Field.cut valueText fieldText
  cases field.info.type with
  | uinteger => rw [(decimalText_plain _).1]; rfl
  | time => exact jsonString_eq _
  | string => exact jsonString_eq _

theorem decimalText_asChar (n : Nat) : (decimalText n).map asChar = Nat.toDigits 10 n := by
  rw [decimalText, List.map_map]
  conv_rhs => rw [← List.map_id (Nat.toDigits 10 n)]
  refine List.map_congr_left fun c hc => ?_
  have hdigit := Nat.isDigit_of_mem_toDigits (by decide) (by decide) hc
  simp only [Char.isDigit, Bool.and_eq_true, decide_eq_true_eq, ge_iff_le,
    UInt32.le_iff_toNat_le] at hdigit
  have hhigh : c.toNat ≤ 57 := hdigit.2
  have hval : (UInt8.ofNat c.toNat).toNat = c.toNat := by
    rw [UInt8.toNat_ofNat']
    omega
  rw [Function.comp, asChar, hval, Char.ofNat_toNat]
  rfl

/-- A value, and what follows. -/
theorem run_valueText (field : Field Tm) {t : List Char}
    (ht : ∃ c u, t = c :: u ∧ Json.isWordChar c = false) :
    Json.run .outside ((valueText lib config field).map asChar ++ t) =
      if field.clean lib config then
        (Json.run .outside t).map fun q => ((fieldValue lib config field).tokens ++ q.1, q.2)
      else none := by
  unfold valueText fieldValue Field.clean fieldText
  cases field.info.type with
  | uinteger =>
    dsimp only
    rw [(decimalText_plain _).2, decimalText_asChar, Json.run_toDigits_then _ ht]
    rfl
  | time => exact run_jsonString _ t
  | string => exact run_jsonString _ t

/-- A member of an object as it is put out. -/
def memberText (field : Field Tm) : List UInt8 :=
  0x22 :: (field.info.paramName ++ (lit "\":" ++ valueText lib config field))

/-- The rest of an object. -/
def membersText : List (Field Tm) → List UInt8
  | [] => [0x7d]
  | field :: fields => 0x2c :: (memberText lib config field ++ membersText fields)

/-- An object after its brace. -/
def objectText : List (Field Tm) → List UInt8
  | [] => [0x7d]
  | field :: fields => memberText lib config field ++ membersText lib config fields

/-- A field in the loop. -/
theorem jsonLoop_cons (count : Nat) (field : Field Tm) (fields : List (Field Tm)) :
    jsonLoop lib config count (field :: fields) =
      if field.shown then
        if field.cut lib config then none
        else (jsonLoop lib config (count + 1) fields).map fun rest =>
          (if count > 0 then lit "," else []) ++ (memberText lib config field ++ rest)
      else jsonLoop lib config count fields := by
  rw [jsonLoop, Field.shown]
  cases Flags.has field.flags flagDrop with
  | true => rfl
  | false =>
    rw [if_neg (by simp), jsonValue_eq]
    cases field.cut lib config with
    | true => rfl
    | false =>
      cases jsonLoop lib config (count + 1) fields with
      | none => rfl
      | some rest => simp [memberText]

/-- A text that is put out after another one, when neither is cut. -/
theorem map_ite_none {α β : Type*} (a b : Bool) (x : α) (f : α → β) :
    (if a then none else (if b then none else some x).map f) =
      if a || b then none else some (f x) := by
  cases a <;> cases b <;> rfl

/-- The loop over the fields stops at a field that is cut. -/
theorem jsonLoop_eq (fields : List (Field Tm)) :
    jsonLoop lib config 0 fields =
      if (fields.filter Field.shown).any (Field.cut lib config) then none
      else some (objectText lib config (fields.filter Field.shown)) := by
  have hrest : ∀ (count : Nat) (fields : List (Field Tm)),
      jsonLoop lib config (count + 1) fields =
        if (fields.filter Field.shown).any (Field.cut lib config) then none
        else some (membersText lib config (fields.filter Field.shown)) := by
    intro count fields
    induction fields generalizing count with
    | nil => rfl
    | cons field fields ih =>
      rw [jsonLoop_cons, List.filter_cons]
      cases field.shown with
      | false => exact ih count
      | true =>
        rw [if_pos rfl, if_pos rfl, List.any_cons, ih, map_ite_none]
        rfl
  induction fields with
  | nil => rfl
  | cons field fields ih =>
    rw [jsonLoop_cons, List.filter_cons]
    cases field.shown with
    | false => exact ih
    | true =>
      rw [if_pos rfl, if_pos rfl, List.any_cons, hrest, map_ite_none]
      rfl

/-- The name of a member, and what follows. -/
theorem run_paramName {info : FieldInfo} (h : info ∈ syslogFieldInfo) (t : List Char) :
    Json.run .outside ((0x22 :: (info.paramName ++ lit "\":")).map asChar ++ t) =
      (Json.run .outside t).map fun q =>
        (.str (info.paramName.map asChar) :: .colon :: q.1, q.2) := by
  have hplain : ∀ info ∈ syslogFieldInfo,
      (info.paramName.map asChar).all Json.plain = true := by decide
  have hopen : Json.run .outside [asChar 0x22] = some ([], .string []) := rfl
  have hclose : ∀ acc, Json.run (.string acc) ((lit "\":").map asChar) =
      some (.str acc.reverse :: [.colon], .outside) := fun acc => Json.run_close rfl rfl acc
  have htext : (0x22 :: (info.paramName ++ lit "\":")).map asChar ++ t =
      [asChar 0x22] ++ (info.paramName.map asChar ++ ((lit "\":").map asChar ++ t)) := by
    simp
  rw [htext, Json.run_then hopen,
    Json.run_string_then (List.all_eq_true.mp (hplain info h)) hclose]
  cases Json.run .outside t <;> rfl

/-- A member, and what follows. -/
theorem run_memberText {field : Field Tm} (h : field.info ∈ syslogFieldInfo) {t : List Char}
    (ht : ∃ c u, t = c :: u ∧ Json.isWordChar c = false) :
    Json.run .outside ((memberText lib config field).map asChar ++ t) =
      if field.clean lib config then
        (Json.run .outside t).map fun q =>
          (.str (field.info.paramName.map asChar) :: .colon ::
            ((fieldValue lib config field).tokens ++ q.1), q.2)
      else none := by
  have htext : (memberText lib config field).map asChar ++ t =
      (0x22 :: (field.info.paramName ++ lit "\":")).map asChar ++
        ((valueText lib config field).map asChar ++ t) := by
    simp [memberText]
  rw [htext, run_paramName h, run_valueText lib config field ht]
  cases field.clean lib config with
  | false => rfl
  | true => cases Json.run .outside t <;> rfl

/-- No member is taken for a part of the value before it. -/
theorem head_membersText (fields : List (Field Tm)) (t : List Char) :
    ∃ c u, (membersText lib config fields).map asChar ++ t = c :: u ∧
      Json.isWordChar c = false := by
  cases fields with
  | nil => exact ⟨_, _, rfl, rfl⟩
  | cons field fields => exact ⟨_, _, rfl, rfl⟩

/-- The rest of an object, and what follows. -/
theorem run_membersText {fields : List (Field Tm)} (h : ∀ f ∈ fields, f.info ∈ syslogFieldInfo)
    (t : List Char) :
    Json.run .outside ((membersText lib config fields).map asChar ++ t) =
      if fields.all (Field.clean lib config) then
        (Json.run .outside t).map fun q =>
          (Json.memberTokens (fields.map (fieldMember lib config)) ++ q.1, q.2)
      else none := by
  have hcomma : Json.run .outside [asChar 0x2c] = some ([.comma], .outside) := rfl
  have hbrace : Json.run .outside [asChar 0x7d] = some ([.rbrace], .outside) := rfl
  induction fields with
  | nil =>
    rw [membersText, List.map_cons, List.map_nil, Json.run_then hbrace]
    rfl
  | cons field fields ih =>
    have htext : (membersText lib config (field :: fields)).map asChar ++ t =
        [asChar 0x2c] ++ ((memberText lib config field).map asChar ++
          ((membersText lib config fields).map asChar ++ t)) := by
      simp [membersText]
    rw [htext, Json.run_then hcomma, run_memberText lib config (h field List.mem_cons_self)
      (head_membersText lib config fields t), ih fun f hf => h f (List.mem_cons_of_mem _ hf),
      List.all_cons]
    cases field.clean lib config with
    | false => rfl
    | true =>
      rw [Bool.true_and]
      cases fields.all (Field.clean lib config) with
      | false => rfl
      | true =>
        cases Json.run .outside t with
        | none => rfl
        | some q => simp [fieldMember, Json.memberTokens]

/-- All texts of an entry can be put out. -/
def cleanEntry (fields : List (Field Tm)) : Bool :=
  (fields.filter Field.shown).all (Field.clean lib config)

/-- An object, and what follows. -/
theorem run_objectText {fields : List (Field Tm)} (h : ∀ f ∈ fields, f.info ∈ syslogFieldInfo)
    (t : List Char) :
    Json.run .outside
        ((0x7b :: objectText lib config (fields.filter Field.shown)).map asChar ++ t) =
      if cleanEntry lib config fields then
        (Json.run .outside t).map fun q => ((object lib config fields).tokens ++ q.1, q.2)
      else none := by
  have hbrace : Json.run .outside [asChar 0x7b] = some ([.lbrace], .outside) := rfl
  have hempty : Json.run .outside [asChar 0x7b, asChar 0x7d] =
      some ([.lbrace, .rbrace], .outside) := rfl
  unfold object cleanEntry
  have hshown : ∀ f ∈ fields.filter Field.shown, f.info ∈ syslogFieldInfo := fun f hf =>
    h f (List.mem_of_mem_filter hf)
  cases hfields : fields.filter Field.shown with
  | nil => exact Json.run_then hempty t
  | cons field rest =>
    rw [hfields] at hshown
    have htext : (0x7b :: objectText lib config (field :: rest)).map asChar ++ t =
        [asChar 0x7b] ++ ((memberText lib config field).map asChar ++
          ((membersText lib config rest).map asChar ++ t)) := by
      simp [objectText]
    rw [htext, Json.run_then hbrace, run_memberText lib config (hshown field List.mem_cons_self)
      (head_membersText lib config rest t),
      run_membersText lib config (fun f hf => hshown f (List.mem_cons_of_mem _ hf)), List.all_cons]
    cases field.clean lib config with
    | false => rfl
    | true =>
      rw [Bool.true_and]
      cases rest.all (Field.clean lib config) with
      | false => rfl
      | true =>
        cases Json.run .outside t with
        | none => rfl
        | some q => simp [fieldMember, Json.Value.tokens]

/-! ## The document -/

/-- A text of an entry ends in an escape sequence. -/
def cutEntry (fields : List (Field Tm)) : Bool :=
  (fields.filter Field.shown).any (Field.cut lib config)

/-- The objects after the first one. -/
def elementsText (rows : List (List (Field Tm))) : List UInt8 :=
  rows.flatMap fun fields => 0x2c :: 0x7b :: objectText lib config (fields.filter Field.shown)

/-- The objects of an array. -/
def arrayText : List (List (Field Tm)) → List UInt8
  | [] => []
  | fields :: rows =>
    0x7b :: (objectText lib config (fields.filter Field.shown) ++ elementsText lib config rows)

/-- What is put out for some entries; the number of entries is that of a counter. -/
theorem entries_json {rows : List (List (Field Tm))} (hcount : rows.length < 2 ^ 32) :
    entries (fmtJson lib config) 0 rows =
      if rows.any (cutEntry lib config) then none else some (arrayText lib config rows) := by
  have hrest : ∀ (n : UInt32) (rows : List (List (Field Tm))), 1 ≤ n.toNat →
      n.toNat + rows.length < 2 ^ 32 →
      entries (fmtJson lib config) n rows =
        if rows.any (cutEntry lib config) then none
        else some (elementsText lib config rows) := by
    intro n rows
    induction rows generalizing n with
    | nil => exact fun _ _ => rfl
    | cons fields rows ih =>
      intro hpos hlen
      rw [List.length_cons] at hlen
      have hsucc : (n + 1).toNat = n.toNat + 1 := by
        rw [UInt32.toNat_add, UInt32.toNat_one]
        omega
      have hcomma : n + 1 > 1 := UInt32.lt_iff_toNat_lt.mpr (by rw [hsucc, UInt32.toNat_one]; omega)
      have hentry : (fmtJson lib config).outputEntry (n + 1) fields =
          (jsonLoop lib config 0 fields).map fun s => 0x2c :: 0x7b :: s := by
        show fmtJsonOutputEntry lib config (n + 1) fields = _
        rw [fmtJsonOutputEntry, if_pos hcomma]
        rfl
      rw [entries, hentry, ih (n + 1) (by omega) (by omega), jsonLoop_eq, List.any_cons, cutEntry]
      cases (fields.filter Field.shown).any (Field.cut lib config) with
      | true => rfl
      | false =>
        rw [Bool.false_or]
        cases rows.any (cutEntry lib config) with
        | true => rfl
        | false => rfl
  cases rows with
  | nil => rfl
  | cons fields rows =>
    rw [List.length_cons] at hcount
    have hentry : (fmtJson lib config).outputEntry (0 + 1) fields =
        (jsonLoop lib config 0 fields).map fun s => 0x7b :: s := rfl
    rw [entries, hentry, hrest (0 + 1) rows (by decide) (by
      have hone : (0 + 1 : UInt32).toNat = 1 := rfl
      omega), jsonLoop_eq, List.any_cons, cutEntry]
    cases (fields.filter Field.shown).any (Field.cut lib config) with
    | true => rfl
    | false =>
      rw [Bool.false_or]
      cases rows.any (cutEntry lib config) with
      | true => rfl
      | false => rfl

/-- The objects after the first one, and what follows. -/
theorem run_elementsText {rows : List (List (Field Tm))}
    (h : ∀ fields ∈ rows, ∀ f ∈ fields, f.info ∈ syslogFieldInfo) (t : List Char) :
    Json.run .outside ((elementsText lib config rows).map asChar ++ t) =
      if rows.all (cleanEntry lib config) then
        (Json.run .outside t).map fun q =>
          ((rows.map (object lib config)).flatMap (fun v => .comma :: v.tokens) ++ q.1, q.2)
      else none := by
  have hcomma : Json.run .outside [asChar 0x2c] = some ([.comma], .outside) := rfl
  induction rows with
  | nil =>
    show Json.run .outside t = _
    rw [List.all_nil, if_pos rfl]
    cases Json.run .outside t <;> rfl
  | cons fields rows ih =>
    have htext : (elementsText lib config (fields :: rows)).map asChar ++ t =
        [asChar 0x2c] ++
          ((0x7b :: objectText lib config (fields.filter Field.shown)).map asChar ++
            ((elementsText lib config rows).map asChar ++ t)) := by
      simp [elementsText]
    rw [htext, Json.run_then hcomma, run_objectText lib config (h fields List.mem_cons_self),
      ih fun fs hfs => h fs (List.mem_cons_of_mem _ hfs), List.all_cons]
    cases cleanEntry lib config fields with
    | false => rfl
    | true =>
      rw [Bool.true_and]
      cases rows.all (cleanEntry lib config) with
      | false => rfl
      | true =>
        cases Json.run .outside t with
        | none => rfl
        | some q => simp

/-- The objects, and what follows. -/
theorem run_arrayText {fields : List (Field Tm)} {rows : List (List (Field Tm))}
    (h : ∀ fs ∈ fields :: rows, ∀ f ∈ fs, f.info ∈ syslogFieldInfo) (t : List Char) :
    Json.run .outside ((arrayText lib config (fields :: rows)).map asChar ++ t) =
      if (fields :: rows).all (cleanEntry lib config) then
        (Json.run .outside t).map fun q => ((object lib config fields).tokens ++
          ((rows.map (object lib config)).flatMap (fun v => .comma :: v.tokens) ++ q.1), q.2)
      else none := by
  have htext : (arrayText lib config (fields :: rows)).map asChar ++ t =
      (0x7b :: objectText lib config (fields.filter Field.shown)).map asChar ++
        ((elementsText lib config rows).map asChar ++ t) := by
    simp [arrayText]
  rw [htext, run_objectText lib config (h fields List.mem_cons_self),
    run_elementsText lib config fun fs hfs => h fs (List.mem_cons_of_mem _ hfs), List.all_cons]
  cases cleanEntry lib config fields with
  | false => rfl
  | true =>
    rw [Bool.true_and]
    cases rows.all (cleanEntry lib config) with
    | false => rfl
    | true =>
      cases Json.run .outside t with
      | none => rfl
      | some q => rfl

/-- A document that is ended. -/
theorem parse_ended {rows : List (List (Field Tm))}
    (h : ∀ fs ∈ rows, ∀ f ∈ fs, f.info ∈ syslogFieldInfo) :
    Json.parse ((lit "[" ++ arrayText lib config rows ++ lit "]").map asChar) =
      if rows.all (cleanEntry lib config) then some (.arr (rows.map (object lib config)))
      else none := by
  have hopen : Json.run .outside [asChar 0x5b] = some ([.lbracket], .outside) := rfl
  cases rows with
  | nil => exact Json.parse_of_lex rfl
  | cons fields rows =>
    have hrun : Json.run .outside
        ((lit "[" ++ arrayText lib config (fields :: rows) ++ lit "]").map asChar) =
        if (fields :: rows).all (cleanEntry lib config) then
          some ((Json.Value.arr ((fields :: rows).map (object lib config))).tokens, .outside)
        else none := by
      have htext : (lit "[" ++ arrayText lib config (fields :: rows) ++ lit "]").map asChar =
          [asChar 0x5b] ++ ((arrayText lib config (fields :: rows)).map asChar ++
            [asChar 0x5d]) := by
        simp [lit]
      rw [htext, Json.run_then hopen, run_arrayText lib config h]
      cases (fields :: rows).all (cleanEntry lib config) with
      | false => rfl
      | true =>
        rw [if_pos rfl, if_pos rfl, List.map_cons, Json.Value.tokens, Json.elementTokens_eq]
        rfl
    cases hclean : (fields :: rows).all (cleanEntry lib config) with
    | false =>
      rw [hclean] at hrun
      rw [Json.parse, Json.lex, hrun]
      rfl
    | true =>
      rw [hclean, if_pos rfl] at hrun
      rw [if_pos rfl]
      refine Json.parse_of_lex ?_
      rw [Json.lex, hrun, Option.bind_some, Json.finish, Option.map_some, List.append_nil]

/-- A document that breaks off is none. -/
theorem parse_broken {rows : List (List (Field Tm))}
    (h : ∀ fs ∈ rows, ∀ f ∈ fs, f.info ∈ syslogFieldInfo) :
    Json.parse ((lit "[" ++ arrayText lib config rows).map asChar) = none := by
  have hopen : Json.run .outside [asChar 0x5b] = some ([.lbracket], .outside) := rfl
  have hor : ∀ {a b : Option Json.Token}, a ≠ some .rbracket → b ≠ some .rbracket →
      a.or b ≠ some .rbracket := fun {a b} ha hb => by
    cases a with
    | none => exact hb
    | some a => exact ha
  have hlast : ∀ rows : List (List (Field Tm)),
      ((rows.map (object lib config)).flatMap
        fun v => Json.Token.comma :: v.tokens).getLast? ≠ some .rbracket := by
    intro rows
    induction rows with
    | nil => simp
    | cons fs rows ih =>
      rw [List.map_cons, List.flatMap_cons, List.getLast?_append]
      refine hor ih ?_
      rw [← List.singleton_append, List.getLast?_append, object, Json.getLast?_tokens_obj]
      simp
  cases rows with
  | nil => exact Json.parse_of_unclosed rfl (by simp)
  | cons fields rows =>
    have htext : (lit "[" ++ arrayText lib config (fields :: rows)).map asChar =
        [asChar 0x5b] ++ ((arrayText lib config (fields :: rows)).map asChar ++ []) := by
      simp [lit]
    have hrun := run_arrayText lib config h []
    rw [htext]
    cases hclean : (fields :: rows).all (cleanEntry lib config) with
    | false =>
      rw [hclean] at hrun
      rw [Json.parse, Json.lex, Json.run_then hopen, hrun]
      rfl
    | true =>
      rw [hclean, if_pos rfl] at hrun
      have hlex : Json.lex ([asChar 0x5b] ++
          ((arrayText lib config (fields :: rows)).map asChar ++ [])) =
          some (.lbracket :: ((object lib config fields).tokens ++
            (rows.map (object lib config)).flatMap fun v => Json.Token.comma :: v.tokens)) := by
        rw [Json.lex, Json.run_then hopen, hrun]
        simp [Json.run, Json.finish]
      refine Json.parse_of_unclosed hlex ?_
      rw [List.getLast?_append]
      refine hor (hlast rows) ?_
      rw [object, Json.getLast?_tokens_obj]
      simp

/-- **What a reader of JSON gets from the output.**  The memory behind a string is read
exactly if a text that is shown ends in an escape sequence, or the memory before the
line.  Otherwise there is an output, and it is a document exactly if all lines were read
and no text has a control character left in it. -/
theorem json_read {fields : List (Field Tm)}
    (hinit : syslogEntryInit lib.memory config.entrySpec = .ok fields) {input : List UInt8}
    (hcount : (accepted lib config fields (fileLines input).1).length < 2 ^ 32) :
    (convertSyslog lib config (fmtJson lib config) input = .ok none ↔
      (fileLines input).2 = .overrun ∨
        (accepted lib config fields (fileLines input).1).any (cutEntry lib config) = true) ∧
    (¬ convertSyslog lib config (fmtJson lib config) input = .ok none →
      ∃ out, convertSyslog lib config (fmtJson lib config) input = .ok (some out)) ∧
    ∀ out, convertSyslog lib config (fmtJson lib config) input = .ok (some out) →
      Json.parse (out.map asChar) =
        if (fileLines input).2 = .eof ∧
            (accepted lib config fields (fileLines input).1).all (cleanEntry lib config) = true
        then some (.arr ((accepted lib config fields (fileLines input).1).map
          (object lib config)))
        else none := by
  have htable : ∀ fs ∈ accepted lib config fields (fileLines input).1,
      ∀ f ∈ fs, f.info ∈ syslogFieldInfo := by
    intro fs hfs f hf
    have hshape := shape_accepted lib config hfs
    have hmem : f.shape ∈ fields.map Field.shape := hshape ▸ List.mem_map_of_mem hf
    obtain ⟨g, hg, heq⟩ := List.mem_map.mp hmem
    have hinfo : g.info = f.info := congrArg Prod.fst heq
    exact hinfo ▸ init_table lib.memory hinit g hg
  rw [convertSyslog_eq lib config hinit, entries_json lib config hcount]
  generalize accepted lib config fields (fileLines input).1 = rows at htable ⊢
  cases rows.any (cutEntry lib config) with
  | true => cases (fileLines input).2 <;> simp
  | false =>
    rw [if_neg (by simp)]
    cases (fileLines input).2 with
    | eof =>
      refine ⟨by simp, fun _ => ⟨_, rfl⟩, fun out hout => ?_⟩
      rw [← Option.some.inj (Except.ok.inj hout)]
      simp only [true_and]
      exact parse_ended lib config htable
    | limit =>
      refine ⟨by simp, fun _ => ⟨_, rfl⟩, fun out hout => ?_⟩
      rw [← Option.some.inj (Except.ok.inj hout), if_neg (by simp)]
      exact parse_broken lib config htable
    | overrun =>
      exact ⟨by simp, fun h => absurd rfl h, fun out hout => by cases Except.ok.inj hout⟩

end Formats

/-- A specification with the message alone. -/
def messageSpec : Spec where
  lead := []
  items := [⟨⟨.message, .string, 0x4d, lit "message", lit "Message"⟩, false, false, false, []⟩]

def messageConfig : Config := { defaultConfig with entrySpec := messageSpec.text }

/-- Two lines, the first one with a word in bold type. -/
def boldLines : List UInt8 := lit "\x1b[1mlan\x1b[0m \"2\"\nup\n"

theorem json_read_boldLines :
    Json.parse ((lit "[\x7b\"message\":\"lan \\\"2\\\"\"\x7d,\x7b\"message\":\"up\"\x7d]").map
        asChar) =
      if (fileLines boldLines).2 = .eof ∧
          (accepted someLibc messageConfig (messageSpec.fields ()) (fileLines boldLines).1).all
            (cleanEntry someLibc messageConfig) = true
      then some (.arr ((accepted someLibc messageConfig (messageSpec.fields ())
        (fileLines boldLines).1).map (object someLibc messageConfig)))
      else none :=
  (json_read someLibc messageConfig (by decide +kernel) (by decide +kernel)).2.2 _
    (by decide +kernel)

/-- The sequence does not end before the line does. -/
example : convertSyslog someLibc messageConfig (fmtJson someLibc messageConfig)
    (lit "a \x1b[1;3\n") = .ok none := by decide +kernel

end TfPackages.SyslogFc
