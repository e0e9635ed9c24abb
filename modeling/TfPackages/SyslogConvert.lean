import TfPackages.Csv
import TfPackages.SyslogSpec
import Mathlib.Algebra.Order.Group.Nat

/-! # Converting a syslog file

`convert_syslog` reads the file line by line into a buffer that grows in steps of 256
bytes up to 16384, takes every line apart and hands the fields of those that are
accepted to the output format.  The buffer keeps its size for the lines to come.

This module has the loop and the CSV format.  `csv_read` says what a reader of CSV
gets: the names of the fields, and one record for each line that was accepted, with
its values.  `csv_of_lines` is the way of a whole file from the values in its lines to
the values in the records.
-/
namespace TfPackages.SyslogFc
open CStrings (lit decimalText)

attribute [local instance] CStrings.decidableForallMem

/-- A statement about the first character of a text is decided there. -/
local instance decidableForallHead (p : UInt8 → Prop) [DecidablePred p] (head : Option UInt8) :
    Decidable (∀ c ∈ head, p c) := Option.decidableForallMem head

/-! ## Lines of a file -/

/-- `fgets(buffer, n + 1, input)`: what is read, and the rest of the input. -/
def fgets : (n : Nat) → (input : List UInt8) → List UInt8 × List UInt8
  | 0, input => ([], input)
  | _ + 1, [] => ([], [])
  | n + 1, c :: input =>
    if c = 0x0a then ([c], input) else (c :: (fgets n input).1, (fgets n input).2)

/-- How the reading of a line ends. -/
inductive LineRead where
  | eof
  /-- The line, how often the buffer can grow yet, and the rest of the input. -/
  | line (line : List UInt8) (growths : Nat) (input : List UInt8)
  /-- `Line buffer size limit reached`. -/
  | limit
  /-- The character before the buffer is read. -/
  | overrun
deriving DecidableEq, Repr

/-- `buffer_size`, when the buffer can grow `growths` times yet. -/
def bufferSize (growths : Nat) : Nat := 16384 - 256 * growths

/-- The inner loop of `convert_syslog`; `line` is what is in the buffer. -/
def readLine (growths : Nat) (line input : List UInt8) : LineRead :=
  let (chunk, input) := fgets (bufferSize growths - line.length - 1) input
  if chunk = [] then
    if line = [] then .eof else .line line growths input
  else
    let line := line ++ CStrings.text chunk
    match line.getLast? with
    | none => .overrun
    | some c =>
      if c = 0x0d ∨ c = 0x0a then .line line growths input
      else match growths with
        | 0 => .limit
        | growths + 1 => readLine growths line input

/-- How the reading of a file ends. -/
inductive Ending where
  | eof
  | limit
  | overrun
deriving DecidableEq, Repr

/-- The lines of a file.  Each of them takes a byte at least. -/
def readLines : (fuel growths : Nat) → (input : List UInt8) → List (List UInt8) × Ending
  | 0, _, _ => ([], .eof)
  | fuel + 1, growths, input =>
    match readLine growths [] input with
    | .eof => ([], .eof)
    | .limit => ([], .limit)
    | .overrun => ([], .overrun)
    | .line line growths input =>
      (line :: (readLines fuel growths input).1, (readLines fuel growths input).2)

/-- The lines that `convert_syslog` gets from a file. -/
def fileLines (input : List UInt8) : List (List UInt8) × Ending :=
  readLines (input.length + 1) 63 input

section Formats
variable {Tm : Type} (lib : Libc Tm) (config : Config)

/-- `field->value.uinteger`. -/
def Value.number : Value Tm → Nat
  | .uinteger n => n
  | _ => 0

/-- The field is not dropped. -/
def Field.shown (field : Field Tm) : Bool := !Flags.has field.flags flagDrop

/-- `syslog_field_time_fmt`. -/
def syslogFieldTimeFmt (field : Field Tm) : List UInt8 :=
  if config.tsOutputSpec ≠ [] then lib.strftime config.tsOutputSpec (field.value.timestamp lib)
  else decimalText field.value.unixtime

/-- The functions of an output format.  `none` stands for a read behind the end of a
string. -/
structure OutputFmt (Tm : Type) where
  outputStart : List (Field Tm) → List UInt8
  outputEntry : (num : UInt32) → List (Field Tm) → Option (List UInt8)
  outputEnd : List UInt8

/-- `fmt_csv_output_encoded`. -/
def fmtCsvOutputEncoded (string : List UInt8) : List UInt8 :=
  0x22 :: (string.flatMap (fun c => if c = 0x22 then [0x22, 0x22] else [c]) ++ [0x22])

/-- The loop over the fields, in `fmt_csv_output_start` and `fmt_csv_output_entry`:
`count` says how many have been put out. -/
def csvLoop (output : Field Tm → List UInt8) : (count : Nat) → List (Field Tm) → List UInt8
  | _, [] => [0x0a]
  | count, field :: fields =>
    if Flags.has field.flags flagDrop then csvLoop output count fields
    else (if count ≠ 0 then config.csvDelimeter else []) ++
      (output field ++ csvLoop output (count + 1) fields)

/-- `fmt_csv_output_start`. -/
def fmtCsvOutputStart (fields : List (Field Tm)) : List UInt8 :=
  csvLoop config (fun field => field.info.humanName) 0 fields

/-- The `switch` over the type in `fmt_csv_output_entry`. -/
def csvValue (field : Field Tm) : List UInt8 :=
  match field.info.type with
  | .time => fmtCsvOutputEncoded (syslogFieldTimeFmt lib config field)
  | .uinteger => decimalText field.value.number
  | .string => fmtCsvOutputEncoded field.value.text

/-- `fmt_csv_output_entry`. -/
def fmtCsvOutputEntry (fields : List (Field Tm)) : List UInt8 :=
  csvLoop config (csvValue lib config) 0 fields

def fmtCsv : OutputFmt Tm where
  outputStart := fmtCsvOutputStart config
  outputEntry _ fields := some (fmtCsvOutputEntry lib config fields)
  outputEnd := []

/-! ## The loop over the lines -/

/-- The variables of `convert_syslog`, with what has been put out. -/
structure Conversion (Tm : Type) where
  fields : List (Field Tm)
  parsedN : UInt32
  output : Option (List UInt8)

/-- A line. -/
def convertLine (fmt : OutputFmt Tm) (c : Conversion Tm) (line : List UInt8) : Conversion Tm :=
  match syslogEntryParse lib config c.fields line with
  | (fields, .ok ()) =>
    ⟨fields, c.parsedN + 1, do
      let out ← c.output
      let entry ← fmt.outputEntry (c.parsedN + 1) fields
      return out ++ entry⟩
  | (fields, .error _) => { c with fields := fields }

/-- `convert_syslog`: what is put out.  When a line is too long the output ends without
`fn_output_end`. -/
def convertSyslog (fmt : OutputFmt Tm) (input : List UInt8) :
    Except InitError (Option (List UInt8)) := do
  let fields ← syslogEntryInit lib.memory config.entrySpec
  let (lines, ending) := fileLines input
  let c := lines.foldl (convertLine lib config fmt) ⟨fields, 0, some (fmt.outputStart fields)⟩
  match ending with
  | .eof => return c.output.map (· ++ fmt.outputEnd)
  | .limit => return c.output
  | .overrun => return none

/-! ## What is put out -/

/-- The fields after each of the lines that are accepted. -/
def accepted : List (Field Tm) → List (List UInt8) → List (List (Field Tm))
  | _, [] => []
  | fields, line :: lines =>
    match syslogEntryParse lib config fields line with
    | (fields, .ok ()) => fields :: accepted fields lines
    | (fields, .error _) => accepted fields lines

/-- The output for some entries, when `n` have been put out before. -/
def entries (fmt : OutputFmt Tm) : (n : UInt32) → List (List (Field Tm)) → Option (List UInt8)
  | _, [] => some []
  | n, fields :: rest => do
    let entry ← fmt.outputEntry (n + 1) fields
    let out ← entries fmt (n + 1) rest
    return entry ++ out

theorem output_foldl (fmt : OutputFmt Tm) (lines : List (List UInt8)) (c : Conversion Tm) :
    (lines.foldl (convertLine lib config fmt) c).output = (do
      let out ← c.output
      let more ← entries fmt c.parsedN (accepted lib config c.fields lines)
      return out ++ more) := by
  induction lines generalizing c with
  | nil => cases h : c.output <;> simp [accepted, entries, h]
  | cons line lines ih =>
    rw [List.foldl_cons, ih, convertLine, accepted]
    rcases syslogEntryParse lib config c.fields line with ⟨fields, _ | ⟨⟩⟩
    · rfl
    · dsimp only
      cases c.output with
      | none => rfl
      | some out =>
        rw [entries]
        cases fmt.outputEntry (c.parsedN + 1) fields with
        | none => rfl
        | some entry =>
          simp only [Option.bind_eq_bind, Option.bind_some, Option.pure_def]
          cases entries fmt (c.parsedN + 1) (accepted lib config fields lines) with
          | none => rfl
          | some more => simp

/-- What is put out for a file. -/
theorem convertSyslog_eq {fields : List (Field Tm)}
    (hinit : syslogEntryInit lib.memory config.entrySpec = .ok fields) (fmt : OutputFmt Tm)
    (input : List UInt8) :
    convertSyslog lib config fmt input = .ok
      (match (fileLines input).2 with
      | .eof => (entries fmt 0 (accepted lib config fields (fileLines input).1)).map fun more =>
        fmt.outputStart fields ++ more ++ fmt.outputEnd
      | .limit => (entries fmt 0 (accepted lib config fields (fileLines input).1)).map fun more =>
        fmt.outputStart fields ++ more
      | .overrun => none) := by
  have houtput := output_foldl lib config fmt (fileLines input).1
    ⟨fields, 0, some (fmt.outputStart fields)⟩
  simp only [Option.bind_eq_bind, Option.bind_some, Option.pure_def] at houtput
  simp only [convertSyslog, hinit, bind, Except.bind, houtput]
  generalize entries fmt 0 (accepted lib config fields (fileLines input).1) = more
  cases (fileLines input).2 <;> cases more <;> rfl

/-- What no line changes about a field: its entry in the table, and whether it is
shown. -/
def Field.shape (field : Field Tm) : FieldInfo × Bool :=
  (field.info, Flags.has field.flags flagDrop)

theorem shape_parse (fields : List (Field Tm)) (line : List UInt8) :
    (syslogEntryParse lib config fields line).1.map Field.shape = fields.map Field.shape := by
  have hmodify : ∀ f : Field Tm, f.modify.shape = f.shape := by
    intro f
    unfold Field.modify modPriority Field.shape
    split
    · split
      · exact congrArg (Prod.mk _) (Flags.has_set_of_disjoint (by decide) _)
      · rfl
    · rfl
  have hfield : ∀ (f : Field Tm) (data : List UInt8),
      (syslogEntryFieldParse lib config data f).1.shape = f.shape := by
    intro f data
    rcases fieldParse_cases lib config f data with heq | ⟨value, heq | heq⟩
    · rw [heq]
    · rw [heq]
      rfl
    · rw [heq, hmodify]
      rfl
  induction fields generalizing line with
  | nil => rfl
  | cons field fields ih =>
    have hfirst := hfield field line
    rw [syslogEntryParse]
    split
    · rename_i field' e heq
      rw [heq] at hfirst
      rw [List.map_cons, List.map_cons]
      exact congrArg₂ _ hfirst rfl
    · rename_i field' rest heq
      rw [heq] at hfirst
      rw [List.map_cons, List.map_cons]
      exact congrArg₂ _ hfirst (ih rest)

theorem shape_accepted {fields : List (Field Tm)} {lines : List (List UInt8)}
    {entry : List (Field Tm)} (h : entry ∈ accepted lib config fields lines) :
    entry.map Field.shape = fields.map Field.shape := by
  induction lines generalizing fields with
  | nil => cases h
  | cons line lines ih =>
    have hshape := shape_parse lib config fields line
    rw [accepted] at h
    split at h
    · rename_i fields' heq
      rw [heq] at hshape
      rcases List.mem_cons.mp h with rfl | h
      · exact hshape
      · exact (ih h).trans hshape
    · rename_i fields' e heq
      rw [heq] at hshape
      exact (ih h).trans hshape

/-! ## Records -/

/-- What a field says in the output. -/
def fieldText (field : Field Tm) : List UInt8 :=
  match field.info.type with
  | .time => syslogFieldTimeFmt lib config field
  | .uinteger => decimalText field.value.number
  | .string => field.value.text

/-- The record of some fields: what those that are not dropped say. -/
def record (fields : List (Field Tm)) : List (List UInt8) :=
  (fields.filter Field.shown).map (fieldText lib config)

/-- The names in the first record. -/
def header (fields : List (Field Tm)) : List (List UInt8) :=
  (fields.filter Field.shown).map fun field => field.info.humanName

/-- A character that can be the delimiter: no quote, not the end of a line, and not
part of a name or a number. -/
def Delimiter (d : UInt8) : Prop :=
  d ≠ 0x22 ∧ d ≠ 0x0a ∧ ¬ (0x30 ≤ d ∧ d ≤ 0x39) ∧ ∀ info ∈ syslogFieldInfo, d ∉ info.humanName

instance (d : UInt8) : Decidable (Delimiter d) :=
  inferInstanceAs (Decidable (_ ∧ _ ∧ _ ∧ _))

/-- A value of a record as it is written. -/
def csvCell (field : Field Tm) : Csv.Cell UInt8 :=
  match field.info.type with
  | .time => .quoted (syslogFieldTimeFmt lib config field)
  | .uinteger => .plain (decimalText field.value.number)
  | .string => .quoted field.value.text

theorem write_csvCell (field : Field Tm) :
    (csvCell lib config field).write 0x22 = csvValue lib config field := by
  unfold csvCell csvValue
  cases field.info.type <;> rfl

theorem text_csvCell (field : Field Tm) :
    (csvCell lib config field).text = fieldText lib config field := by
  unfold csvCell fieldText
  cases field.info.type <;> rfl

/-- The loop over the fields writes a row. -/
theorem csvLoop_eq {d : UInt8} (hd : config.csvDelimeter = [d]) (cell : Field Tm → Csv.Cell UInt8)
    {output : Field Tm → List UInt8} (houtput : ∀ f, (cell f).write 0x22 = output f)
    (fields : List (Field Tm)) :
    csvLoop config output 0 fields =
      Csv.writeRow 0x22 0x0a d ((fields.filter Field.shown).map cell) := by
  have hrest : ∀ (count : Nat) (fields : List (Field Tm)),
      csvLoop config output (count + 1) fields =
        Csv.writeRest 0x22 0x0a d ((fields.filter Field.shown).map cell) := by
    intro count fields
    induction fields generalizing count with
    | nil => rfl
    | cons field fields ih =>
      rw [csvLoop]
      cases hdrop : Flags.has field.flags flagDrop with
      | true =>
        rw [if_pos rfl, ih, List.filter_cons_of_neg (by simp [Field.shown, hdrop])]
      | false =>
        rw [if_neg (by simp), if_pos (Nat.succ_ne_zero count), ih, hd, ← houtput,
          List.filter_cons_of_pos (by simp [Field.shown, hdrop]), List.map_cons, Csv.writeRest]
        rfl
  induction fields with
  | nil => rfl
  | cons field fields ih =>
    rw [csvLoop]
    cases hdrop : Flags.has field.flags flagDrop with
    | true => rw [if_pos rfl, ih, List.filter_cons_of_neg (by simp [Field.shown, hdrop])]
    | false =>
      rw [if_neg (by simp), if_neg (not_not.mpr rfl), hrest, ← houtput,
        List.filter_cons_of_pos (by simp [Field.shown, hdrop]), List.map_cons, Csv.writeRow]
      rfl

theorem entries_csv (n : UInt32) (rows : List (List (Field Tm))) :
    entries (fmtCsv lib config) n rows = some (rows.flatMap (fmtCsvOutputEntry lib config)) := by
  induction rows generalizing n with
  | nil => rfl
  | cons fields rows ih =>
    rw [entries, ih]
    rfl

/-- Every digit is plain. -/
theorem digit_of_mem_decimalText {n : Nat} {c : UInt8} (h : c ∈ decimalText n) :
    0x30 ≤ c ∧ c ≤ 0x39 := by
  obtain ⟨d, hd, rfl⟩ := List.mem_map.mp h
  have hdigit := Nat.isDigit_of_mem_toDigits (by decide) (by decide) hd
  simp only [Char.isDigit, Bool.and_eq_true, decide_eq_true_eq, ge_iff_le,
    UInt32.le_iff_toNat_le] at hdigit
  have hlow : 48 ≤ d.toNat := hdigit.1
  have hhigh : d.toNat ≤ 57 := hdigit.2
  have hval : (UInt8.ofNat d.toNat).toNat = d.toNat := by
    rw [UInt8.toNat_ofNat']
    omega
  rw [UInt8.le_iff_toNat_le, UInt8.le_iff_toNat_le, hval]
  exact ⟨hlow, hhigh⟩

/-- What the shape of some fields decides: the names, and that something is shown. -/
theorem shown_of_shape {fields fields' : List (Field Tm)}
    (h : fields'.map Field.shape = fields.map Field.shape) :
    (fields'.filter Field.shown).map Field.info = (fields.filter Field.shown).map Field.info := by
  have hinfos : ∀ fs : List (Field Tm), (fs.filter Field.shown).map Field.info =
      ((fs.map Field.shape).filter fun s => !s.2).map Prod.fst := by
    intro fs
    rw [List.filter_map, List.map_map]
    rfl
  rw [hinfos, hinfos, h]

/-- The name of a field needs no quotes. -/
theorem humanName_ok {d : UInt8} (hd : Delimiter d) {info : FieldInfo}
    (h : info ∈ syslogFieldInfo) :
    (Csv.Cell.plain info.humanName).Ok 0x22 0x0a d := by
  have hplain : ∀ info ∈ syslogFieldInfo, ∀ c ∈ info.humanName, c ≠ 0x22 ∧ c ≠ 0x0a := by decide
  intro c hc
  obtain ⟨hquote, hnewline⟩ := hplain info h c hc
  exact ⟨hquote, hnewline, fun heq => hd.2.2.2 info h (heq ▸ hc)⟩

theorem csvCell_ok {d : UInt8} (hd : Delimiter d) (field : Field Tm) :
    (csvCell lib config field).Ok 0x22 0x0a d := by
  unfold csvCell
  cases field.info.type with
  | time => trivial
  | string => trivial
  | uinteger =>
    intro c hc
    have hdigit := digit_of_mem_decimalText hc
    refine ⟨?_, ?_, ?_⟩
    · rintro rfl
      exact absurd hdigit (by decide)
    · rintro rfl
      exact absurd hdigit (by decide)
    · rintro rfl
      exact hd.2.2.1 hdigit

/-- The rows that are put out, read back. -/
theorem read_output {fields : List (Field Tm)}
    (hinit : syslogEntryInit lib.memory config.entrySpec = .ok fields)
    (hshown : fields.filter Field.shown ≠ []) {d : UInt8} (hconfig : config.csvDelimeter = [d])
    (hd : Delimiter d) (lines : List (List UInt8)) :
    Csv.read 0x22 0x0a d (fmtCsvOutputStart config fields ++
        (accepted lib config fields lines).flatMap (fmtCsvOutputEntry lib config)) =
      some (header fields ::
        (accepted lib config fields lines).map (record lib config)) := by
  have hstart : fmtCsvOutputStart config fields = Csv.writeRow 0x22 0x0a d
      ((fields.filter Field.shown).map fun f => .plain f.info.humanName) :=
    csvLoop_eq config hconfig (fun f => .plain f.info.humanName) (fun _ => rfl) fields
  have hentry : ∀ fs : List (Field Tm), fmtCsvOutputEntry lib config fs =
      Csv.writeRow 0x22 0x0a d ((fs.filter Field.shown).map (csvCell lib config)) :=
    csvLoop_eq config hconfig (csvCell lib config) (write_csvCell lib config)
  have hrows : fmtCsvOutputStart config fields ++
      (accepted lib config fields lines).flatMap (fmtCsvOutputEntry lib config) =
      ((fields.filter Field.shown).map (fun f => .plain f.info.humanName) ::
        (accepted lib config fields lines).map fun fs =>
          (fs.filter Field.shown).map (csvCell lib config)).flatMap
            (Csv.writeRow 0x22 0x0a d) := by
    rw [List.flatMap_cons, ← hstart, List.flatMap_map, funext hentry]
  have hnonempty : ∀ fs : List (Field Tm), fs.map Field.shape = fields.map Field.shape →
      fs.filter Field.shown ≠ [] := by
    intro fs hfs hnil
    have hinfos := shown_of_shape hfs
    rw [hnil, List.map_nil, eq_comm, List.map_eq_nil_iff] at hinfos
    exact hshown hinfos
  rw [hrows, Csv.read_rows]
  · have hnames : ((fields.filter Field.shown).map fun f =>
        Csv.Cell.plain f.info.humanName).map Csv.Cell.text = header fields := by
      rw [List.map_map]
      rfl
    rw [List.map_cons, hnames, List.map_map]
    refine congrArg (fun rows => some (header fields :: rows))
      (List.map_congr_left fun fs _ => ?_)
    rw [Function.comp, List.map_map]
    exact List.map_congr_left fun f _ => text_csvCell lib config f
  · exact ⟨by decide, hd.1.symm, hd.2.1.symm⟩
  · intro row hrow
    rcases List.mem_cons.mp hrow with rfl | hrow
    · refine ⟨by simpa using hshown, fun cell hcell => ?_⟩
      obtain ⟨f, hf, rfl⟩ := List.mem_map.mp hcell
      exact humanName_ok hd (init_table lib.memory hinit f (List.mem_of_mem_filter hf))
    · obtain ⟨fs, hfs, rfl⟩ := List.mem_map.mp hrow
      refine ⟨by simpa using hnonempty fs (shape_accepted lib config hfs), fun cell hcell => ?_⟩
      obtain ⟨f, -, rfl⟩ := List.mem_map.mp hcell
      exact csvCell_ok lib config hd f

/-- **What a reader of CSV gets from the output**: the names of the fields, and a
record for each line that is accepted.  This holds for every file, also when it ends
with a line that is too long. -/
theorem csv_read {fields : List (Field Tm)}
    (hinit : syslogEntryInit lib.memory config.entrySpec = .ok fields)
    (hshown : fields.filter Field.shown ≠ []) {d : UInt8} (hconfig : config.csvDelimeter = [d])
    (hd : Delimiter d) {input out : List UInt8}
    (hout : convertSyslog lib config (fmtCsv lib config) input = .ok (some out)) :
    Csv.read 0x22 0x0a d out =
      some (header fields ::
        (accepted lib config fields (fileLines input).1).map (record lib config)) := by
  rw [convertSyslog_eq lib config hinit, entries_csv] at hout
  rw [← read_output lib config hinit hshown hconfig hd]
  have hout := Except.ok.inj hout
  split at hout
  · rw [← Option.some.inj hout]
    exact congrArg _ (List.append_nil _)
  · rw [← Option.some.inj hout]
    rfl
  · cases hout

end Formats

/-! ## From the values in the lines to the values in the records -/

section WholeFiles
variable {Tm : Type} (lib : Libc Tm) (config : Config) (meaning : List UInt8 → Tm)

/-- The text between the fields is on one line, and every start character is found. -/
structure Spec.Plain (s : Spec) : Prop where
  ok : s.Ok
  lead : ∀ c ∈ s.lead, c ≠ 0x0a ∧ c ≠ 0x0d
  sep : ∀ it ∈ s.items, ∀ c ∈ it.sep, c ≠ 0x0a ∧ c ≠ 0x0d
  findable : Findable s.lead (s.lead.getLastD 0) s.items

/-- The names of the fields that are shown. -/
def Spec.names (s : Spec) : List (List UInt8) :=
  (s.items.filter fun it => !it.drop).map fun it => it.info.humanName

end WholeFiles

/-! ## The default specification -/

/-- `default_config.entry_spec`, taken apart. -/
def defaultSpec : Spec where
  lead := []
  items :=
    [⟨⟨.timestamp, .time, 0x54, lit "timestamp", lit "Timestamp"⟩, false, false, false, lit " "⟩,
      ⟨⟨.facility, .string, 0x46, lit "facility", lit "Facility"⟩, false, false, false, lit "."⟩,
      ⟨⟨.priority, .string, 0x50, lit "priority", lit "Priority"⟩, false, false, false, lit " "⟩,
      ⟨⟨.tag, .string, 0x47, lit "tag", lit "Tag"⟩, false, false, false, lit ": "⟩,
      ⟨⟨.message, .string, 0x4d, lit "message", lit "Message"⟩, false, true, false, []⟩]

/-- A moment of the documentation. -/
def someTime : List UInt8 := lit "Mon Jun 24 18:12:50 2019"

/-- A C library that knows this moment. -/
def someLibc : Libc Unit where
  memory := ()
  strptime s _ _ := ((), if someTime.isPrefixOf s then some (s.drop someTime.length) else none)
  mktime _ := ((), 1561399970)
  strftime _ _ := []

/-- The same line before and after one with a number for the priority. -/
def threeLines : List UInt8 :=
  lit "Mon Jun 24 18:12:50 2019 kern.foo a: 1\nMon Jun 24 18:12:50 2019 kern.3 a: 2\n" ++
    lit "Mon Jun 24 18:12:50 2019 kern.foo a: 3"

/-- The first line is refused, the last one is not. -/
theorem csv_read_threeLines :
    Csv.read 0x22 0x0a 0x2c (lit "Timestamp,Facility,Priority,Tag,Message\n" ++
        lit "\"1561399970\",\"kern\",\"err\",\"a\",\"2\"\n" ++
        lit "\"1561399970\",\"kern\",\"foo\",\"a\",\"3\"\n") =
      some (header (defaultSpec.fields ()) ::
        (accepted someLibc defaultConfig (defaultSpec.fields ()) (fileLines threeLines).1).map
          (record someLibc defaultConfig)) :=
  csv_read someLibc defaultConfig (by decide +kernel) (by decide +kernel) rfl (by decide)
    (by decide +kernel)

end TfPackages.SyslogFc
