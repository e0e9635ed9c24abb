import TfPackages.CStrings
import TfPackages.Flags

/-! # Entries of a syslog file

`syslog_fc` converts a syslog file.  A specification such as `%T %F.%P %G: %_M` says
how a line is made up; `syslog_entry_init` turns it into a list of fields, each with
the character it starts after and the one it stops at, and `syslog_entry_parse` takes
a line apart by searching for these characters.

The fields are kept from one line to the next, with their values and their flags.
`mod_priority` raises a flag: once a priority was given as a number, the names of
priorities are not checked any more.  And `syslog_entry_init` keeps the last field it
has found in the table, so that an unknown letter stands for the letter before it.
-/
namespace TfPackages.SyslogFc
open CStrings (lit isBlank)

/-! ## Fields -/

/-- `syslog_field_id_t`. -/
inductive FieldId where
  | id
  | timestamp
  | ktime
  | hostname
  | facility
  | priority
  | tag
  | message
deriving DecidableEq, Repr

/-- `syslog_field_type_t`, with the types that the table uses. -/
inductive FieldType where
  | time
  | uinteger
  | string
deriving DecidableEq, Repr

/-- `syslog_field_info_t`. -/
structure FieldInfo where
  id : FieldId
  type : FieldType
  spec : UInt8
  paramName : List UInt8
  humanName : List UInt8
deriving DecidableEq, Repr

/-- `syslog_field_info`. -/
def syslogFieldInfo : List FieldInfo :=
  [⟨.id, .uinteger, 0x49, lit "id", lit "ID"⟩,
    ⟨.timestamp, .time, 0x54, lit "timestamp", lit "Timestamp"⟩,
    ⟨.ktime, .string, 0x4b, lit "ktime", lit "Kernel Time"⟩,
    ⟨.hostname, .string, 0x48, lit "hostname", lit "Hostname"⟩,
    ⟨.facility, .string, 0x46, lit "facility", lit "Facility"⟩,
    ⟨.priority, .string, 0x50, lit "priority", lit "Priority"⟩,
    ⟨.tag, .string, 0x47, lit "tag", lit "Tag"⟩,
    ⟨.message, .string, 0x4d, lit "message", lit "Message"⟩]

/-- The flags of a field. -/
abbrev FieldFlags := BitVec 32

def flagDrop : FieldFlags := 1
def flagNotrim : FieldFlags := 2
def flagNovalidation : FieldFlags := 4

/-- The value of a field; a time is kept as a `struct tm` and in seconds. -/
inductive Value (Tm : Type) where
  | time (timestamp : Tm) (unixtime : Nat)
  | uinteger (n : Nat)
  | string (s : List UInt8)
deriving DecidableEq, Repr

/-- `syslog_field_t`. -/
structure Field (Tm : Type) where
  info : FieldInfo
  flags : FieldFlags
  value : Value Tm
  parseStartChar : UInt8
  parseStopChar : UInt8
deriving DecidableEq, Repr

/-- What the C library does with times. -/
structure Libc (Tm : Type) where
  /-- What `malloc` leaves where the time of a field is. -/
  memory : Tm
  /-- `strptime(s, format, &tm)`: the structure afterwards, and the text from the
  result on, if it is not null. -/
  strptime : (s format : List UInt8) → Tm → Tm × Option (List UInt8)
  /-- `mktime`: the structure, brought into range, and the seconds. -/
  mktime : Tm → Tm × Nat
  /-- `strftime`: what is in the buffer afterwards. -/
  strftime : (format : List UInt8) → Tm → List UInt8

/-- `config_t`, without the choice of the input and what only HTML uses. -/
structure Config where
  entrySpec : List UInt8
  tsParseSpec : List UInt8
  tsOutputSpec : List UInt8
  csvDelimeter : List UInt8

/-- `default_config`. -/
def defaultConfig : Config :=
  ⟨lit "%T %F.%P %G: %_M", lit "%a %b %d %H:%M:%S %Y", [], lit ","⟩

/-! ## The specification -/

/-- Why the specification is refused. -/
inductive InitError where
  /-- No character between two specificators. -/
  | noSeparator
  /-- Unknown specificator. -/
  | unknown
  /-- Duplicate specificator. -/
  | duplicate
  /-- The loop goes on behind the end of the specification. -/
  | overrun
deriving DecidableEq, Repr

/-- The variables of `syslog_entry_init`. -/
structure InitState (Tm : Type) where
  /-- The fields before `last_field`. -/
  done : List (Field Tm)
  lastField : Option (Field Tm)
  fieldInfo : Option FieldInfo
  flags : FieldFlags
  parseStartChar : UInt8

section Init
variable {Tm : Type}

/-- `entry->fields`. -/
def InitState.fields (st : InitState Tm) : List (Field Tm) := st.done ++ st.lastField.toList

/-- `last_field && last_field->parse_stop_char == 0`. -/
def InitState.open (st : InitState Tm) : Bool := st.lastField.any fun f => f.parseStopChar = 0

/-- `last_field->parse_stop_char = c`. -/
def InitState.stopAt (st : InitState Tm) (c : UInt8) : InitState Tm :=
  { st with lastField := st.lastField.map fun f => { f with parseStopChar := c } }

/-- A character that is not `%`. -/
def InitState.literal (st : InitState Tm) (c : UInt8) : InitState Tm :=
  if st.open then st.stopAt c else { st with parseStartChar := c }

/-- The new field of a specificator.  `fields_mask` has the ids of the fields there
are. -/
def InitState.add (memory : Tm) (st : InitState Tm) (info : FieldInfo) :
    Except InitError (InitState Tm) :=
  if Flags.has st.flags flagDrop = false ∧ st.fields.any (fun f => f.info.id = info.id) then
    .error .duplicate
  else
    .ok ⟨st.fields, some ⟨info, st.flags, .time memory 0, st.parseStartChar, 0⟩, some info, 0, 0⟩

/-- The loop of `syslog_entry_init`; `inSpec` is the label `get_next_ch`. -/
def initLoop (memory : Tm) : (inSpec : Bool) → InitState Tm → List UInt8 →
    Except InitError (List (Field Tm))
  | false, st, [] => .ok st.fields
  | false, st, c :: p =>
    if c ≠ 0x25 then initLoop memory false (st.literal c) p
    else if st.open then .error .noSeparator
    else initLoop memory true st p
  | true, st, [] =>
    -- the specification ends after `%`: its NUL is read as a specificator
    match st.fieldInfo with
    | none => .error .unknown
    | some info => do
      let _ ← st.add memory info
      .error .overrun
  | true, st, ch :: p =>
    if ch = 0x21 then initLoop memory true { st with flags := Flags.set st.flags flagDrop } p
    else if ch = 0x5f then
      initLoop memory true { st with flags := Flags.set st.flags flagNotrim } p
    else if ch = 0x40 then
      initLoop memory true { st with flags := Flags.set st.flags flagNovalidation } p
    else
      -- `field_info` keeps its value when the table has no such letter
      match (syslogFieldInfo.find? fun info => ch = info.spec).or st.fieldInfo with
      | none =>
        if ch = 0x25 then initLoop memory false (if st.open then st.stopAt ch else st) p
        else .error .unknown
      | some info => do
        let st ← st.add memory info
        initLoop memory false st p

/-- `syslog_entry_init`. -/
def syslogEntryInit (memory : Tm) (entrySpec : List UInt8) :
    Except InitError (List (Field Tm)) :=
  initLoop memory false ⟨[], none, none, 0, 0⟩ entrySpec

end Init

/-! ## A line -/

/-- `prioritynames` of `syslog.h`. -/
def prioritynames : List (List UInt8 × Nat) :=
  [(lit "alert", 1), (lit "crit", 2), (lit "debug", 7), (lit "emerg", 0), (lit "err", 3),
    (lit "error", 3), (lit "info", 6), (lit "none", 0x10), (lit "notice", 5), (lit "panic", 0),
    (lit "warn", 4), (lit "warning", 4)]

/-- `facilitynames` of `syslog.h`, without the values. -/
def facilitynames : List (List UInt8) :=
  ["auth", "authpriv", "cron", "daemon", "ftp", "kern", "lpr", "mail", "mark", "news", "security",
    "syslog", "user", "uucp", "local0", "local1", "local2", "local3", "local4", "local5", "local6",
    "local7"].map lit

/-- `strisnumber`. -/
def strisnumber (s : List UInt8) : Bool := s ≠ [] && s.all fun c => 0x30 ≤ c && c ≤ 0x39

/-- `find_syslog_name_by_val` for a priority. -/
def findSyslogNameByVal (val : Nat) : Option (List UInt8) :=
  (prioritynames.find? fun c => val = c.2).map Prod.fst

/-- `strchr`: the text from the first `c` on.  A NUL is found at the end. -/
def strchr (s : List UInt8) (c : UInt8) : Option (List UInt8) :=
  if c = 0 then some []
  else match s.dropWhile (· ≠ c) with
    | [] => none
    | t => some t

/-- `parse_string`, without the field: the value and the text behind it. -/
def parseString (flags : FieldFlags) (parseStopChar : UInt8) (data : List UInt8) :
    Option (List UInt8 × List UInt8) :=
  let p := if Flags.has flags flagNotrim then data.dropWhile isBlank else data
  (strchr p parseStopChar).map fun p =>
    ((data.take (data.length - p.length)).takeWhile fun c => c ≠ 0x0d ∧ c ≠ 0x0a, p.drop 1)

/-- Why a line is refused. -/
inductive Failure where
  /-- The start character is not found. -/
  | start
  /-- `Failed to parse '%s' field`. -/
  | parse (paramName : List UInt8)
  /-- `Readed invalid value for field '%s'`. -/
  | invalid (paramName : List UInt8)
deriving DecidableEq, Repr

section Parse
variable {Tm : Type} (lib : Libc Tm) (config : Config)

/-- `field->value.time.timestamp`. -/
def Value.timestamp : Value Tm → Tm
  | .time timestamp _ => timestamp
  | _ => lib.memory

/-- `field->value.time.unixtime`. -/
def Value.unixtime : Value Tm → Nat
  | .time _ unixtime => unixtime
  | _ => 0

/-- The value of a string field. -/
def Value.text : Value Tm → List UInt8
  | .string s => s
  | _ => []

/-- The `switch` over the type of the field: `parse_timestamp`, `parse_string` and
`parse_uinteger`. -/
def parseValue (field : Field Tm) (data : List UInt8) : Value Tm × Option (List UInt8) :=
  match field.info.type with
  | .time =>
    match lib.strptime data config.tsParseSpec (field.value.timestamp lib) with
    | (timestamp, none) => (.time timestamp field.value.unixtime, none)
    | (timestamp, some data) =>
      (.time (lib.mktime timestamp).1 (lib.mktime timestamp).2, some data)
  | .string =>
    match parseString field.flags field.parseStopChar data with
    | none => (field.value, none)
    | some (s, data) => (.string s, some data)
  | .uinteger =>
    match parseString field.flags field.parseStopChar data with
    | none => (field.value, none)
    | some (s, data) => (.uinteger (CStrings.strtoul s), some data)

/-- `mod_priority`. -/
def modPriority (field : Field Tm) : Field Tm :=
  if strisnumber field.value.text then
    { field with
      flags := Flags.set field.flags flagNovalidation
      value :=
        match findSyslogNameByVal (CStrings.strtoul field.value.text) with
        | some name => .string name
        | none => field.value }
  else field

/-- `info->modifier`. -/
def Field.modify (field : Field Tm) : Field Tm :=
  if field.info.id = .priority then modPriority field else field

/-- `info->validator`: `validate_facility` and `validate_priority`. -/
def Field.validate (field : Field Tm) : Bool :=
  match field.info.id with
  | .facility => facilitynames.any (field.value.text = ·)
  | .priority => prioritynames.any (field.value.text = ·.1)
  | _ => true

/-- `syslog_entry_field_parse`: the field afterwards and the text behind it. -/
def syslogEntryFieldParse (data : List UInt8) (field : Field Tm) :
    Field Tm × Except Failure (List UInt8) :=
  match (if field.parseStartChar = 0 then some data
      else (strchr data field.parseStartChar).map (·.drop 1)) with
  | none => (field, .error .start)
  | some data =>
    let data := if Flags.has field.flags flagNotrim then data else data.dropWhile isBlank
    let (value, data) := parseValue lib config field data
    let field := { field with value := value }
    match data with
    | none => (field, .error (.parse field.info.paramName))
    | some data =>
      let field := field.modify
      if Flags.has field.flags flagNovalidation = false ∧ field.validate = false then
        (field, .error (.invalid field.info.paramName))
      else (field, .ok data)

/-- `syslog_entry_parse`: the fields afterwards, and why the line is refused. -/
def syslogEntryParse : List (Field Tm) → List UInt8 → List (Field Tm) × Except Failure Unit
  | [], _ => ([], .ok ())
  | field :: fields, data =>
    match syslogEntryFieldParse lib config data field with
    | (field, .error e) => (field :: fields, .error e)
    | (field, .ok data) =>
      let (fields, ret) := syslogEntryParse fields data
      (field :: fields, ret)

end Parse

end TfPackages.SyslogFc
