import TfPackages.Json
import TfPackages.RestartDaemon
import TfPackages.Scanf

/-! # The status report

`printBufferJson` prints the records of the eight ports as a JSON document.  The
status of a port is put together from the messages of its error bits, with a
comma in front of a message if `lenErrorMsg` is not zero.  Two of the messages do
not compute `lenErrorMsg` anew but take the value that is left from the ports
before.  The time of the last restart was written by `getTimeDate`, into buffers
that are too short for a year of four digits, and with the end of a line in the
name of the eighth month.
-/
namespace TfPackages.Restart

/-! ## The time of a restart -/

/-- `struct tm`, as `localtime` fills it. -/
structure LocalTime where
  hour : Nat
  min : Nat
  sec : Nat
  mday : Nat
  mon : Nat
  /-- `tm_year + 1900` -/
  year : Int
  hour_lt : hour < 24
  min_lt : min < 60
  sec_le : sec ≤ 60
  mday_le : mday ≤ 31
  mon_lt : mon < 12
deriving DecidableEq, Repr

/-- `%d`. -/
def formatInt (v : Int) : List Char :=
  if v < 0 then '-' :: Nat.toDigits 10 v.natAbs else Nat.toDigits 10 v.natAbs

/-- `%02d`, for a number that is not negative. -/
def formatTwo (n : Nat) : List Char :=
  List.replicate (2 - (Nat.toDigits 10 n).length) '0' ++ Nat.toDigits 10 n

def monthTable : List String :=
  ["\n", "January", "February", "March", "April", "May", "June", "Julie", "August\n0", "September",
    "October", "November", "December"]

/-- `timeStr` of `getTimeDate`. -/
def LocalTime.timeStr (t : LocalTime) : List Char :=
  formatTwo t.hour ++ ':' :: formatTwo t.min ++ ':' :: formatTwo t.sec ++ ", ".toList

/-- `dayStr` of `getTimeDate`. -/
def LocalTime.dayStr (t : LocalTime) : List Char := formatInt t.mday ++ ['-']

def LocalTime.month (t : LocalTime) : List Char := (monthTable.getD (t.mon + 1) "").toList

/-- `yearStr` of `getTimeDate`. -/
def LocalTime.yearStr (t : LocalTime) : List Char := '-' :: formatInt t.year

/-- `getTimeDate`. -/
def getTimeDate (t : LocalTime) : List Char := t.timeStr ++ (t.dayStr ++ (t.month ++ t.yearStr))

/-- The strings that `getTimeDate` writes, with the sizes of their buffers. -/
def timeBuffers (t : LocalTime) : List (List Char × Nat) :=
  [(t.timeStr, 11), (t.dayStr, 5), (t.yearStr, 5), (getTimeDate t, 32)]

/-! ## The status of a port -/

/-- Where the length comes from that decides about the comma. -/
inductive Separator where
  /-- There is no comma. -/
  | never
  /-- It is left from before. -/
  | stale
  /-- It is computed anew. -/
  | fresh
deriving DecidableEq, Repr

structure Message where
  flag : ErrorCode
  separator : Separator
  text : String
deriving DecidableEq, Repr

/-- The branches of `printBufferJson`, in their order. -/
def messages : List Message :=
  [⟨errManualReboot, .never, "manual rebooting... "⟩,
    ⟨errRebooting, .stale, "rebooting... "⟩,
    ⟨errObjNotFound, .stale, "error: obj not found"⟩,
    ⟨errUnavailableResource, .fresh, "error: unavailable resource"⟩,
    ⟨errNullObj, .fresh, "error: obj null"⟩,
    ⟨errCreateThread, .fresh, "error: create thread"⟩,
    ⟨errJoinThread, .fresh, "error: join thread"⟩,
    ⟨errRegCompile, .fresh, "error: regular expiration"⟩,
    ⟨errTestType, .fresh, "error: test type"⟩,
    ⟨errIpNotValid, .fresh, "error: ip not valid"⟩,
    ⟨errTimeNotValid, .fresh, "error: time not valid"⟩,
    ⟨errSpeedValue, .fresh, "error: speed not in range"⟩,
    ⟨errPortDisable, .fresh, "port disable"⟩,
    ⟨errTestDisable, .fresh, "test disable"⟩,
    ⟨errTestLink, .fresh, "error: test link"⟩,
    ⟨errTestPing, .fresh, "error: test ping"⟩,
    ⟨errTestSpeed, .fresh, "error: test speed"⟩,
    ⟨errTimeAlarm, .fresh, "error: time alarm"⟩,
    ⟨errPortShutdown, .fresh, "error: reboot disabled after max resets"⟩]

/-- `errorMsg` and `lenErrorMsg`. -/
structure MsgState where
  errorMsg : List Char
  lenErrorMsg : Nat
deriving DecidableEq, Repr

/-- One branch. -/
def appendMessage (errorCode : ErrorCode) (s : MsgState) (m : Message) : MsgState :=
  if Flags.has errorCode m.flag then
    let lenErrorMsg := if m.separator = .fresh then s.errorMsg.length else s.lenErrorMsg
    let comma := if m.separator ≠ .never ∧ lenErrorMsg ≠ 0 then ", ".toList else []
    ⟨s.errorMsg ++ (comma ++ m.text.toList), lenErrorMsg⟩
  else s

/-- `errorCode` after `ERR_OK` has been looked for. -/
def printedCode (errorCode : ErrorCode) : ErrorCode := if errorCode = errOk then 0 else errorCode

/-- The body of the loop, up to the printing. -/
def portMsg (errorCode : ErrorCode) (lenErrorMsg : Nat) : MsgState :=
  messages.foldl (appendMessage (printedCode errorCode))
    ⟨if errorCode = errOk then "OK".toList else [], lenErrorMsg⟩

/-- `errorMsg` of every port.  `lenErrorMsg` is kept from one port to the next. -/
def errorMsgs : Nat → List ErrorCode → List (List Char)
  | _, [] => []
  | lenErrorMsg, code :: codes =>
    let s := portMsg code lenErrorMsg
    s.errorMsg :: errorMsgs s.lenErrorMsg codes

/-! ## The report -/

/-- `resetPort_t`.  Its `timeStr` is the time of the last restart, and empty
before the first. -/
structure ResetPort where
  errorCode : ErrorCode
  portNum : UInt8
  resetCount : UInt8
  lastRestart : Option LocalTime
  testType : BitVec 32

def ResetPort.timeStr (r : ResetPort) : List Char := (r.lastRestart.map getTimeDate).getD []

/-- The object of a port. -/
def printPort (r : ResetPort) (errorMsg : List Char) : List Char :=
  "\x7b \n\t\"id\":\"".toList ++ (formatInt r.portNum.toNat ++
  ("\",\n\t\"error_Code\":\"".toList ++ (formatInt (printedCode r.errorCode).toInt ++
  ("\",\n\t\"status\":\"".toList ++ (errorMsg ++
  ("\",\n\t\"reboot_cnt\":\"".toList ++ (formatInt r.resetCount.toNat ++
  ("\",\n\t\"time\":\"".toList ++ (r.timeStr ++
  ("\",\n\t\"test_type\":\"".toList ++ (formatInt r.testType.toInt ++
  "\"\n \x7d".toList)))))))))))

/-- The ports with their messages. -/
def reportLines (resetStatic : Nat → ResetPort) : List (Nat × List Char) :=
  ports.zip (errorMsgs 0 (ports.map fun p => (resetStatic p).errorCode))

/-- `printBufferJson`. -/
def printBufferJson (resetStatic : Nat → ResetPort) : List Char :=
  "\x7b\n".toList ++ ("\"port\":[\n ".toList ++
    (((reportLines resetStatic).flatMap fun (portNum, errorMsg) =>
      printPort (resetStatic portNum) errorMsg ++ if portNum < 8 then ",\n".toList else ['\n']) ++
    "]\n \x7d\n".toList))

/-! ## What the report should be -/

/-- The messages of the bits that are set. -/
def setTexts (errorCode : ErrorCode) (l : List Message) : List (List Char) :=
  (l.filter fun m => Flags.has errorCode m.flag).map (·.text.toList)

/-- The status that the code of a port stands for. -/
def statusText (errorCode : ErrorCode) : List Char :=
  if errorCode = errOk then "OK".toList else ", ".toList.intercalate (setTexts errorCode messages)

/-- The object has what the record says. -/
def Carries (v : Json.Value) (r : ResetPort) : Prop :=
  ∃ ms, v = .obj ms ∧
    ms.lookup "id".toList = some (.str (formatInt r.portNum.toNat)) ∧
    ms.lookup "status".toList = some (.str (statusText r.errorCode)) ∧
    ms.lookup "reboot_cnt".toList = some (.str (formatInt r.resetCount.toNat)) ∧
    ms.lookup "time".toList = some (.str r.timeStr) ∧
    ms.lookup "test_type".toList = some (.str (formatInt r.testType.toInt))

/-- The report is a JSON document with an object for each port, in their order. -/
def FaithfulReport (resetStatic : Nat → ResetPort) : Prop :=
  ∃ objs, Json.parse (printBufferJson resetStatic) = some (.obj [("port".toList, .arr objs)]) ∧
    objs.length = 8 ∧ ∀ i o, objs[i]? = some o → Carries o (resetStatic (i + 1))

/-- No string is longer than its buffer: the status has 256 bytes. -/
def StringsFit (resetStatic : Nat → ResetPort) : Prop :=
  (∀ msg ∈ errorMsgs 0 (ports.map fun p => (resetStatic p).errorCode), msg.length < 256) ∧
    ∀ p ∈ ports, ∀ t ∈ (resetStatic p).lastRestart, ∀ b ∈ timeBuffers t, b.1.length < b.2

/-! ## When it is -/

/-- The month is not the eighth and the year has three characters. -/
def LocalTime.Printable (t : LocalTime) : Prop := t.mon ≠ 7 ∧ -99 ≤ t.year ∧ t.year ≤ 999

/-- The two messages with a stale length get the comma they need; `stale` says
that the length is not zero. -/
def CommasRight (stale : Bool) (code : ErrorCode) : Prop :=
  (Flags.has code errRebooting = true → stale = Flags.has code errManualReboot) ∧
    (Flags.has code errObjNotFound = true →
      stale = (Flags.has code errManualReboot || Flags.has code errRebooting))

/-- Whether the length is not zero after a port: a message that computes it counts
the messages before it. -/
def staleAfter (stale : Bool) (code : ErrorCode) : Bool :=
  if messages.any fun m => m.separator = .fresh && Flags.has code m.flag then
    2 ≤ (setTexts code messages).length
  else stale

/-- The commas are right in one port after the other. -/
def AllCommasRight : Bool → List ErrorCode → Prop
  | _, [] => True
  | stale, code :: codes => CommasRight stale code ∧ AllCommasRight (staleAfter stale code) codes

/-! ## Joining messages -/

/-- Texts appended one after the other, with commas after the first. -/
def joinOnto : List Char → List (List Char) → List Char
  | msg, [] => msg
  | msg, t :: ts => joinOnto (msg ++ ((if msg ≠ [] then ", ".toList else []) ++ t)) ts

theorem joinOnto_of_ne_nil {msg : List Char} (h : msg ≠ []) (ts : List (List Char)) :
    joinOnto msg ts = ", ".toList.intercalate (msg :: ts) := by
  induction ts generalizing msg with
  | nil => simp [joinOnto]
  | cons t ts ih =>
    rw [joinOnto, if_pos h, ih (by simp [h]), List.intercalate_cons_cons]
    cases ts with
    | nil => simp
    | cons u ts => simp [List.intercalate_cons_cons]

theorem joinOnto_nil {ts : List (List Char)} (h : ∀ t ∈ ts, t ≠ []) :
    joinOnto [] ts = ", ".toList.intercalate ts := by
  cases ts with
  | nil => rfl
  | cons t ts =>
    rw [joinOnto, if_neg (not_not.mpr rfl)]
    exact joinOnto_of_ne_nil (h t List.mem_cons_self) ts

theorem setTexts_cons (code : ErrorCode) (m : Message) (l : List Message) :
    setTexts code (m :: l) =
      if Flags.has code m.flag then m.text.toList :: setTexts code l else setTexts code l := by
  unfold setTexts
  rw [List.filter_cons]
  split <;> rfl

section Fresh
variable {code : ErrorCode} {m : Message} {l : List Message}

theorem appendMessage_of_not (h : Flags.has code m.flag = false) (s : MsgState) :
    appendMessage code s m = s := by
  rw [appendMessage, h]
  rfl

theorem appendMessage_of_fresh (h : Flags.has code m.flag = true) (hfresh : m.separator = .fresh)
    (s : MsgState) :
    appendMessage code s m =
      ⟨joinOnto s.errorMsg [m.text.toList], s.errorMsg.length⟩ := by
  simp [appendMessage, joinOnto, h, hfresh]

/-- Messages that compute the length are joined as they should be. -/
theorem foldl_fresh (hl : ∀ m ∈ l, m.separator = .fresh) (s : MsgState) :
    (l.foldl (appendMessage code) s).errorMsg = joinOnto s.errorMsg (setTexts code l) := by
  induction l generalizing s with
  | nil => rfl
  | cons m l ih =>
    rw [List.foldl_cons, ih fun m' hm' => hl m' (List.mem_cons_of_mem _ hm'), setTexts_cons]
    cases h : Flags.has code m.flag with
    | true =>
      rw [appendMessage_of_fresh h (hl m List.mem_cons_self), if_pos rfl]
      rfl
    | false => rw [appendMessage_of_not h, if_neg Bool.false_ne_true]

/-- The length they leave counts what was there before the last of them. -/
theorem foldl_fresh_len (hl : ∀ m ∈ l, m.separator = .fresh) (htext : ∀ m ∈ l, m.text.toList ≠ [])
    (s : MsgState) :
    (l.foldl (appendMessage code) s).lenErrorMsg ≠ 0 ↔
      if setTexts code l = [] then s.lenErrorMsg ≠ 0
      else s.errorMsg ≠ [] ∨ 2 ≤ (setTexts code l).length := by
  induction l generalizing s with
  | nil => rfl
  | cons m l ih =>
    rw [List.foldl_cons, ih (fun m' hm' => hl m' (List.mem_cons_of_mem _ hm'))
      (fun m' hm' => htext m' (List.mem_cons_of_mem _ hm')), setTexts_cons]
    cases h : Flags.has code m.flag with
    | true =>
      have hne := htext m List.mem_cons_self
      rw [appendMessage_of_fresh h (hl m List.mem_cons_self), if_pos rfl]
      cases hset : setTexts code l with
      | nil => simp
      | cons t ts => simp [joinOnto, hne]
    | false => rw [appendMessage_of_not h, if_neg Bool.false_ne_true]

end Fresh

/-! ## The status of one port -/

/-- The messages with a length of their own. -/
def freshMessages : List Message := messages.drop 3

theorem messages_eq : messages = messages.take 3 ++ freshMessages := (List.take_append_drop ..).symm

theorem fresh_of_mem : ∀ m ∈ freshMessages, m.separator = .fresh := by
  decide

theorem text_ne_nil_of_mem : ∀ m ∈ freshMessages, m.text.toList ≠ [] := by
  have htext : ∀ m ∈ freshMessages, m.text ≠ "" := by decide +kernel
  intro m hm hnil
  exact htext m hm (String.toList_eq_nil_iff.mp hnil)

/-- What the first three branches make of their bits. -/
def headMsg (manual rebooting notFound stale : Bool) : List Char :=
  (if manual then "manual rebooting... ".toList else []) ++
    ((if rebooting then (if stale then ", ".toList else []) ++ "rebooting... ".toList else []) ++
    if notFound then (if stale then ", ".toList else []) ++ "error: obj not found".toList else [])

/-- The messages of their bits. -/
def headTexts (manual rebooting notFound : Bool) : List (List Char) :=
  (if manual then ["manual rebooting... ".toList] else []) ++
    ((if rebooting then ["rebooting... ".toList] else []) ++
    if notFound then ["error: obj not found".toList] else [])

/-- The same value decides about both commas, so that they are both right or the
text is too long or too short. -/
theorem headMsg_eq_iff : ∀ manual rebooting notFound stale : Bool,
    headMsg manual rebooting notFound stale =
      ", ".toList.intercalate (headTexts manual rebooting notFound) ↔
    (rebooting = true → stale = manual) ∧ (notFound = true → stale = (manual || rebooting)) := by
  decide +kernel

theorem headMsg_eq_nil_iff : ∀ manual rebooting notFound stale : Bool,
    headMsg manual rebooting notFound stale = [] ↔ headTexts manual rebooting notFound = [] := by
  decide +kernel

/-- The first part of the status of a port. -/
def codeHead (code : ErrorCode) (stale : Bool) : List Char :=
  headMsg (Flags.has code errManualReboot) (Flags.has code errRebooting)
    (Flags.has code errObjNotFound) stale

def codeHeadTexts (code : ErrorCode) : List (List Char) :=
  headTexts (Flags.has code errManualReboot) (Flags.has code errRebooting)
    (Flags.has code errObjNotFound)

theorem setTexts_messages (code : ErrorCode) :
    setTexts code messages = codeHeadTexts code ++ setTexts code freshMessages := by
  have htake : setTexts code (messages.take 3) = codeHeadTexts code := by
    simp only [messages, List.take, setTexts_cons, codeHeadTexts]
    cases Flags.has code errManualReboot <;> cases Flags.has code errRebooting <;>
      cases Flags.has code errObjNotFound <;> rfl
  rw [← htake]
  nth_rewrite 1 [messages_eq]
  simp [setTexts]

theorem foldl_head (code : ErrorCode) (len : Nat) :
    (messages.take 3).foldl (appendMessage code) ⟨[], len⟩ =
      ⟨codeHead code (len ≠ 0), len⟩ := by
  simp only [messages, List.take, List.foldl_cons, List.foldl_nil, appendMessage, codeHead]
  cases Flags.has code errManualReboot <;> cases Flags.has code errRebooting <;>
    cases Flags.has code errObjNotFound <;> by_cases hlen : len = 0 <;> simp [headMsg, hlen]

theorem portMsg_of_ne {code : ErrorCode} (h : code ≠ errOk) (len : Nat) :
    portMsg code len =
      freshMessages.foldl (appendMessage code) ⟨codeHead code (len ≠ 0), len⟩ := by
  rw [portMsg, printedCode, if_neg h, if_neg h, messages_eq, List.foldl_append, foldl_head]

theorem portMsg_ok (len : Nat) : portMsg errOk len = ⟨"OK".toList, len⟩ := by
  have hzero : ∀ (l : List Message) (s : MsgState), l.foldl (appendMessage 0#32) s = s := by
    intro l s
    induction l generalizing s with
    | nil => rfl
    | cons m l ih => rw [List.foldl_cons, appendMessage_of_not (Flags.has_zero _), ih]
  rw [portMsg, printedCode, if_pos rfl, if_pos rfl]
  exact hzero _ _

theorem intercalate_append {sep : List Char} {l : List (List Char)} (h : l ≠ [])
    (ts : List (List Char)) :
    sep.intercalate (l ++ ts) = sep.intercalate (sep.intercalate l :: ts) := by
  induction l with
  | nil => exact absurd rfl h
  | cons t l ih =>
    cases l with
    | nil => simp
    | cons u l =>
      rw [List.cons_append, List.cons_append, List.intercalate_cons_cons, ← List.cons_append,
        ih (by simp), List.intercalate_cons_cons]
      cases ts with
      | nil => simp
      | cons v ts => simp [List.intercalate_cons_cons]

theorem intercalate_cons_inj {sep a b : List Char} (ts : List (List Char)) :
    sep.intercalate (a :: ts) = sep.intercalate (b :: ts) ↔ a = b := by
  cases ts with
  | nil => simp
  | cons t ts => simp [List.intercalate_cons_cons]

/-- **When the status is right.** -/
theorem portMsg_eq_statusText_iff (code : ErrorCode) (len : Nat) :
    (portMsg code len).errorMsg = statusText code ↔ CommasRight (len ≠ 0) code := by
  by_cases hok : code = errOk
  · subst hok
    have hcommas : ∀ stale, CommasRight stale errOk := by
      intro stale
      exact ⟨fun h => absurd h (by decide), fun h => absurd h (by decide)⟩
    rw [portMsg_ok]
    exact iff_of_true rfl (hcommas _)
  rw [portMsg_of_ne hok, foldl_fresh fresh_of_mem, statusText, if_neg hok, setTexts_messages]
  have hiff : codeHead code (len ≠ 0) = ", ".toList.intercalate (codeHeadTexts code) ↔
      CommasRight (len ≠ 0) code := headMsg_eq_iff ..
  have hnil : codeHead code (len ≠ 0) = [] ↔ codeHeadTexts code = [] := headMsg_eq_nil_iff ..
  -- The other messages are added to both sides in the same way, but only a head that
  -- is not empty gets a comma after it.
  by_cases hhead : codeHeadTexts code = []
  · have htexts : ∀ t ∈ setTexts code freshMessages, t ≠ [] := by
      intro t ht
      obtain ⟨m, hm, rfl⟩ := List.mem_map.mp ht
      exact text_ne_nil_of_mem m (List.mem_filter.mp hm).1
    rw [hnil.mpr hhead, hhead] at hiff
    rw [hnil.mpr hhead, hhead, List.nil_append, joinOnto_nil htexts]
    exact iff_of_true rfl (hiff.mp rfl)
  · rw [joinOnto_of_ne_nil (mt hnil.mp hhead), intercalate_append hhead, intercalate_cons_inj, hiff]

/-- A length is computed when one of the other bits is set. -/
theorem any_fresh_iff (code : ErrorCode) :
    (messages.any fun m => m.separator = .fresh && Flags.has code m.flag) = true ↔
      setTexts code freshMessages ≠ [] := by
  have hhead : ∀ m ∈ messages.take 3, m.separator ≠ .fresh := by decide
  have hmem : ∀ m ∈ messages, m.separator = .fresh → m ∈ freshMessages := by
    intro m hm hsep
    rw [messages_eq] at hm
    exact (List.mem_append.mp hm).resolve_left fun h => hhead m h hsep
  rw [List.any_eq_true, ne_eq, setTexts, List.map_eq_nil_iff, List.filter_eq_nil_iff]
  constructor
  · rintro ⟨m, hm, hcond⟩ hnone
    rw [Bool.and_eq_true, decide_eq_true_eq] at hcond
    exact hnone m (hmem m hm hcond.1) hcond.2
  · intro hsome
    push Not at hsome
    obtain ⟨m, hm, hhas⟩ := hsome
    refine ⟨m, List.mem_of_mem_drop hm, ?_⟩
    rw [fresh_of_mem m hm, hhas]
    rfl

theorem portMsg_len (code : ErrorCode) (len : Nat) :
    decide ((portMsg code len).lenErrorMsg ≠ 0) = staleAfter (len ≠ 0) code := by
  unfold staleAfter
  by_cases hok : code = errOk
  · subst hok
    rw [portMsg_ok, if_neg (by decide)]
  have hlen := @foldl_fresh_len code _ fresh_of_mem text_ne_nil_of_mem
    ⟨codeHead code (len ≠ 0), len⟩
  rw [← portMsg_of_ne hok] at hlen
  have hnil : codeHead code (len ≠ 0) = [] ↔ codeHeadTexts code = [] := headMsg_eq_nil_iff ..
  by_cases hfresh : setTexts code freshMessages = []
  · rw [if_neg (mt (any_fresh_iff code).mp (not_not.mpr hfresh))]
    rw [if_pos hfresh] at hlen
    exact decide_eq_decide.mpr hlen
  · have hpos := List.length_pos_iff.mpr hfresh
    have hhead : codeHead code (len ≠ 0) ≠ [] ↔ 0 < (codeHeadTexts code).length :=
      hnil.not.trans List.length_pos_iff.symm
    rw [if_neg hfresh] at hlen
    rw [if_pos ((any_fresh_iff code).mpr hfresh), decide_eq_decide, hlen, hhead,
      setTexts_messages, List.length_append]
    omega

/-- What the loop prints, port by port. -/
theorem errorMsgs_eq_iff (codes : List ErrorCode) (len : Nat) :
    errorMsgs len codes = codes.map statusText ↔ AllCommasRight (len ≠ 0) codes := by
  induction codes generalizing len with
  | nil => exact iff_of_true rfl trivial
  | cons code codes ih =>
    rw [errorMsgs, List.map_cons, List.cons.injEq, portMsg_eq_statusText_iff, ih, portMsg_len]
    rfl

/-! ## The characters that are printed -/

theorem plain_of_isDigit {c : Char} (h : c.isDigit = true) : Json.plain c = true := by
  have hrange := Scanf.toNat_of_isDigit h
  simp only [Json.plain, Bool.and_eq_true, decide_eq_true_eq]
  refine ⟨⟨?_, ?_⟩, by omega⟩
  · rintro rfl
    exact absurd h (by decide)
  · rintro rfl
    exact absurd h (by decide)

theorem plain_toDigits (n : Nat) : ∀ c ∈ Nat.toDigits 10 n, Json.plain c = true := fun _ hc =>
  plain_of_isDigit (Nat.isDigit_of_mem_toDigits (by decide) (by decide) hc)

theorem plain_formatInt (v : Int) : ∀ c ∈ formatInt v, Json.plain c = true := by
  intro c hc
  unfold formatInt at hc
  split at hc
  · rcases List.mem_cons.mp hc with rfl | hc
    · decide
    · exact plain_toDigits _ c hc
  · exact plain_toDigits _ c hc

theorem plain_formatTwo (n : Nat) : ∀ c ∈ formatTwo n, Json.plain c = true := by
  intro c hc
  rcases List.mem_append.mp hc with hc | hc
  · rw [List.eq_of_mem_replicate hc]
    decide
  · exact plain_toDigits n c hc

theorem forall_mem_append_plain {s t : List Char} (hs : ∀ c ∈ s, Json.plain c = true)
    (ht : ∀ c ∈ t, Json.plain c = true) : ∀ c ∈ s ++ t, Json.plain c = true :=
  List.forall_mem_append.mpr ⟨hs, ht⟩

theorem forall_mem_ite_plain {p : Prop} [Decidable p] {s : List Char}
    (hs : ∀ c ∈ s, Json.plain c = true) : ∀ c ∈ if p then s else [], Json.plain c = true := by
  split
  · exact hs
  · simp

theorem plain_portMsg (code : ErrorCode) (len : Nat) :
    ∀ c ∈ (portMsg code len).errorMsg, Json.plain c = true := by
  have htexts : ∀ m ∈ messages, m.text.toList.all Json.plain = true := by decide +kernel
  have hcomma : ∀ c ∈ ", ".toList, Json.plain c = true := List.all_eq_true.mp (by decide)
  have hfold : ∀ (l : List Message) (s : MsgState), l ⊆ messages →
      (∀ c ∈ s.errorMsg, Json.plain c = true) →
      ∀ c ∈ (l.foldl (appendMessage (printedCode code)) s).errorMsg, Json.plain c = true := by
    intro l s hl hs
    induction l generalizing s with
    | nil => exact hs
    | cons m l ih =>
      refine ih _ (fun m' hm' => hl (List.mem_cons_of_mem _ hm')) ?_
      unfold appendMessage
      split
      · exact forall_mem_append_plain hs (forall_mem_append_plain (forall_mem_ite_plain hcomma)
          (List.all_eq_true.mp (htexts m (hl List.mem_cons_self))))
      · exact hs
  exact hfold messages _ (fun _ h => h)
    (forall_mem_ite_plain (List.all_eq_true.mp (by decide)))

theorem plain_errorMsgs (codes : List ErrorCode) (len : Nat) :
    ∀ msg ∈ errorMsgs len codes, ∀ c ∈ msg, Json.plain c = true := by
  induction codes generalizing len with
  | nil => simp [errorMsgs]
  | cons code codes ih =>
    intro msg hmsg
    rcases List.mem_cons.mp hmsg with rfl | hmsg
    · exact plain_portMsg code len
    · exact ih _ msg hmsg

theorem plain_timeStr (t : LocalTime) : ∀ c ∈ t.timeStr, Json.plain c = true := by
  have hcolon : ∀ n, ∀ c ∈ ':' :: formatTwo n, Json.plain c = true := fun n =>
    List.forall_mem_cons.mpr ⟨by decide, plain_formatTwo n⟩
  unfold LocalTime.timeStr
  refine forall_mem_append_plain (forall_mem_append_plain (forall_mem_append_plain
    (plain_formatTwo _) (hcolon _)) (hcolon _)) ?_
  exact List.all_eq_true.mp (by decide)

theorem plain_dayStr (t : LocalTime) : ∀ c ∈ t.dayStr, Json.plain c = true :=
  forall_mem_append_plain (plain_formatInt _) (List.all_eq_true.mp (by decide))

/-- Every month but the eighth has a plain name. -/
theorem plain_getTimeDate {t : LocalTime} (h : t.mon ≠ 7) :
    ∀ c ∈ getTimeDate t, Json.plain c = true := by
  have hmonths : ∀ k < 12, k ≠ 7 → (monthTable.getD (k + 1) "").toList.all Json.plain = true := by
    decide
  have hyear : ∀ c ∈ t.yearStr, Json.plain c = true :=
    List.forall_mem_cons.mpr ⟨by decide, plain_formatInt _⟩
  exact forall_mem_append_plain (plain_timeStr t) (forall_mem_append_plain (plain_dayStr t)
    (forall_mem_append_plain (List.all_eq_true.mp (hmonths t.mon t.mon_lt h)) hyear))

/-- In the name of the eighth a line ends. -/
theorem getTimeDate_august {t : LocalTime} (h : t.mon = 7) :
    ∃ s u, getTimeDate t = s ++ '\n' :: u ∧ ∀ c ∈ s, Json.plain c = true := by
  refine ⟨t.timeStr ++ (t.dayStr ++ "August".toList), '0' :: t.yearStr, ?_, ?_⟩
  · have hmonth : t.month = "August".toList ++ '\n' :: ['0'] := by
      rw [LocalTime.month, h]
      rfl
    rw [getTimeDate, hmonth]
    simp
  · exact forall_mem_append_plain (plain_timeStr t)
      (forall_mem_append_plain (plain_dayStr t) (List.all_eq_true.mp (by decide)))

/-! ## The document -/

/-- The time of the last restart has no end of a line in it. -/
def ResetPort.TimePlain (r : ResetPort) : Prop := ∀ t ∈ r.lastRestart, t.mon ≠ 7

instance (r : ResetPort) : Decidable r.TimePlain :=
  inferInstanceAs (Decidable (∀ t ∈ r.lastRestart, t.mon ≠ 7))

theorem ResetPort.plain_timeStr {r : ResetPort} (h : r.TimePlain) :
    ∀ c ∈ r.timeStr, Json.plain c = true := by
  unfold ResetPort.timeStr
  cases hlast : r.lastRestart with
  | none => simp
  | some t => exact plain_getTimeDate (h t hlast)

theorem ResetPort.timeStr_of_not_plain {r : ResetPort} (h : ¬ r.TimePlain) :
    ∃ s u, r.timeStr = s ++ '\n' :: u ∧ ∀ c ∈ s, Json.plain c = true := by
  unfold ResetPort.TimePlain at h
  push Not at h
  obtain ⟨t, hlast, haugust⟩ := h
  rw [ResetPort.timeStr, Option.mem_def.mp hlast]
  exact getTimeDate_august haugust

/-- The object that `printPort` prints. -/
def portObject (r : ResetPort) (errorMsg : List Char) : Json.Value :=
  .obj [("id".toList, .str (formatInt r.portNum.toNat)),
    ("error_Code".toList, .str (formatInt (printedCode r.errorCode).toInt)),
    ("status".toList, .str errorMsg),
    ("reboot_cnt".toList, .str (formatInt r.resetCount.toNat)),
    ("time".toList, .str r.timeStr),
    ("test_type".toList, .str (formatInt r.testType.toInt))]

/-- The tokens of a port, unless a line ends in its time. -/
theorem run_printPort {r : ResetPort} {errorMsg : List Char}
    (hmsg : ∀ c ∈ errorMsg, Json.plain c = true) (t : List Char) :
    Json.run .outside (printPort r errorMsg ++ t) =
      if r.TimePlain then
        (Json.run .outside t).map fun q => ((portObject r errorMsg).tokens ++ q.1, q.2)
      else none := by
  have hid : Json.run .outside "\x7b \n\t\"id\":\"".toList =
      some ([.lbrace, .str "id".toList, .colon], .string []) := by decide
  have hcode : ∀ acc, Json.run (.string acc) "\",\n\t\"error_Code\":\"".toList =
      some (.str acc.reverse :: [.comma, .str "error_Code".toList, .colon], .string []) :=
    Json.run_close (l := ",\n\t\"error_Code\":\"".toList) (by decide) (by decide)
  have hstatus : ∀ acc, Json.run (.string acc) "\",\n\t\"status\":\"".toList =
      some (.str acc.reverse :: [.comma, .str "status".toList, .colon], .string []) :=
    Json.run_close (l := ",\n\t\"status\":\"".toList) (by decide) (by decide)
  have hcount : ∀ acc, Json.run (.string acc) "\",\n\t\"reboot_cnt\":\"".toList =
      some (.str acc.reverse :: [.comma, .str "reboot_cnt".toList, .colon], .string []) :=
    Json.run_close (l := ",\n\t\"reboot_cnt\":\"".toList) (by decide) (by decide)
  have htimeStr : ∀ acc, Json.run (.string acc) "\",\n\t\"time\":\"".toList =
      some (.str acc.reverse :: [.comma, .str "time".toList, .colon], .string []) :=
    Json.run_close (l := ",\n\t\"time\":\"".toList) (by decide) (by decide)
  have htest : ∀ acc, Json.run (.string acc) "\",\n\t\"test_type\":\"".toList =
      some (.str acc.reverse :: [.comma, .str "test_type".toList, .colon], .string []) :=
    Json.run_close (l := ",\n\t\"test_type\":\"".toList) (by decide) (by decide)
  have hend : ∀ acc, Json.run (.string acc) "\"\n \x7d".toList =
      some (.str acc.reverse :: [.rbrace], .outside) :=
    Json.run_close (l := "\n \x7d".toList) (by decide) (by decide)
  -- Each of the six texts is a string of its own; the time alone may not be plain.
  unfold printPort
  iterate 12 rw [List.append_assoc]
  rw [Json.run_then hid, Json.run_string_then (plain_formatInt _) hcode,
    Json.run_string_then (plain_formatInt _) hstatus, Json.run_string_then hmsg hcount,
    Json.run_string_then (plain_formatInt _) htimeStr]
  by_cases htime : r.TimePlain
  · rw [if_pos htime, Json.run_string_then (ResetPort.plain_timeStr htime) htest,
      Json.run_string_then (plain_formatInt _) hend]
    cases Json.run .outside t with
    | none => rfl
    | some q => rfl
  · obtain ⟨s, u, heq, hs⟩ := ResetPort.timeStr_of_not_plain htime
    rw [if_neg htime, heq, List.append_assoc, List.cons_append,
      Json.run_string_control hs (by decide)]
    rfl

/-- The text of a port in the report. -/
def lineText (resetStatic : Nat → ResetPort) (line : Nat × List Char) : List Char :=
  printPort (resetStatic line.1) line.2 ++ if line.1 < 8 then ",\n".toList else ['\n']

def lineTokens (resetStatic : Nat → ResetPort) (line : Nat × List Char) : List Json.Token :=
  (portObject (resetStatic line.1) line.2).tokens ++ if line.1 < 8 then [.comma] else []

theorem run_lines (resetStatic : Nat → ResetPort) {lines : List (Nat × List Char)}
    (hmsg : ∀ line ∈ lines, ∀ c ∈ line.2, Json.plain c = true) (t : List Char) :
    Json.run .outside (lines.flatMap (lineText resetStatic) ++ t) =
      if ∀ line ∈ lines, (resetStatic line.1).TimePlain then
        (Json.run .outside t).map fun q => (lines.flatMap (lineTokens resetStatic) ++ q.1, q.2)
      else none := by
  have hcomma : Json.run .outside ",\n".toList = some ([.comma], .outside) := by decide
  have hnewline : Json.run .outside ['\n'] = some ([], .outside) := by decide
  induction lines with
  | nil => simp
  | cons line lines ih =>
    have hsep : ∀ u, Json.run .outside ((if line.1 < 8 then ",\n".toList else ['\n']) ++ u) =
        (Json.run .outside u).map fun q => ((if line.1 < 8 then [.comma] else []) ++ q.1, q.2) := by
      intro u
      split
      · exact Json.run_then hcomma u
      · exact Json.run_then hnewline u
    rw [List.flatMap_cons, lineText, List.append_assoc, List.append_assoc,
      run_printPort (hmsg line List.mem_cons_self), hsep,
      ih fun l hl => hmsg l (List.mem_cons_of_mem _ hl)]
    have hcons : (∀ l ∈ line :: lines, (resetStatic l.1).TimePlain) ↔
        (resetStatic line.1).TimePlain ∧ ∀ l ∈ lines, (resetStatic l.1).TimePlain :=
      List.forall_mem_cons
    by_cases hhead : (resetStatic line.1).TimePlain
    · by_cases htail : ∀ line ∈ lines, (resetStatic line.1).TimePlain
      · rw [if_pos hhead, if_pos htail, if_pos (hcons.mpr ⟨hhead, htail⟩)]
        cases Json.run .outside t with
        | none => rfl
        | some q => simp [lineTokens]
      · rw [if_pos hhead, if_neg htail, if_neg fun h => htail (hcons.mp h).2]
        rfl
    · rw [if_neg hhead, if_neg fun h => hhead (hcons.mp h).1]

theorem length_errorMsgs (codes : List ErrorCode) (len : Nat) :
    (errorMsgs len codes).length = codes.length := by
  induction codes generalizing len with
  | nil => rfl
  | cons code codes ih => rw [errorMsgs, List.length_cons, List.length_cons, ih]

/-- The document that the report should be, with these messages. -/
def reportValue (resetStatic : Nat → ResetPort) (lines : List (Nat × List Char)) : Json.Value :=
  .obj [("port".toList, .arr (lines.map fun line => portObject (resetStatic line.1) line.2))]

/-- The commas between the ports are those of an array. -/
theorem tokens_reportValue (resetStatic : Nat → ResetPort) {msgs : List (List Char)}
    (h : msgs.length = 8) :
    (reportValue resetStatic (ports.zip msgs)).tokens =
      [.lbrace, .str "port".toList, .colon, .lbracket] ++
        ((ports.zip msgs).flatMap (lineTokens resetStatic) ++ [.rbracket, .rbrace]) := by
  match msgs, h with
  | [m1, m2, m3, m4, m5, m6, m7, m8], _ =>
    have hzip : ports.zip [m1, m2, m3, m4, m5, m6, m7, m8] =
        [(1, m1), (2, m2), (3, m3), (4, m4), (5, m5), (6, m6), (7, m7), (8, m8)] := rfl
    rw [hzip]
    simp [reportValue, Json.Value.tokens, Json.elementTokens, Json.memberTokens, lineTokens]

theorem map_fst_reportLines (resetStatic : Nat → ResetPort) :
    (reportLines resetStatic).map Prod.fst = ports := by
  refine List.map_fst_zip ?_
  rw [length_errorMsgs, List.length_map]

theorem parse_printBufferJson (resetStatic : Nat → ResetPort) :
    Json.parse (printBufferJson resetStatic) =
      if ∀ p ∈ ports, (resetStatic p).TimePlain then
        some (reportValue resetStatic (reportLines resetStatic))
      else none := by
  have hstart : Json.run .outside "\x7b\n".toList = some ([.lbrace], .outside) := by decide
  have hport : Json.run .outside "\"port\":[\n ".toList =
      some ([.str "port".toList, .colon, .lbracket], .outside) := by decide
  have hend : Json.run .outside "]\n \x7d\n".toList = some ([.rbracket, .rbrace], .outside) := by
    decide
  have hlen : (errorMsgs 0 (ports.map fun p => (resetStatic p).errorCode)).length = 8 :=
    length_errorMsgs ..
  have hmsg : ∀ line ∈ reportLines resetStatic, ∀ c ∈ line.2, Json.plain c = true := by
    intro line hline
    exact plain_errorMsgs _ _ line.2 (List.of_mem_zip hline).2
  have htimes : (∀ line ∈ reportLines resetStatic, (resetStatic line.1).TimePlain) ↔
      ∀ p ∈ ports, (resetStatic p).TimePlain := by
    rw [← map_fst_reportLines resetStatic, List.forall_mem_map]
  have htext : printBufferJson resetStatic = "\x7b\n".toList ++ ("\"port\":[\n ".toList ++
      ((reportLines resetStatic).flatMap (lineText resetStatic) ++ "]\n \x7d\n".toList)) := rfl
  have hrun : Json.run .outside (printBufferJson resetStatic) =
      if ∀ p ∈ ports, (resetStatic p).TimePlain then
        some ((reportValue resetStatic (reportLines resetStatic)).tokens, .outside)
      else none := by
    rw [htext, Json.run_then hstart, Json.run_then hport, run_lines resetStatic hmsg, hend]
    by_cases hplain : ∀ p ∈ ports, (resetStatic p).TimePlain
    · rw [if_pos hplain, if_pos (htimes.mpr hplain), reportLines, tokens_reportValue _ hlen]
      rfl
    · rw [if_neg hplain, if_neg (mt htimes.mp hplain)]
      rfl
  by_cases hplain : ∀ p ∈ ports, (resetStatic p).TimePlain
  · rw [if_pos hplain] at hrun ⊢
    refine Json.parse_of_lex ?_
    rw [Json.lex, hrun]
    simp [Json.finish]
  · rw [if_neg hplain] at hrun ⊢
    rw [Json.parse, Json.lex, hrun]
    rfl

theorem carries_portObject_iff (r : ResetPort) (errorMsg : List Char) :
    Carries (portObject r errorMsg) r ↔ errorMsg = statusText r.errorCode := by
  constructor
  · rintro ⟨ms, hobj, -, hstatus, -⟩
    cases hobj
    have hsome : some (Json.Value.str errorMsg) = some (.str (statusText r.errorCode)) := hstatus
    injection hsome with hstr
    injection hstr
  · rintro rfl
    exact ⟨_, rfl, rfl, rfl, rfl, rfl, rfl⟩

theorem fst_of_reportLines {resetStatic : Nat → ResetPort} {i : Nat} {line : Nat × List Char}
    (h : (reportLines resetStatic)[i]? = some line) : line.1 = i + 1 := by
  have hport := (List.getElem?_zip_eq_some.mp h).1
  rw [ports] at hport
  obtain ⟨hi, hval⟩ := List.getElem?_eq_some_iff.mp hport
  rw [← hval, List.getElem_range', Nat.one_mul, Nat.add_comm]

/-- The messages are those of the codes when each of them is. -/
theorem errorMsgs_eq_map_iff (resetStatic : Nat → ResetPort) :
    (∀ line ∈ reportLines resetStatic, line.2 = statusText (resetStatic line.1).errorCode) ↔
      AllCommasRight false (ports.map fun p => (resetStatic p).errorCode) := by
  have hlen : (errorMsgs 0 (ports.map fun p => (resetStatic p).errorCode)).length =
      ports.length := by
    rw [length_errorMsgs, List.length_map]
  have hsnd : (reportLines resetStatic).map Prod.snd =
      errorMsgs 0 (ports.map fun p => (resetStatic p).errorCode) := List.map_snd_zip hlen.le
  have hmap : (ports.map fun p => (resetStatic p).errorCode).map statusText =
      (reportLines resetStatic).map fun line => statusText (resetStatic line.1).errorCode := by
    rw [List.map_map, ← map_fst_reportLines resetStatic, List.map_map]
    rfl
  have hiff := errorMsgs_eq_iff (ports.map fun p => (resetStatic p).errorCode) 0
  rw [hmap, ← hsnd, List.map_inj_left] at hiff
  exact hiff

theorem faithfulReport_iff (resetStatic : Nat → ResetPort) :
    FaithfulReport resetStatic ↔ (∀ p ∈ ports, (resetStatic p).TimePlain) ∧
      AllCommasRight false (ports.map fun p => (resetStatic p).errorCode) := by
  rw [← errorMsgs_eq_map_iff]
  unfold FaithfulReport
  rw [parse_printBufferJson]
  constructor
  · -- the objects are in the order of the ports, so each carries the status of its own
    rintro ⟨objs, hparse, -, hcarries⟩
    split at hparse
    · rename_i hplain
      cases hparse
      refine ⟨hplain, fun line hline => ?_⟩
      obtain ⟨i, hi⟩ := List.mem_iff_getElem?.mp hline
      have hobj := hcarries i (portObject (resetStatic line.1) line.2) (by
        rw [List.getElem?_map, hi]
        rfl)
      rw [← fst_of_reportLines hi, carries_portObject_iff] at hobj
      exact hobj
    · cases hparse
  · rintro ⟨hplain, hmsgs⟩
    refine ⟨_, by rw [if_pos hplain]; rfl, ?_, ?_⟩
    · rw [List.length_map, reportLines, List.length_zip, length_errorMsgs]
      rfl
    · intro i o ho
      rw [List.getElem?_map] at ho
      obtain ⟨line, hline, rfl⟩ := Option.map_eq_some_iff.mp ho
      rw [← fst_of_reportLines hline, carries_portObject_iff]
      exact hmsgs line (List.mem_of_getElem? hline)

/-! ## The lengths -/

theorem length_formatTwo {n : Nat} (h : n < 100) : (formatTwo n).length = 2 := by
  have hle : (Nat.toDigits 10 n).length ≤ 2 :=
    (Nat.length_toDigits_le_iff (by decide) (by decide)).mpr h
  rw [formatTwo, List.length_append, List.length_replicate]
  omega

theorem length_formatInt_le_three (v : Int) :
    (formatInt v).length ≤ 3 ↔ -99 ≤ v ∧ v ≤ 999 := by
  have htwo : (Nat.toDigits 10 v.natAbs).length ≤ 2 ↔ v.natAbs < 100 :=
    Nat.length_toDigits_le_iff (by decide) (by decide)
  have hthree : (Nat.toDigits 10 v.natAbs).length ≤ 3 ↔ v.natAbs < 1000 :=
    Nat.length_toDigits_le_iff (by decide) (by decide)
  unfold formatInt
  split
  · rw [List.length_cons]
    omega
  · omega

/-- The year decides whether the strings of `getTimeDate` fit. -/
theorem timeBuffers_fit_iff (t : LocalTime) :
    (∀ b ∈ timeBuffers t, b.1.length < b.2) ↔ -99 ≤ t.year ∧ t.year ≤ 999 := by
  have htime : t.timeStr.length = 10 := by
    have hhour := length_formatTwo (n := t.hour) (by have := t.hour_lt; omega)
    have hmin := length_formatTwo (n := t.min) (by have := t.min_lt; omega)
    have hsec := length_formatTwo (n := t.sec) (by have := t.sec_le; omega)
    simp only [LocalTime.timeStr, List.length_append, List.length_cons, hhour, hmin, hsec]
    rfl
  have hday : t.dayStr.length ≤ 3 := by
    have hle : (Nat.toDigits 10 t.mday).length ≤ 2 :=
      (Nat.length_toDigits_le_iff (by decide) (by decide)).mpr (by have := t.mday_le; omega)
    have hformat : formatInt t.mday = Nat.toDigits 10 t.mday := by
      rw [formatInt, if_neg (by omega), Int.natAbs_natCast]
    rw [LocalTime.dayStr, hformat, List.length_append]
    exact Nat.succ_le_succ hle
  have hmonth : t.month.length ≤ 9 := by
    have hmonths : ∀ k < 12, (monthTable.getD (k + 1) "").toList.length ≤ 9 := by decide
    exact hmonths t.mon t.mon_lt
  rw [← length_formatInt_le_three]
  simp only [timeBuffers, List.forall_mem_cons, List.not_mem_nil, false_imp_iff, implies_true,
    and_true, getTimeDate, LocalTime.yearStr, List.length_append, List.length_cons]
  omega

/-- **When the report is faithful**: in no time of a restart is the month August or
the year longer than three characters, the commas are right in all ports, and no
status is longer than 255 characters. -/
theorem status_report_iff (resetStatic : Nat → ResetPort) :
    FaithfulReport resetStatic ∧ StringsFit resetStatic ↔
      (∀ p ∈ ports, (∀ t ∈ (resetStatic p).lastRestart, t.Printable) ∧
        (statusText (resetStatic p).errorCode).length ≤ 255) ∧
      AllCommasRight false (ports.map fun p => (resetStatic p).errorCode) := by
  rw [faithfulReport_iff]
  unfold StringsFit
  constructor
  · rintro ⟨⟨hplain, hcommas⟩, hmsgs, htimes⟩
    rw [(errorMsgs_eq_iff _ 0).mpr hcommas, List.map_map, List.forall_mem_map] at hmsgs
    refine ⟨fun p hp => ⟨fun t ht => ⟨hplain p hp t ht, ?_⟩, ?_⟩, hcommas⟩
    · exact (timeBuffers_fit_iff t).mp (htimes p hp t ht)
    · exact Nat.le_of_lt_succ (hmsgs p hp)
  · rintro ⟨hports, hcommas⟩
    refine ⟨⟨fun p hp t ht => ((hports p hp).1 t ht).1, hcommas⟩, ?_, fun p hp t ht => ?_⟩
    · rw [(errorMsgs_eq_iff _ 0).mpr hcommas, List.map_map, List.forall_mem_map]
      exact fun p hp => Nat.lt_succ_of_le (hports p hp).2
    · exact (timeBuffers_fit_iff t).mpr ((hports p hp).1 t ht).2

/-- Noon of the first day of a month of 2024. -/
def firstOf (mon : Fin 12) : LocalTime where
  hour := 12
  min := 0
  sec := 0
  mday := 1
  mon := mon
  year := 2024
  hour_lt := by decide
  min_lt := by decide
  sec_le := by decide
  mday_le := by decide
  mon_lt := mon.isLt

/-- A report with these codes and times. -/
def sampleReport (code : Nat → ErrorCode) (lastRestart : Nat → Option LocalTime) (p : Nat) :
    ResetPort :=
  ⟨code p, UInt8.ofNat p, 0, lastRestart p, 1⟩

/-- The length that port 1 leaves puts a comma in front of the status of port 2; a
restart in August breaks the document; and a restart in any month of 2024
overflows `yearStr`. -/
theorem status_report_fails :
    ¬ FaithfulReport (sampleReport (fun p => if p = 1 then errTestLink ||| errTestPing else
      if p = 2 then errRebooting else errOk) fun _ => none) ∧
    ¬ FaithfulReport (sampleReport (fun _ => errOk) fun p => if p = 1 then some (firstOf 7)
      else none) ∧
    ¬ StringsFit (sampleReport (fun _ => errOk) fun p => if p = 1 then some (firstOf 0)
      else none) := by
  refine ⟨fun h => ?_, fun h => ?_, fun h => ?_⟩
  · obtain ⟨-, -, ⟨hcomma, -⟩, -⟩ := (faithfulReport_iff _).mp h
    exact absurd (hcomma (by decide)) (by decide)
  · have hplain := ((faithfulReport_iff _).mp h).1 1 (by decide)
    exact hplain (firstOf 7) rfl rfl
  · have hfit := h.2 1 (by decide) (firstOf 0) rfl
    exact absurd ((timeBuffers_fit_iff _).mp hfit).2 (by decide)

end TfPackages.Restart
