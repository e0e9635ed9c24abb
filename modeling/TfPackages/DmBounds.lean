import TfPackages.DmRestarts

/-! # Bounds of the buffers of the device-manager client

On its way from the socket to the shell a datagram is copied five times, into
arrays of five sizes: the receive buffer, the settings message, the table of
values, and the two arrays in which a handler puts its command line together.
`accesses` lists what one call of `client_handler` does to them: the writes, each
with the size of the array it goes to, and the strings that are handed on, each
with what its array holds from there on.

An access is contained when a write stays inside its array and a string ends
inside it.  `Fits` is the condition on the datagram: it is short enough for the
first two buffers, and every item of it that is handled has a known name and a
value that is short enough for the others.  The token array needs none; it grows
in time although its index wraps around.
-/
namespace TfPackages.Dm

/-- Something that is done to an array, or with a string in it. -/
inductive Access where
  /-- `len` elements are written from `index` on, in an array of `size` elements. -/
  | write (size index len : Nat)
  /-- A string is passed on; `content` is the array from its start on. -/
  | pass (content : List UInt8)
  /-- What is passed on is a null pointer, or was never written. -/
  | missing
deriving DecidableEq, Repr

/-- A write stays inside its array, and a string ends inside its array. -/
def Access.Contained : Access → Prop
  | .write size index len => index + len ≤ size
  | .pass content => 0 ∈ content
  | .missing => False

/-- **Nothing leaves its array.** -/
def Contained (l : List Access) : Prop := ∀ a ∈ l, a.Contained

/-! ## The accesses of the source -/

/-- Single bytes are written at the positions of a text where `p` holds. -/
def writesAt (size : Nat) (p : Nat → Bool) (len : Nat) : List Access :=
  ((List.range len).filter p).map fun i => .write size i 1

/-- `replaceSymbols` on a string in an array. -/
def replaceSymbolsAccesses (size : Nat) (str : List UInt8) (oldSym : UInt8) : List Access :=
  writesAt size (fun i => str[i]? == some oldSym) str.length

/-- The token array of `split_line`, `DM_TOK_BUFSIZE` elements at first: one store
for each of the `n` tokens and one for the null pointer at the end. -/
def tokenStores : Nat → Nat → UInt8 → List Access
  | 0, bufsize, splitLineMax => [.write bufsize splitLineMax.toNat 1]
  | n + 1, bufsize, splitLineMax =>
    let next := splitLineMax + 1
    .write bufsize splitLineMax.toNat 1 ::
      tokenStores n (if bufsize ≤ next.toNat then bufsize + 64 else bufsize) next

/-- `split_line` on a line that its array holds from the start on. -/
def splitLineAccesses (content : List UInt8) (delim : UInt8) : List Access :=
  let line := CStrings.text content
  .pass content ::
    writesAt content.length (fun i => (cutTokens delim false line)[i]? == some 0) line.length ++
    tokenStores (CStrings.tokens delim line).length 64 0

/-- `net_getCommand`.  After an error `bufferLen` is the largest `size_t`. -/
def netGetCommandAccesses : Recv → List Access
  | .error => [.write maxBufferSize (2 ^ 32 - 1) 1]
  | .datagram d =>
    let bufferLen := min d.bytes.length maxBufferSize
    [.write maxBufferSize 0 bufferLen, .write maxBufferSize bufferLen 1]

/-- `getBuffer` into `settingsMsg.settMsg.buff`. -/
def getBufferAccesses (c : Client) : List Access :=
  if c.bufferLen > 0 then [.write settMsgSize 0 c.bufferLen] else []

/-- A token, with the NUL that `strtok` puts behind it or that ends the line. -/
def Slot.passed : Slot → Access
  | .token _ text => .pass (text ++ [0])
  | _ => .missing

/-- `getCmdType` for the entry `i` of a table with `size` entries. -/
def getCmdTypeAccesses (size i : Nat) (splitedLine : SplitedLine) : List Access :=
  (splitedLine.tokens 0).passed ::
    match splitedLine.tokens 0 with
    | .token _ name =>
      if name ∈ settingsTable then
        [(splitedLine.tokens 1).passed, .write size i 1,
          .write settingsValueLength 0 settingsValueLength]
      else []
    | _ => []

/-- The loop body of `getSettingsCmdArray`. -/
def getSettingsCmdAccesses (size i : Nat) : Slot → List Access
  | .token _ text =>
    splitLineAccesses (text ++ [0]) equals ++ getCmdTypeAccesses size i (splitLine text equals)
  | _ => [.missing]

/-- The part of a handler that builds its command line.  `inData` is in the
`value` of its table entry. -/
def buildCommandAccesses (mainCommand : String) (cut : Bool) (inData : List UInt8) : List Access :=
  let command := CStrings.lit mainCommand
  let quoted := replaceSymbols inData leftBracket ShellWords.quote
  let added := quoteBrackets inData
  replaceSymbolsAccesses settingsValueLength inData leftBracket ++
    replaceSymbolsAccesses settingsValueLength quoted rightBracket ++
    [.write 128 0 (added.length + 1), .write 128 0 (command.length + 1),
      .write 128 command.length 1, .pass (added ++ [0])] ++
    (if cut then [.write 128 (untilNewline added).length 1] else []) ++
    [.write 128 command.length ((addedData cut inData).length + 1),
      .pass ((command ++ addedData cut inData ++ [0]).take 128)]

/-- `checkGateWayValid` on `tempData`. -/
def checkGateWayValidAccesses (ip : List UInt8) : List Access :=
  let ip₁ := replaceSymbols ip dot space
  let ip₂ := replaceSymbols ip₁ leftBracket space
  let ip₃ := replaceSymbols ip₂ rightBracket space
  replaceSymbolsAccesses settingsValueLength ip dot ++
    replaceSymbolsAccesses settingsValueLength ip₁ leftBracket ++
    replaceSymbolsAccesses settingsValueLength ip₂ rightBracket ++
    splitLineAccesses (ip₃ ++ List.replicate (settingsValueLength - ip₃.length) 0) space ++
    if (splitLine ip₃ space).splitLineMax = 3 then (splitLine ip₃ space).slots.map Slot.passed
    else []

/-- The loop of `runSetIp`. -/
def setIpLoopAccesses : Nat → List UInt8 → List Access
  | 0, _ => []
  | n + 1, inData => buildCommandAccesses "uci set network.lan.ipaddr=" true inData ++
      setIpLoopAccesses n (quoteBrackets inData)

/-- `extractValue` into a `char value[128]`: what lies between the last `[` before
the first `]`, and that `]`. -/
def extractValueAccesses (str : List UInt8) : List Access :=
  let stop := str.idxOf rightBracket
  let start := stop - (str.take stop).reverse.idxOf leftBracket
  if rightBracket ∈ str ∧ leftBracket ∈ str.take stop ∧ start < stop then
    [.write 128 0 (stop - start), .write 128 (stop - start) 1]
  else []

/-- The handlers. -/
def SettingsHandler.accesses (env : ShellEnv) (inData : List UInt8) :
    SettingsHandler → List Access
  | .runReset | .runReboot => extractValueAccesses inData
  | .runSetIp => setIpLoopAccesses env.protoLines inData
  | .runSetMask => buildCommandAccesses "uci set network.lan.netmask=" true inData
  | .runSetGate =>
    .write settingsValueLength 0 (inData.length + 1) :: checkGateWayValidAccesses inData ++
      if checkGateWayValid inData = 0 then
        buildCommandAccesses "uci set network.lan.gateway=" true inData
      else []
  | .runSetDescription =>
    if inData.length > 0 then
      buildCommandAccesses "uci set system.@system[0].description=" (!env.locationTestFlag) inData
    else []
  | .runSetLocation =>
    if inData.length > 0 then
      buildCommandAccesses "uci set system.@system[0].location=" (!env.locationTestFlag) inData
    else []
  | .runSetSnmp =>
    if inData.length > 0 then buildCommandAccesses "uci set snmpd.general.enabled=" true inData
    else []
  | .runSystemRestart | .runNetworkRestart => []

/-- The loop body of `settings_handler`.  The value is read up to its NUL. -/
def settingsHandlerAccesses (env : ShellEnv) : Option MapCmd → List Access
  | none => [.missing]
  | some e =>
    .pass e.value :: match runSetingsCmd[e.cmd]? with
      | none => [.missing]
      | some handler => handler.accesses env (CStrings.text e.value)

/-- What is done for the entry `i` of the table: its item is parsed, and its
handler is called. -/
def slotAccesses (env : ShellEnv) (size i : Nat) (slot : Slot) : List Access :=
  getSettingsCmdAccesses size i slot ++ match getSettingsCmd slot with
    | none => []
    | some entry => settingsHandlerAccesses env entry

/-- `client_settings` for a request that has passed.  The table has room for
`(uint8_t)(splitLineMax + 1)` entries. -/
def executeMsgAccesses (c : Client) (w : World) : List Access :=
  let msg := c.settMsg.read 39 (settMsgSize - 39)
  let splitedLine := splitLine (CStrings.text msg) hash
  splitLineAccesses msg hash ++
    if w.mallocOk then
      (List.range (splitedLine.splitLineMax.toNat + 1)).flatMap fun i =>
        slotAccesses w.shell (splitedLine.splitLineMax + 1).toNat i (splitedLine.tokens (.ofNat i))
    else []

/-- `client_settings`. -/
def clientSettingsAccesses (dev : Device) (c : Client) (w : World) : List Access :=
  getBufferAccesses c ++ match getBuffer (raiseFlags c) with
    | none => []
    | some c =>
      let c := checkRequest dev w c
      if Flags.has c.passFlag passMac ∧ Flags.has c.passFlag passMd5 then executeMsgAccesses c w
      else []

/-- **What one call of `client_handler` does to the buffers a datagram goes
through.**  The list is meant up to its first element that is not contained. -/
def accesses (dev : Device) (c : Client) (w : World) : List Access :=
  match c.clientInfo.state with
  | .wait => netGetCommandAccesses w.recv
  | .settings => clientSettingsAccesses dev c w
  | _ => []

/-! ## The condition -/

/-- The beginning of the command line that a handler builds, and whether the value
is cut off at a newline. -/
def SettingsHandler.builds (env : ShellEnv) (v : List UInt8) :
    SettingsHandler → Option (String × Bool)
  | .runSetIp => if env.protoLines = 0 then none else some ("uci set network.lan.ipaddr=", true)
  | .runSetMask => some ("uci set network.lan.netmask=", true)
  | .runSetGate =>
    if checkGateWayValid v = 0 then some ("uci set network.lan.gateway=", true) else none
  | .runSetDescription =>
    if v = [] then none
    else some ("uci set system.@system[0].description=", !env.locationTestFlag)
  | .runSetLocation =>
    if v = [] then none else some ("uci set system.@system[0].location=", !env.locationTestFlag)
  | .runSetSnmp => if v = [] then none else some ("uci set snmpd.general.enabled=", true)
  | _ => none

/-- The command line fits its array, with its NUL. -/
def LineFits (env : ShellEnv) (v : List UInt8) (h : SettingsHandler) : Prop :=
  ∀ b ∈ h.builds env v, (CStrings.lit b.1).length + (addedData b.2 v).length < 128

/-- An item with a known name and with a value that fits the table and the command
line of its handler. -/
def ItemFits (env : ShellEnv) (item : List UInt8) : Prop :=
  ∃ n name handler m value, (splitLine item equals).tokens 0 = .token n name ∧
    handlerOf name = some handler ∧ (splitLine item equals).tokens 1 = .token m value ∧
    value.length < settingsValueLength ∧ LineFits env value handler

/-- The request in the settings message passes both checks. -/
def Accepted (dev : Device) (c : Client) (w : World) : Prop :=
  let passFlag := (checkRequest dev w (withRequest c)).passFlag
  Flags.has passFlag passMac = true ∧ Flags.has passFlag passMd5 = true

/-- **The condition on what is received.** -/
def Fits (dev : Device) (c : Client) (w : World) : Prop :=
  match c.clientInfo.state with
  | .wait => ∃ d : Datagram, w.recv = .datagram d ∧ d.bytes.length < maxBufferSize
  | .settings => c.datagram.length < settMsgSize ∧ (Accepted dev c w → w.mallocOk = true →
      ∀ slot ∈ (splitLine (CStrings.text (requestBody c)) hash).slots,
        ∃ num item, slot = .token num item ∧ ItemFits w.shell item)
  | _ => True

/-! ## Arrays and strings -/

@[simp] theorem contained_nil : Contained [] := fun _ h => by cases h

@[simp] theorem contained_cons {a : Access} {l : List Access} :
    Contained (a :: l) ↔ a.Contained ∧ Contained l :=
  List.forall_mem_cons

@[simp] theorem contained_append {l l' : List Access} :
    Contained (l ++ l') ↔ Contained l ∧ Contained l' :=
  List.forall_mem_append

theorem contained_flatMap {α : Type} {l : List α} {f : α → List Access} :
    Contained (l.flatMap f) ↔ ∀ x ∈ l, Contained (f x) := by
  constructor
  · intro h x hx a ha
    exact h a (List.mem_flatMap.mpr ⟨x, hx, ha⟩)
  · intro h a ha
    obtain ⟨x, hx, ha⟩ := List.mem_flatMap.mp ha
    exact h x hx a ha

theorem writesAt_contained {size len : Nat} (h : len ≤ size) (p : Nat → Bool) :
    Contained (writesAt size p len) := by
  intro a ha
  obtain ⟨i, hi, rfl⟩ := List.mem_map.mp ha
  have := List.mem_range.mp (List.mem_filter.mp hi).1
  change i + 1 ≤ size
  omega

/-- The token array is enlarged before the index reaches its end. -/
theorem tokenStores_contained (n : Nat) {bufsize : Nat} {m : UInt8} (h : m.toNat < bufsize) :
    Contained (tokenStores n bufsize m) := by
  induction n generalizing bufsize m with
  | zero =>
    simp only [tokenStores, contained_cons, contained_nil, and_true]
    exact h
  | succ n ih =>
    simp only [tokenStores, contained_cons]
    refine ⟨h, ih ?_⟩
    have hnext : (m + 1).toNat = (m.toNat + 1) % 256 := UInt8.toNat_add m 1
    split <;> omega

theorem length_text_lt {content : List UInt8} (h : 0 ∈ content) :
    (CStrings.text content).length < content.length := by
  rcases CStrings.text_append_rest content with heq | ⟨rest, heq⟩
  · rw [← heq] at h
    exact absurd h (CStrings.zero_not_mem_text content)
  · have := congrArg List.length heq
    rw [List.length_append, List.length_cons] at this
    omega

/-- `split_line` needs no more than a string. -/
theorem splitLine_contained_iff (content : List UInt8) (d : UInt8) :
    Contained (splitLineAccesses content d) ↔ 0 ∈ content := by
  simp only [splitLineAccesses, List.cons_append, contained_cons, contained_append]
  constructor
  · exact fun h => h.1
  · intro h
    have hlen := length_text_lt h
    exact ⟨h, writesAt_contained (by omega) _, tokenStores_contained _ (by decide)⟩

theorem length_replaceSymbols (s : List UInt8) (a b : UInt8) :
    (replaceSymbols s a b).length = s.length :=
  List.length_map _

theorem length_quoteBrackets (s : List UInt8) : (quoteBrackets s).length = s.length := by
  rw [quoteBrackets, length_replaceSymbols, length_replaceSymbols]

theorem replaceSymbols_contained {s : List UInt8} (h : s.length < settingsValueLength)
    (a : UInt8) : Contained (replaceSymbolsAccesses settingsValueLength s a) :=
  writesAt_contained (by omega) _

/-! ## Handlers -/

/-- A command line is built inside its array exactly if it fits. -/
theorem buildCommand_contained_iff (mainCommand : String) (cut : Bool) {v : List UInt8}
    (hv : v.length < settingsValueLength) :
    Contained (buildCommandAccesses mainCommand cut v) ↔
      (CStrings.lit mainCommand).length + (addedData cut v).length < 128 := by
  have hquoted : (replaceSymbols v leftBracket ShellWords.quote).length < settingsValueLength := by
    rwa [length_replaceSymbols]
  have hadded : (quoteBrackets v).length < 128 := by
    rwa [length_quoteBrackets]
  have hcut : (untilNewline (quoteBrackets v)).length ≤ (quoteBrackets v).length :=
    (List.takeWhile_prefix _).length_le
  simp only [buildCommandAccesses, contained_append, contained_cons, contained_nil, and_true,
    Access.Contained, replaceSymbols_contained hv, replaceSymbols_contained hquoted, true_and]
  constructor
  · rintro ⟨-, hline, -⟩
    omega
  · intro hline
    refine ⟨⟨⟨by omega, by omega, by omega, by simp⟩, ?_⟩, by omega, ?_⟩
    · split
      · simp only [contained_cons, contained_nil, and_true, Access.Contained]
        omega
      · exact contained_nil
    · rw [List.take_of_length_le]
      · simp
      · simp only [List.length_append, List.length_singleton]
        omega

theorem setIpLoop_contained_iff (n : Nat) {v : List UInt8} (hv : v.length < settingsValueLength) :
    Contained (setIpLoopAccesses n v) ↔ (n ≠ 0 →
      (CStrings.lit "uci set network.lan.ipaddr=").length + (addedData true v).length < 128) := by
  induction n generalizing v with
  | zero => simp [setIpLoopAccesses]
  | succ n ih =>
    have hq : (quoteBrackets v).length < settingsValueLength := by rwa [length_quoteBrackets]
    have hadded : addedData true (quoteBrackets v) = addedData true v := by
      simp only [addedData, quoteBrackets_idem]
    rw [setIpLoopAccesses, contained_append, buildCommand_contained_iff _ _ hv, ih hq, hadded]
    exact ⟨fun h _ => h.1, fun h => ⟨h (by omega), fun _ => h (by omega)⟩⟩

theorem extractValue_contained {v : List UInt8} (hv : v.length < settingsValueLength) :
    Contained (extractValueAccesses v) := by
  have hlen : v.idxOf rightBracket ≤ v.length := List.idxOf_le_length
  have hv : v.length < 128 := hv
  unfold extractValueAccesses
  dsimp only
  split
  · simp only [contained_cons, contained_nil, and_true, Access.Contained]
    omega
  · exact contained_nil

/-- With four tokens the slots up to the last one hold them. -/
theorem slots_passed {line : List UInt8} {d : UInt8} (h : (splitLine line d).splitLineMax = 3) :
    Contained ((splitLine line d).slots.map Slot.passed) := by
  have hvisited := splitTokens_visited (CStrings.tokens d line)
  rw [show splitTokens (CStrings.tokens d line) = splitLine line d from rfl, h] at hvisited
  have hcount : (CStrings.tokens d line).length % 256 = 4 := by
    split at hvisited
    · exact absurd hvisited (by decide)
    · exact hvisited.symm
  intro a ha
  obtain ⟨slot, hslot, rfl⟩ := List.mem_map.mp ha
  obtain ⟨i, hi, rfl⟩ := List.mem_map.mp hslot
  rw [h, List.mem_range] at hi
  obtain ⟨t, -, ht⟩ := splitTokens_tokens (CStrings.tokens d line) (i := i) (by
    rw [hcount]
    exact hi)
  rw [show splitTokens (CStrings.tokens d line) = splitLine line d from rfl] at ht
  rw [ht]
  simp [Slot.passed, Access.Contained]

theorem checkGateWayValid_contained {v : List UInt8} (hv : v.length < settingsValueLength) :
    Contained (checkGateWayValidAccesses v) := by
  have h1 : (replaceSymbols v dot space).length < settingsValueLength := by
    rwa [length_replaceSymbols]
  have h2 : (replaceSymbols (replaceSymbols v dot space) leftBracket space).length <
      settingsValueLength := by
    rwa [length_replaceSymbols]
  have h3 : (replaceSymbols (replaceSymbols (replaceSymbols v dot space) leftBracket space)
      rightBracket space).length < settingsValueLength := by
    rwa [length_replaceSymbols]
  simp only [checkGateWayValidAccesses, contained_append, replaceSymbols_contained hv,
    replaceSymbols_contained h1, replaceSymbols_contained h2, splitLine_contained_iff, true_and]
  refine ⟨?_, ?_⟩
  · rw [List.mem_append, List.mem_replicate]
    exact Or.inr ⟨by omega, rfl⟩
  · split
    · exact slots_passed ‹_›
    · exact contained_nil

/-- **A handler stays inside its arrays exactly if its command line fits.** -/
theorem handler_contained_iff (env : ShellEnv) {v : List UInt8}
    (hv : v.length < settingsValueLength) (h : SettingsHandler) :
    Contained (h.accesses env v) ↔ LineFits env v h := by
  have hne : v.length > 0 ↔ ¬ v = [] := List.length_pos_iff
  cases h <;> simp only [SettingsHandler.accesses, LineFits, SettingsHandler.builds]
  case runReset => simp [extractValue_contained hv]
  case runReboot => simp [extractValue_contained hv]
  case runSetIp =>
    rw [setIpLoop_contained_iff _ hv]
    by_cases hp : env.protoLines = 0 <;> simp [hp]
  case runSetMask => simp [buildCommand_contained_iff _ _ hv]
  case runSetGate =>
    have htemp : (Access.write settingsValueLength 0 (v.length + 1)).Contained := by
      change 0 + (v.length + 1) ≤ settingsValueLength
      omega
    by_cases hg : checkGateWayValid v = 0 <;>
      simp [hg, htemp, checkGateWayValid_contained hv, buildCommand_contained_iff _ _ hv]
  case runSetDescription =>
    by_cases hnil : v = [] <;> simp [hne, hnil, buildCommand_contained_iff _ _ hv]
  case runSetLocation =>
    by_cases hnil : v = [] <;> simp [hne, hnil, buildCommand_contained_iff _ _ hv]
  case runSetSnmp =>
    by_cases hnil : v = [] <;> simp [hne, hnil, buildCommand_contained_iff _ _ hv]
  case runSystemRestart => simp
  case runNetworkRestart => simp

/-! ## Items -/

/-- The value in the table is a string exactly if there is room for its NUL. -/
theorem strncpy_pass_iff {v : List UInt8} (h0 : 0 ∉ v) :
    0 ∈ CStrings.strncpy settingsValueLength v ↔ v.length < settingsValueLength := by
  have hfield := CStrings.field?_strncpy h0 settingsValueLength
  unfold CStrings.field? at hfield
  split_ifs at hfield with hmem hlen
  · exact iff_of_true hmem hlen
  · exact iff_of_false hmem (by assumption)

theorem text_strncpy {v : List UInt8} (h0 : 0 ∉ v) (hv : v.length < settingsValueLength) :
    CStrings.text (CStrings.strncpy settingsValueLength v) = v := by
  have hfield := CStrings.field?_strncpy h0 settingsValueLength
  rw [if_pos hv, CStrings.field?, if_pos ((strncpy_pass_iff h0).mpr hv)] at hfield
  exact Option.some.inj hfield

theorem handlerOf_of_mem {name : List UInt8} (h : name ∈ settingsTable) :
    ∃ i handler, settingsTable.idxOf? name = some i ∧ runSetingsCmd[i]? = some handler ∧
      handlerOf name = some handler := by
  have key : ∀ n ∈ settingsTable, (handlerOf n).isSome = true := by decide +kernel
  obtain ⟨handler, hh⟩ := Option.isSome_iff_exists.mp (key name h)
  obtain ⟨i, hi, hrun⟩ := Option.bind_eq_some_iff.mp hh
  exact ⟨i, handler, hi, hrun, hh⟩

/-- What is done for an item whose name and value are found. -/
theorem slotAccesses_found (env : ShellEnv) (size i : Nat) {num n m k : Nat}
    {item name value : List UInt8} {handler : SettingsHandler}
    (hname : (splitLine item equals).tokens 0 = .token n name)
    (hvalue : (splitLine item equals).tokens 1 = .token m value)
    (hk : settingsTable.idxOf? name = some k) (hrun : runSetingsCmd[k]? = some handler)
    (hmem : name ∈ settingsTable) :
    slotAccesses env size i (.token num item) = splitLineAccesses (item ++ [0]) equals ++
      [.pass (name ++ [0]), .pass (value ++ [0]), .write size i 1,
        .write settingsValueLength 0 settingsValueLength,
        .pass (CStrings.strncpy settingsValueLength value)] ++
      handler.accesses env (CStrings.text (CStrings.strncpy settingsValueLength value)) := by
  have hcmd : getSettingsCmd (.token num item) =
      some (some ⟨num, k, CStrings.strncpy settingsValueLength value⟩) := by
    simp only [getSettingsCmd, getCmdType, hname, hvalue, hk]
    rfl
  simp only [slotAccesses, getSettingsCmdAccesses, getCmdTypeAccesses, hname, hvalue, hcmd, hmem,
    settingsHandlerAccesses, hrun, Slot.passed, if_true, List.append_assoc, List.cons_append,
    List.nil_append]

/-- Otherwise something that is missing is passed on. -/
theorem found_of_contained {env : ShellEnv} {size i num : Nat} {item : List UInt8}
    (h : Contained (slotAccesses env size i (.token num item))) :
    ∃ n name m value, (splitLine item equals).tokens 0 = .token n name ∧ name ∈ settingsTable ∧
      (splitLine item equals).tokens 1 = .token m value := by
  simp only [slotAccesses, getSettingsCmdAccesses, getCmdTypeAccesses, contained_append,
    contained_cons] at h
  obtain ⟨⟨-, hfirst, hsecond⟩, hhandler⟩ := h
  cases hname : (splitLine item equals).tokens 0 with
  | unset =>
    rw [hname] at hfirst
    exact hfirst.elim
  | null =>
    rw [hname] at hfirst
    exact hfirst.elim
  | token n name =>
    by_cases hmem : name ∈ settingsTable
    · simp only [hname, if_pos hmem, contained_cons] at hsecond
      cases hvalue : (splitLine item equals).tokens 1 with
      | unset =>
        rw [hvalue] at hsecond
        exact hsecond.1.elim
      | null =>
        rw [hvalue] at hsecond
        exact hsecond.1.elim
      | token m value => exact ⟨n, name, m, value, rfl, hmem, rfl⟩
    · -- the entry of the table is not written
      have hcmd : getSettingsCmd (.token num item) = some none := by
        simp only [getSettingsCmd, getCmdType, hname, List.idxOf?_eq_none_iff.mpr hmem]
        rfl
      simp only [hcmd, settingsHandlerAccesses, contained_cons] at hhandler
      exact hhandler.1.elim

/-- **One entry of the table**: everything is contained exactly if its item fits,
and the table has room for it. -/
theorem slot_contained_iff (env : ShellEnv) (size i : Nat) {slot : Slot}
    (h0 : ∀ num item, slot = .token num item → 0 ∉ item) :
    Contained (slotAccesses env size i slot) ↔
      ∃ num item, slot = .token num item ∧ ItemFits env item ∧ i < size := by
  cases slot with
  | unset => simp [slotAccesses, getSettingsCmdAccesses, Access.Contained]
  | null => simp [slotAccesses, getSettingsCmdAccesses, Access.Contained]
  | token num item =>
    have hzero : ∀ {j : UInt8} {m : Nat} {value : List UInt8},
        (splitLine item equals).tokens j = .token m value → 0 ∉ value := fun hvalue hmem =>
      h0 num item rfl (CStrings.mem_of_mem_tokens (mem_of_splitTokens hvalue) hmem)
    constructor
    · intro h
      obtain ⟨n, name, m, value, hname, hmem, hvalue⟩ := found_of_contained h
      obtain ⟨k, handler, hk, hrun, hh⟩ := handlerOf_of_mem hmem
      rw [slotAccesses_found env size i hname hvalue hk hrun hmem] at h
      simp only [contained_append, contained_cons, Access.Contained,
        strncpy_pass_iff (hzero hvalue)] at h
      obtain ⟨⟨-, -, -, hsize, -, hv, -⟩, hhandler⟩ := h
      rw [text_strncpy (hzero hvalue) hv, handler_contained_iff env hv] at hhandler
      exact ⟨num, item, rfl, ⟨n, name, handler, m, value, hname, hh, hvalue, hv, hhandler⟩, hsize⟩
    · rintro ⟨_, _, heq, ⟨n, name, handler, m, value, hname, hh, hvalue, hv, hfits⟩, hsize⟩
      cases heq
      have hmem := mem_settingsTable_of_handlerOf hh
      obtain ⟨k, handler', hk, hrun, hh'⟩ := handlerOf_of_mem hmem
      obtain rfl : handler = handler' := Option.some.inj (hh.symm.trans hh')
      rw [slotAccesses_found env size i hname hvalue hk hrun hmem, text_strncpy (hzero hvalue) hv]
      simp only [contained_append, contained_cons, contained_nil, Access.Contained,
        strncpy_pass_iff (hzero hvalue), splitLine_contained_iff, handler_contained_iff env hv]
      refine ⟨⟨by simp, by simp, by simp, by omega, by simp, hv, trivial⟩, hfits⟩

/-! ## Whole runs -/

theorem length_cutTokens (d : UInt8) (b : Bool) (s : List UInt8) :
    (cutTokens d b s).length = s.length := by
  induction s generalizing b with
  | nil => rfl
  | cons c s ih =>
    unfold cutTokens
    split <;> simp [ih]

/-- Pieces of the same lengths put together have the same length. -/
theorem length_intercalate_congr (d : UInt8) {ps qs : List (List UInt8)}
    (h : ps.map List.length = qs.map List.length) :
    ([d].intercalate ps).length = ([d].intercalate qs).length := by
  induction ps generalizing qs with
  | nil =>
    obtain rfl : qs = [] := by simpa using h.symm
    rfl
  | cons p ps ih =>
    cases qs with
    | nil => simp at h
    | cons q qs =>
      obtain ⟨hpq, hrest⟩ := List.cons.inj h
      have hlen := ih hrest
      cases ps with
      | nil =>
        obtain rfl : qs = [] := by simpa using hrest.symm
        simpa using hpq
      | cons p' ps =>
        cases qs with
        | nil => simp at hrest
        | cons q' qs =>
          rw [List.intercalate_cons_cons, List.intercalate_cons_cons, List.length_append,
            List.length_append, List.length_append, List.length_append, hlen, hpq]

theorem map_length_cutItems (visited : Nat → Bool) (j : Nat) (ps : List (List UInt8)) :
    (cutItems visited j ps).map List.length = ps.map List.length := by
  induction ps generalizing j with
  | nil => rfl
  | cons p ps ih =>
    unfold cutItems
    split
    · rw [List.map_cons, List.map_cons, ih]
    · rw [List.map_cons, List.map_cons, ih]
      split
      · rw [length_cutTokens]
      · rfl

/-- Splitting in place does not go beyond the text. -/
theorem length_splitInPlace (mallocOk : Bool) (msg : List UInt8) :
    (splitInPlace mallocOk msg).length = (CStrings.text msg).length := by
  unfold splitInPlace
  dsimp only
  rw [length_cutTokens, length_intercalate_congr hash (map_length_cutItems _ 0 _),
    List.intercalate_splitOn]

/-- The last byte of the settings message after a request has been copied to it. -/
theorem write_request_last {m : Memory} (hm : m 1069 = 0) {d : List UInt8}
    (hlen : d.length < settMsgSize) : m.write 0 (d ++ [0]) 1069 = 0 := by
  have hlen : d.length < 1070 := hlen
  by_cases hd : d.length = 1069
  · have hlt : 1069 < (d ++ [0]).length := by
      rw [List.length_append, List.length_singleton, hd]
      omega
    have hbyte := m.write_of_mem 0 hlt
    rw [Nat.zero_add] at hbyte
    rw [hbyte, List.getElem_append_right (by omega), List.getElem_singleton]
  · rw [m.write_of_not_mem (by rw [List.length_append, List.length_singleton]; omega), hm]

/-- So the text of a request ends inside the message. -/
theorem zero_mem_requestBody {c : Client} (hm : c.settMsg 1069 = 0)
    (hlen : c.datagram.length < settMsgSize) : 0 ∈ requestBody c := by
  refine List.mem_map.mpr ⟨1030, List.mem_range.mpr (by decide), ?_⟩
  exact write_request_last hm hlen

/-- After the checks only splitting changes the settings message. -/
theorem settMsg_answerRequest {c c₁ : Client} {w : World} {e : ErrorCode} {out : List Output}
    (h : answerRequest c w = some (c₁, e, out)) :
    c₁.settMsg = c.settMsg ∨ c₁.settMsg = c.settMsg.write 39
      (splitInPlace w.mallocOk (c.settMsg.read 39 (settMsgSize - 39))) := by
  obtain hexec | ⟨e, -, heq⟩ := answerRequest_cases h
  · obtain ⟨-, calls, popens, info, -, -, -, heq⟩ | ⟨-, heq⟩ := executeMsg_cases hexec
    · cases heq
      exact Or.inr rfl
    · cases heq
      exact Or.inr rfl
  · cases heq
    exact Or.inl rfl

/-- `client_settings` leaves the last byte of the settings message zero. -/
theorem clientSettings_last {dev : Device} {c c₁ : Client} {w : World} {e : ErrorCode}
    {out : List Output} (hc : Settled c) (hs : c.clientInfo.state = .settings)
    (hm : c.settMsg 1069 = 0) (h : clientSettings dev c w = some (c₁, e, out)) :
    c₁.settMsg 1069 = 0 := by
  obtain ⟨hlen, h⟩ := answerRequest_of_clientSettings hc hs h
  have hlast : (checkRequest dev w (withRequest c)).settMsg 1069 = 0 := by
    rw [settMsg_checkRequest]
    exact write_request_last hm hlen
  have hsplit : (checkRequest dev w (withRequest c)).settMsg.write 39 (splitInPlace w.mallocOk
      ((checkRequest dev w (withRequest c)).settMsg.read 39 (settMsgSize - 39))) 1069 = 0 := by
    have htext : (CStrings.text ((checkRequest dev w (withRequest c)).settMsg.read 39
        (settMsgSize - 39))).length < 1031 := by
      rw [read_checkRequest]
      exact (length_text_lt (zero_mem_requestBody hm hlen)).trans_eq (Memory.length_read _ _ _)
    rw [Memory.write_of_not_mem _ (by rw [length_splitInPlace]; omega), hlast]
  rcases settMsg_answerRequest h with heq | heq
  · rw [heq, hlast]
  · rw [heq, hsplit]

/-- In every run the last byte of the settings message is zero. -/
theorem run_last {dev : Device} {ws : List World} {c : Client} (h : run dev ws = some c) :
    c.settMsg 1069 = 0 := by
  refine (run_invariant (I := fun c => Settled c ∧ c.settMsg 1069 = 0)
    ⟨⟨rfl, fun hst => by cases hst⟩, rfl⟩ (fun {c c' w out} hc hstep => ?_) h).2
  refine ⟨clientHandler_settled hstep hc.1, ?_⟩
  by_cases hs : c.clientInfo.state = .settings
  · rw [clientHandler_settings hs] at hstep
    obtain ⟨⟨c₁, e, out₁⟩, hset, hstep⟩ := Option.bind_eq_some_iff.mp hstep
    cases hstep
    have hack : (acknowledge c₁ e).settMsg 1069 = c₁.settMsg 1069 := by
      change ((c₁.settMsg.write 7 (e.toByte :: List.replicate 31 0)).write 0 [ackToSetConfig])
        1069 = _
      rw [Memory.write_of_not_mem _ (by simp), Memory.write_of_not_mem _ (by simp)]
    rw [(afterSettings_eq (acknowledge c₁ e) e).2, hack]
    exact clientSettings_last hc.1 hs hc.2 hset
  · exact (congrFun (clientHandler_outside hstep hs).1 1069).trans hc.2

/-- The loops over the table: everything is contained exactly if all items fit. -/
theorem executeMsg_contained_iff {c : Client} (w : World)
    (h0 : 0 ∈ c.settMsg.read 39 (settMsgSize - 39)) :
    Contained (executeMsgAccesses c w) ↔ (w.mallocOk = true →
      ∀ slot ∈ (splitLine (CStrings.text (c.settMsg.read 39 (settMsgSize - 39))) hash).slots,
        ∃ num item, slot = .token num item ∧ ItemFits w.shell item) := by
  generalize hmsg : c.settMsg.read 39 (settMsgSize - 39) = msg at h0 ⊢
  simp only [executeMsgAccesses, hmsg, contained_append, splitLine_contained_iff, h0, true_and]
  by_cases hm : w.mallocOk = true
  · have hslot : ∀ i, ∀ num item,
        (splitLine (CStrings.text msg) hash).tokens (UInt8.ofNat i) = .token num item →
          0 ∉ item := fun i num item hi =>
      CStrings.zero_not_mem_of_mem_tokens (mem_of_splitTokens hi)
    rw [if_pos hm, contained_flatMap, SplitedLine.slots, List.forall_mem_map]
    simp only [slot_contained_iff _ _ _ (hslot _), hm, true_implies]
    constructor
    · intro h i hi
      obtain ⟨num, item, heq, hfits, -⟩ := h i hi
      exact ⟨num, item, heq, hfits⟩
    · intro h i hi
      obtain ⟨num, item, heq, hfits⟩ := h i hi
      refine ⟨num, item, heq, hfits, ?_⟩
      -- with 256 entries the size wraps around to 0, but then the first slot is null
      have hne : counted msg % 256 ≠ 0 := by
        intro hzero
        obtain ⟨j, hj, hnull⟩ := List.mem_map.mp (null_mem_slots hzero)
        obtain ⟨num', item', heq', -⟩ := h j hj
        rw [hnull] at heq'
        cases heq'
      have hvisited := visited_eq msg
      rw [if_neg hne] at hvisited
      have hsize : ((splitLine (CStrings.text msg) hash).splitLineMax + 1).toNat =
          (splitLine (CStrings.text msg) hash).splitLineMax.toNat + 1 := by
        rw [UInt8.toNat_add]
        change ((splitLine (CStrings.text msg) hash).splitLineMax.toNat + 1) % 256 = _
        omega
      rw [hsize]
      exact List.mem_range.mp hi
  · simp [hm]

/-- The receive buffer: the NUL has to fit behind the datagram. -/
theorem netGetCommand_contained_iff (r : Recv) :
    Contained (netGetCommandAccesses r) ↔
      ∃ d : Datagram, r = .datagram d ∧ d.bytes.length < maxBufferSize := by
  cases r with
  | error =>
    refine iff_of_false (fun h => ?_) (by rintro ⟨d, hd, -⟩; cases hd)
    have hindex : 2 ^ 32 - 1 + 1 ≤ maxBufferSize := (contained_cons.mp h).1
    exact absurd hindex (by decide +kernel)
  | datagram d =>
    have hsize : maxBufferSize = 1550 := rfl
    simp only [netGetCommandAccesses, contained_cons, contained_nil, and_true, Access.Contained]
    constructor
    · rintro ⟨-, hnul⟩
      exact ⟨d, rfl, by omega⟩
    · rintro ⟨d', hd, hlen⟩
      cases hd
      omega

/-- The settings message, and everything behind it. -/
theorem clientSettings_contained_iff {dev : Device} {c : Client} (hc : Settled c)
    (hs : c.clientInfo.state = .settings) (hm : c.settMsg 1069 = 0) (w : World) :
    Contained (clientSettingsAccesses dev c w) ↔
      c.datagram.length < settMsgSize ∧ (Accepted dev c w → w.mallocOk = true →
        ∀ slot ∈ (splitLine (CStrings.text (requestBody c)) hash).slots,
          ∃ num item, slot = .token num item ∧ ItemFits w.shell item) := by
  have hlen := (hc.received hs).1
  have hcopy : Contained (getBufferAccesses c) ↔ c.datagram.length < settMsgSize := by
    rw [getBufferAccesses, if_pos (by omega), contained_cons]
    simp only [contained_nil, and_true, Access.Contained]
    omega
  rw [clientSettingsAccesses, contained_append, hcopy, getBuffer_raiseFlags (hc.received hs)]
  by_cases hfits : c.datagram.length < settMsgSize
  · have hexec := executeMsg_contained_iff (c := checkRequest dev w (withRequest c)) w
      (by rw [read_checkRequest]; exact zero_mem_requestBody hm hfits)
    rw [read_checkRequest] at hexec
    simp only [hfits, if_true, true_and, Accepted]
    split
    · rename_i haccepted
      rw [hexec]
      exact ⟨fun h _ => h, fun h => h haccepted⟩
    · rename_i hrefused
      exact iff_of_true contained_nil fun h => absurd h hrefused
  · simp [hfits]

/-- **Nothing leaves its buffer exactly if what is received fits**, in every state
of every run of the client. -/
theorem accesses_contained_iff {dev : Device} {history : List World} {c : Client}
    (hrun : run dev history = some c) (w : World) :
    Contained (accesses dev c w) ↔ Fits dev c w := by
  unfold accesses Fits
  cases hs : c.clientInfo.state with
  | wait => exact netGetCommand_contained_iff w.recv
  | settings => exact clientSettings_contained_iff (run_settled hrun) hs (run_last hrun) w
  | idle => exact iff_of_true contained_nil trivial
  | init => exact iff_of_true contained_nil trivial
  | fillMsg => exact iff_of_true contained_nil trivial
  | send => exact iff_of_true contained_nil trivial
  | reload => exact iff_of_true contained_nil trivial

/-- While a search request is awaited, and while an authentic request is carried out. -/
theorem accesses_contained_requests :
    (∃ c, run labDevice [calm findRequest] = some c ∧ c.clientInfo.state = .wait ∧
      (Contained (accesses labDevice c (calm findRequest)) ↔
        Fits labDevice c (calm findRequest))) ∧
    ∃ c, run labDevice [maskRequest, maskRequest] = some c ∧ c.clientInfo.state = .settings ∧
      Authentic labDevice c.datagram ∧ Accepted labDevice c maskRequest ∧
      (Contained (accesses labDevice c maskRequest) ↔ Fits labDevice c maskRequest) := by
  have hwait : run labDevice [calm findRequest] =
      some ((registerFillmsgs Client.start).setState .wait) := rfl
  refine ⟨⟨_, hwait, rfl, accesses_contained_iff hwait _⟩, ?_⟩
  have hreceived : (run labDevice [maskRequest, maskRequest]).map (fun c =>
      (c.clientInfo.state, c.datagram, decide (Flags.has
          (checkRequest labDevice maskRequest (withRequest c)).passFlag passMac = true ∧
        Flags.has (checkRequest labDevice maskRequest (withRequest c)).passFlag passMd5 = true))) =
      some (.settings, (authenticRequest (CStrings.lit "NETMASK=[255.0.0.0]") (by decide)).bytes,
        true) := by decide +kernel
  obtain ⟨c, hrun, heq⟩ := Option.map_eq_some_iff.mp hreceived
  simp only [Prod.mk.injEq, decide_eq_true_eq] at heq
  obtain ⟨hs, hd, haccepted⟩ := heq
  refine ⟨c, hrun, hs, ?_, haccepted, accesses_contained_iff hrun _⟩
  rw [hd]
  exact ⟨by decide, by decide, by decide⟩

/-- A datagram that fills the receive buffer: the NUL goes behind it. -/
theorem full_buffer_not_contained :
    ∃ c, run labDevice [calm longRequest] = some c ∧
      ¬ Contained (accesses labDevice c (calm longRequest)) := by
  refine ⟨(registerFillmsgs Client.start).setState .wait, rfl, fun h => ?_⟩
  change Contained (netGetCommandAccesses (calm longRequest).recv) at h
  obtain ⟨d, hd, hlen⟩ := (netGetCommand_contained_iff _).mp h
  obtain rfl : longRequest = d := Recv.datagram.inj hd
  rw [longRequest, List.length_cons, List.length_replicate] at hlen
  exact absurd hlen (by decide)

end TfPackages.Dm
