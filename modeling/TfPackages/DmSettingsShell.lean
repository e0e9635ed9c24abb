import TfPackages.DmSettings
import TfPackages.ShellWords

/-! # What the settings handlers hand to the shell

Six handlers build a command line `uci set OPTION=` from the value in the
datagram and give it to `popen`.  The value comes in square brackets, and the
handlers turn every bracket, wherever it stands, into a single quote; what lies
between the brackets is meant to reach the shell quoted.  Five of them cut the
value off at a newline, two of these only outside the test mode.

`buildCommand` is the construction they share.  `value_word_iff` says for which
values it adds the word it is meant to add, the value without its brackets; the
main theorem carries this over to what the six handlers run.
-/
namespace TfPackages.Dm

/-- The settings that build a command line from their value. -/
inductive Setting where
  | ipaddress
  | netmask
  | gateway
  | systemName
  | systemLocation
  | snmpState
deriving DecidableEq, Repr

/-- What the handlers depend on besides the value. -/
structure ShellEnv where
  /-- The lines `fgets` reads from `uci show network.lan.proto`. -/
  protoLines : Nat
  locationTestFlag : Bool
deriving DecidableEq, Repr

/-- A command line given to `popen`: a fixed one, or one built from the value. -/
inductive Popen where
  | fixed (line : String)
  | built (line : List UInt8)
deriving DecidableEq, Repr

def leftBracket : UInt8 := 0x5b
def rightBracket : UInt8 := 0x5d
def dot : UInt8 := 0x2e
def space : UInt8 := 0x20

/-- The two calls of `replaceSymbols` at the start of each handler. -/
def quoteBrackets (inData : List UInt8) : List UInt8 :=
  replaceSymbols (replaceSymbols inData leftBracket ShellWords.quote) rightBracket ShellWords.quote

/-- `s[strcspn(s, "\n")] = '\0'`. -/
def untilNewline (s : List UInt8) : List UInt8 := s.takeWhile (· ≠ ShellWords.newline)

/-- `strcat(mainCommand, addedData)` in a `char mainCommand[128]`. -/
def appendCommand (mainCommand addedData : List UInt8) : Option (List UInt8) :=
  if mainCommand.length + addedData.length < 128 then some (mainCommand ++ addedData) else none

/-- `addedData` of a handler. -/
def addedData (cut : Bool) (inData : List UInt8) : List UInt8 :=
  if cut then untilNewline (quoteBrackets inData) else quoteBrackets inData

/-- The command line of a handler. -/
def buildCommand (mainCommand : String) (cut : Bool) (inData : List UInt8) : Option (List UInt8) :=
  appendCommand (CStrings.lit mainCommand) (addedData cut inData)

/-- `checkGateWayValid`. -/
def checkGateWayValid (ip : List UInt8) : Nat :=
  let ip := replaceSymbols ip dot space
  let ip := replaceSymbols ip leftBracket space
  let ip := replaceSymbols ip rightBracket space
  let splitLine := splitLine ip space
  if splitLine.splitLineMax ≠ 3 then 5
  else
    (splitLine.slots.filter fun
      | .token _ t => CStrings.atoi t = 0xff
      | _ => false).length

/-- The loop of `runSetIp`: `inData` keeps its quotes from one round to the
next. -/
def setIpLoop : Nat → List UInt8 → Option (List Popen)
  | 0, _ => some []
  | n + 1, inData => do
    let mainCommand ← buildCommand "uci set network.lan.ipaddr=" true inData
    let rest ← setIpLoop n (quoteBrackets inData)
    some (.fixed "uci set network.lan.proto='static'" :: .built mainCommand :: rest)

/-- `runSetIp`.  The value is not touched when there is nothing to read. -/
def runSetIp (env : ShellEnv) (value : List UInt8) : Option (List Popen) := do
  let popens ← match env.protoLines with
    | 0 => some []
    | n + 1 => (CStrings.field? value).bind (setIpLoop (n + 1))
  some (.fixed "uci show network.lan.proto" :: popens)

/-- `runSetMask`. -/
def runSetMask (value : List UInt8) : Option (List Popen) := do
  let inData ← CStrings.field? value
  let mainCommand ← buildCommand "uci set network.lan.netmask=" true inData
  some [.built mainCommand]

/-- `runSetGate`. -/
def runSetGate (value : List UInt8) : Option (List Popen) := do
  let inData ← CStrings.field? value
  if checkGateWayValid inData = 0 then
    let mainCommand ← buildCommand "uci set network.lan.gateway=" true inData
    some [.built mainCommand, .fixed "uci commit network"]
  else some [.fixed "uci del network.lan.gateway", .fixed "uci commit network"]

/-- The common body of `runSetDescription`, `runSetLocation` and `runSetSnmp`:
nothing is done for an empty value. -/
def setUnlessEmpty (mainCommand : String) (cut : Bool) (after : List Popen)
    (value : List UInt8) : Option (List Popen) := do
  let inData ← CStrings.field? value
  if inData.length > 0 then
    let mainCommand ← buildCommand mainCommand cut inData
    some (.built mainCommand :: after)
  else some []

/-- `runSetDescription`. -/
def runSetDescription (env : ShellEnv) : List UInt8 → Option (List Popen) :=
  setUnlessEmpty "uci set system.@system[0].description=" (!env.locationTestFlag)
    [.fixed "uci commit system"]

/-- `runSetLocation`. -/
def runSetLocation (env : ShellEnv) : List UInt8 → Option (List Popen) :=
  setUnlessEmpty "uci set system.@system[0].location=" (!env.locationTestFlag)
    [.fixed "uci commit system"]

/-- `runSetSnmp`. -/
def runSetSnmp : List UInt8 → Option (List Popen) :=
  setUnlessEmpty "uci set snmpd.general.enabled=" true
    [.fixed "uci commit snmpd", .fixed "/etc/init.d/snmpd reload"]

/-- The handler of a setting. -/
def Setting.run (env : ShellEnv) : Setting → List UInt8 → Option (List Popen)
  | .ipaddress => runSetIp env
  | .netmask => runSetMask
  | .gateway => runSetGate
  | .systemName => runSetDescription env
  | .systemLocation => runSetLocation env
  | .snmpState => runSetSnmp

/-! ## What is promised, and when it holds -/

/-- The option a setting stores its value in. -/
def Setting.option : Setting → String
  | .ipaddress => "network.lan.ipaddr"
  | .netmask => "network.lan.netmask"
  | .gateway => "network.lan.gateway"
  | .systemName => "system.@system[0].description"
  | .systemLocation => "system.@system[0].location"
  | .snmpState => "snmpd.general.enabled"

/-- The value without its enclosing brackets. -/
def unbracket (v : List UInt8) : List UInt8 :=
  if v.head? = some leftBracket ∧ v.tail.getLast? = some rightBracket then v.tail.dropLast else v

/-- A value text: no NUL in it. -/
structure ValueText where
  bytes : List UInt8
  zero_not_mem : 0 ∉ bytes

/-- **No part of the value becomes shell syntax**: the handler runs through, and
every line it builds from the value is one command of three words. -/
def NoShellSyntax (s : Setting) (env : ShellEnv) (v : List UInt8) : Prop :=
  ∃ popens, s.run env (CStrings.strncpy settingsValueLength v) = some popens ∧
    ∀ line, .built line ∈ popens → ShellWords.words line =
      some [CStrings.lit "uci", CStrings.lit "set", CStrings.lit s.option ++ equals :: unbracket v]

/-- The handler looks at the value. -/
def Setting.reads (env : ShellEnv) : Setting → Prop
  | .ipaddress => env.protoLines ≠ 0
  | _ => True

/-- The handler builds a command line from the value. -/
def Setting.hands (env : ShellEnv) (v : List UInt8) : Setting → Prop
  | .ipaddress => env.protoLines ≠ 0
  | .netmask => True
  | .gateway => checkGateWayValid v = 0
  | _ => v ≠ []

/-- The handler cuts the value off at a newline. -/
def Setting.cuts (env : ShellEnv) : Setting → Bool
  | .systemName => !env.locationTestFlag
  | .systemLocation => !env.locationTestFlag
  | _ => true

/-- A value that needs no quoting and has no brackets. -/
def PlainValue (v : List UInt8) : Prop :=
  ∀ c ∈ v, ShellWords.isPlain c = true ∧ c ≠ leftBracket ∧ c ≠ rightBracket

/-- A value in brackets with no quote and no other bracket in it, and no newline
where the handler would cut it off. -/
def BracketedValue (cut : Bool) (v : List UInt8) : Prop :=
  ∃ w, v = leftBracket :: (w ++ [rightBracket]) ∧ leftBracket ∉ w ∧ rightBracket ∉ w ∧
    ShellWords.quote ∉ w ∧ (cut = true → ShellWords.newline ∉ w)

/-- The condition on a value: it fits the buffers, and it is plain or properly
bracketed. -/
def Harmless (s : Setting) (env : ShellEnv) (v : List UInt8) : Prop :=
  s.reads env → v.length < settingsValueLength ∧ (s.hands env v →
    ("uci set ".length + s.option.length + 1 + v.length < 128) ∧
      (PlainValue v ∨ BracketedValue (s.cuts env) v))

/-! ## The word that is added -/

/-- What becomes of one byte of the value. -/
def quoteBracket (c : UInt8) : UInt8 :=
  if c = leftBracket ∨ c = rightBracket then ShellWords.quote else c

theorem quoteBrackets_eq_map (l : List UInt8) : quoteBrackets l = l.map quoteBracket := by
  unfold quoteBrackets replaceSymbols
  rw [List.map_map]
  refine List.map_congr_left fun c _ => ?_
  have hq : ShellWords.quote ≠ rightBracket := by decide
  by_cases hl : c = leftBracket
  · simp [quoteBracket, hl, hq]
  · simp [quoteBracket, hl]

theorem quoteBracket_eq_self_iff (c : UInt8) :
    quoteBracket c = c ↔ c ≠ leftBracket ∧ c ≠ rightBracket := by
  unfold quoteBracket
  constructor
  · intro h
    split at h
    · subst h
      decide
    · rename_i hc
      exact not_or.mp hc
  · intro h
    exact if_neg (not_or.mpr h)

/-- A value keeps its bytes exactly when it has no brackets. -/
theorem quoteBrackets_eq_self_iff (l : List UInt8) :
    quoteBrackets l = l ↔ leftBracket ∉ l ∧ rightBracket ∉ l := by
  have hmap : l.map quoteBracket = l ↔ ∀ c ∈ l, quoteBracket c = c := by
    simpa using List.map_inj_left (f := quoteBracket) (g := id) (l := l)
  rw [quoteBrackets_eq_map, hmap]
  constructor
  · intro h
    refine ⟨fun hm => ?_, fun hm => ?_⟩
    · exact ((quoteBracket_eq_self_iff _).mp (h _ hm)).1 rfl
    · exact ((quoteBracket_eq_self_iff _).mp (h _ hm)).2 rfl
  · rintro ⟨hl, hr⟩ c hc
    refine (quoteBracket_eq_self_iff c).mpr ⟨?_, ?_⟩
    · rintro rfl
      exact hl hc
    · rintro rfl
      exact hr hc

/-- Quoting the brackets leaves none. -/
theorem quoteBrackets_idem (l : List UInt8) :
    quoteBrackets (quoteBrackets l) = quoteBrackets l := by
  rw [quoteBrackets_eq_self_iff, quoteBrackets_eq_map]
  have hno : ∀ c, quoteBracket c ≠ leftBracket ∧ quoteBracket c ≠ rightBracket := by
    intro c
    unfold quoteBracket
    split
    · decide
    · rename_i hc
      exact not_or.mp hc
  constructor
  · intro hm
    obtain ⟨c, -, hc⟩ := List.mem_map.mp hm
    exact (hno c).1 hc
  · intro hm
    obtain ⟨c, -, hc⟩ := List.mem_map.mp hm
    exact (hno c).2 hc

/-- Newlines stay where they are. -/
theorem newline_mem_quoteBrackets (l : List UInt8) :
    ShellWords.newline ∈ quoteBrackets l ↔ ShellWords.newline ∈ l := by
  rw [quoteBrackets_eq_map, List.mem_map]
  constructor
  · rintro ⟨c, hc, h⟩
    unfold quoteBracket at h
    split at h
    · exact absurd h (by decide)
    · exact h ▸ hc
  · intro h
    exact ⟨_, h, by decide⟩

theorem untilNewline_eq_self {l : List UInt8} (h : ShellWords.newline ∉ l) :
    untilNewline l = l := by
  refine List.takeWhile_eq_self_iff.mpr fun c hc => ?_
  simpa using fun heq : c = ShellWords.newline => h (heq ▸ hc)

theorem length_untilNewline_lt {l : List UInt8} (h : ShellWords.newline ∈ l) :
    (untilNewline l).length < l.length := by
  refine lt_of_le_of_ne (List.takeWhile_prefix _).length_le fun heq => ?_
  have hself : untilNewline l = l := (List.takeWhile_prefix _).eq_of_length heq
  have := List.mem_takeWhile_imp (hself.symm ▸ h : ShellWords.newline ∈ untilNewline l)
  simp at this

/-- A value is not cut off when there is nothing to cut. -/
theorem addedData_of_not_mem {cut : Bool} {v : List UInt8}
    (h : cut = true → ShellWords.newline ∉ v) : addedData cut v = quoteBrackets v := by
  unfold addedData
  split
  · rename_i hcut
    exact untilNewline_eq_self ((newline_mem_quoteBrackets v).not.mpr (h hcut))
  · rfl

/-- A cut makes the value shorter. -/
theorem length_addedData_lt {v : List UInt8} (h : ShellWords.newline ∈ v) :
    (addedData true v).length < v.length := by
  have hlt := length_untilNewline_lt ((newline_mem_quoteBrackets v).mpr h)
  rw [quoteBrackets_eq_map, List.length_map] at hlt
  simpa [addedData, quoteBrackets_eq_map] using hlt

/-- A value in brackets, and what becomes of it. -/
theorem quoteBrackets_enclosed (w : List UInt8) :
    quoteBrackets (leftBracket :: (w ++ [rightBracket])) =
      ShellWords.quote :: (quoteBrackets w ++ [ShellWords.quote]) := by
  have hl : quoteBracket leftBracket = ShellWords.quote := by decide
  have hr : quoteBracket rightBracket = ShellWords.quote := by decide
  simp only [quoteBrackets_eq_map, List.map_cons, List.map_append, List.map_nil, hl, hr]

theorem unbracket_enclosed (w : List UInt8) :
    unbracket (leftBracket :: (w ++ [rightBracket])) = w := by
  simp [unbracket]

/-- A value that is not in brackets is taken as it is. -/
theorem unbracket_cases (v : List UInt8) :
    (∃ w, v = leftBracket :: (w ++ [rightBracket])) ∨
      (unbracket v = v ∧ ∀ cut, ¬ BracketedValue cut v) := by
  by_cases h : v.head? = some leftBracket ∧ v.tail.getLast? = some rightBracket
  · obtain ⟨hhead, hlast⟩ := h
    obtain ⟨t, rfl⟩ := List.head?_eq_some_iff.mp hhead
    obtain ⟨w, hw⟩ := List.getLast?_eq_some_iff.mp hlast
    exact Or.inl ⟨w, by rw [← hw, List.tail_cons]⟩
  · refine Or.inr ⟨if_neg h, ?_⟩
    rintro cut ⟨w, rfl, -⟩
    exact h ⟨rfl, by simp⟩

/-- A newline between the brackets: the closing quote is cut off. -/
theorem addedData_enclosed_cut {v : List UInt8} (hn : ShellWords.newline ∈ v) :
    addedData true (leftBracket :: (v ++ [rightBracket])) =
      ShellWords.quote :: untilNewline (quoteBrackets v) := by
  have hne : ShellWords.quote ≠ ShellWords.newline := by decide
  have hlt := length_untilNewline_lt ((newline_mem_quoteBrackets v).mpr hn)
  have hinner : untilNewline (quoteBrackets v ++ [ShellWords.quote]) =
      untilNewline (quoteBrackets v) := by
    rw [untilNewline, List.takeWhile_append, if_neg (by exact hlt.ne)]
    rfl
  rw [← hinner]
  simp [addedData, quoteBrackets_enclosed, untilNewline, hne]

section Word
variable {s : ShellWords.Lexer} {w : ShellWords.Word}

/-- A value in brackets becomes one quoted word when there is no other bracket,
no quote and no newline to cut at in it. -/
theorem enclosed_word_iff (hm : s.mode = .plain) (hw : s.word = some w) (cut : Bool)
    (v : List UInt8) :
    ShellWords.lexFrom s (addedData cut (leftBracket :: (v ++ [rightBracket]))) =
        some (s.words ++ [w ++ v]) ↔
      leftBracket ∉ v ∧ rightBracket ∉ v ∧ ShellWords.quote ∉ v ∧
        (cut = true → ShellWords.newline ∉ v) := by
  have hmem : ShellWords.newline ∈ leftBracket :: (v ++ [rightBracket]) ↔
      ShellWords.newline ∈ v := by
    have hl : ShellWords.newline ≠ leftBracket := by decide
    have hr : ShellWords.newline ≠ rightBracket := by decide
    simp [hl, hr]
  by_cases hcut : cut = true → ShellWords.newline ∉ v
  · have hadded : addedData cut (leftBracket :: (v ++ [rightBracket])) =
        quoteBrackets (leftBracket :: (v ++ [rightBracket])) :=
      addedData_of_not_mem fun hc => hmem.not.mpr (hcut hc)
    have hlen : v.length = (quoteBrackets v).length := by
      rw [quoteBrackets_eq_map, List.length_map]
    rw [hadded, quoteBrackets_enclosed, ShellWords.lexFrom_quoted_iff hm hw _ _ hlen]
    constructor
    · rintro ⟨hq, hself⟩
      obtain ⟨hl, hr⟩ := (quoteBrackets_eq_self_iff v).mp hself.symm
      rw [← hself] at hq
      exact ⟨hl, hr, hq, hcut⟩
    · rintro ⟨hl, hr, hq, -⟩
      have hself := (quoteBrackets_eq_self_iff v).mpr ⟨hl, hr⟩
      rw [hself]
      exact ⟨hq, rfl⟩
  · -- the closing quote is cut off, and at least one byte of the value with it
    refine iff_of_false (fun h => ?_) fun h => hcut h.2.2.2
    obtain ⟨rfl, hn⟩ := Classical.not_imp.mp hcut
    have hn := not_not.mp hn
    have hlt := length_untilNewline_lt ((newline_mem_quoteBrackets v).mpr hn)
    rw [addedData_enclosed_cut hn] at h
    have hle := ShellWords.length_lt_of_quote hm hw h
    rw [quoteBrackets_eq_map, List.length_map] at hlt
    rw [quoteBrackets_eq_map] at hle
    omega

/-- Any other value is a word when it is plain. -/
theorem bare_word_iff (hm : s.mode = .plain) (hw : s.word = some w) (cut : Bool) (v : List UInt8) :
    ShellWords.lexFrom s (addedData cut v) = some (s.words ++ [w ++ v]) ↔ PlainValue v := by
  have hlen : (quoteBrackets v).length = v.length := by
    rw [quoteBrackets_eq_map, List.length_map]
  constructor
  · intro h
    obtain ⟨t, ht, hsize, hle⟩ := ShellWords.lexFrom_length_le hm hw h
    -- a cut would lose bytes, and a bracket would leave a quote that adds none
    have hcut : cut = true → ShellWords.newline ∉ v := by
      rintro rfl hn
      have := length_addedData_lt hn
      omega
    rw [addedData_of_not_mem hcut] at ht
    have hplain := ShellWords.plain_of_size hm ht (by rw [hsize, hlen])
    intro c hc
    have hq := hplain (quoteBracket c) (by rw [quoteBrackets_eq_map]; exact List.mem_map_of_mem hc)
    by_cases hbr : c = leftBracket ∨ c = rightBracket
    · rw [quoteBracket, if_pos hbr] at hq
      exact absurd hq (by decide)
    · rw [quoteBracket, if_neg hbr] at hq
      exact ⟨hq, not_or.mp hbr⟩
  · intro hv
    have hn : ShellWords.newline ∉ v := fun hn => absurd (hv _ hn).1 (by decide)
    have hself : quoteBrackets v = v :=
      (quoteBrackets_eq_self_iff v).mpr ⟨fun h => (hv _ h).2.1 rfl, fun h => (hv _ h).2.2 rfl⟩
    rw [addedData_of_not_mem fun _ => hn, hself, ShellWords.lexFrom_plain_iff hm hw]
    exact fun c hc => (hv c hc).1

/-- **The word that is added is the value without its brackets exactly when the
value is plain or properly bracketed.** -/
theorem value_word_iff (hm : s.mode = .plain) (hw : s.word = some w) (cut : Bool) (v : List UInt8) :
    ShellWords.lexFrom s (addedData cut v) = some (s.words ++ [w ++ unbracket v]) ↔
      PlainValue v ∨ BracketedValue cut v := by
  rcases unbracket_cases v with ⟨x, rfl⟩ | ⟨hself, hno⟩
  · rw [unbracket_enclosed, enclosed_word_iff hm hw]
    constructor
    · exact fun h => Or.inr ⟨x, rfl, h⟩
    · rintro (hplain | ⟨y, hy, h⟩)
      · exact absurd rfl (hplain leftBracket List.mem_cons_self).2.1
      · obtain rfl : x = y := by simpa using hy
        exact h
  · rw [hself, bare_word_iff hm hw, or_iff_left (hno cut)]

end Word

/-! ## The lines that are run -/

/-- What a handler's line starts with. -/
def Setting.mainCommand (s : Setting) : String := "uci set " ++ s.option ++ "="

/-- The shell has read two words and the option when it comes to the value. -/
theorem mainCommand_lexed (s : Setting) :
    (CStrings.lit s.mainCommand).foldlM ShellWords.step ⟨.plain, [], none⟩ =
      some ⟨.plain, [CStrings.lit "uci", CStrings.lit "set"],
        some (CStrings.lit s.option ++ [equals])⟩ := by
  cases s <;> decide +kernel

theorem length_mainCommand (s : Setting) :
    (CStrings.lit s.mainCommand).length = "uci set ".length + s.option.length + 1 := by
  rw [CStrings.lit, List.length_map, String.length_toList, Setting.mainCommand,
    String.length_append, String.length_append]
  rfl

/-- What is added has the value's length when the value is harmless. -/
theorem length_addedData {cut : Bool} {v : List UInt8} (h : PlainValue v ∨ BracketedValue cut v) :
    (addedData cut v).length = v.length := by
  have hn : cut = true → ShellWords.newline ∉ v := by
    intro hcut hn
    rcases h with hplain | ⟨w, rfl, -, -, -, hw⟩
    · exact absurd (hplain _ hn).1 (by decide)
    · have hl : ShellWords.newline ≠ leftBracket := by decide
      have hr : ShellWords.newline ≠ rightBracket := by decide
      exact hw hcut (by simpa [hl, hr] using hn)
  rw [addedData_of_not_mem hn, quoteBrackets_eq_map, List.length_map]

/-- The line a handler builds, if it fits, is as it should be. -/
theorem buildCommand_words_iff (s : Setting) (cut : Bool) (v : List UInt8) :
    (∃ line, buildCommand s.mainCommand cut v = some line ∧ ShellWords.words line =
        some [CStrings.lit "uci", CStrings.lit "set",
          CStrings.lit s.option ++ equals :: unbracket v]) ↔
      "uci set ".length + s.option.length + 1 + v.length < 128 ∧
        (PlainValue v ∨ BracketedValue cut v) := by
  have hwords : ShellWords.words (CStrings.lit s.mainCommand ++ addedData cut v) =
        some [CStrings.lit "uci", CStrings.lit "set",
          CStrings.lit s.option ++ equals :: unbracket v] ↔
      PlainValue v ∨ BracketedValue cut v := by
    rw [ShellWords.words, ShellWords.lexFrom_append (mainCommand_lexed s),
      ← value_word_iff (s := ⟨.plain, [CStrings.lit "uci", CStrings.lit "set"],
        some (CStrings.lit s.option ++ [equals])⟩) rfl rfl cut v]
    simp
  unfold buildCommand appendCommand
  rw [length_mainCommand]
  constructor
  · rintro ⟨line, hline, h⟩
    obtain ⟨hlt, hsome⟩ := Option.ite_none_right_eq_some.mp hline
    obtain rfl := Option.some.inj hsome
    have hv := hwords.mp h
    rw [length_addedData hv] at hlt
    exact ⟨hlt, hv⟩
  · rintro ⟨hlt, hv⟩
    rw [← length_addedData hv] at hlt
    exact ⟨_, if_pos hlt, hwords.mpr hv⟩

/-- What is run when a line is built: that line and no other, and nothing at all
when it does not fit. -/
def RunsLine (run : Option (List Popen)) (line : Option (List UInt8)) : Prop :=
  match line with
  | none => run = none
  | some line => ∃ popens, run = some popens ∧ ∀ l, .built l ∈ popens ↔ l = line

theorem RunsLine.iff {run : Option (List Popen)} {line : Option (List UInt8)}
    (h : RunsLine run line) (p : List UInt8 → Prop) :
    (∃ popens, run = some popens ∧ ∀ l, .built l ∈ popens → p l) ↔ ∃ l, line = some l ∧ p l := by
  cases line with
  | none =>
    rw [show run = none from h]
    simp
  | some l =>
    obtain ⟨popens, hrun, hl⟩ := h
    rw [hrun]
    simp [hl]

/-- Quoting the value again changes nothing, so every round runs the same line. -/
theorem setIpLoop_runsLine (n : Nat) (v : List UInt8) :
    RunsLine (setIpLoop (n + 1) v) (buildCommand "uci set network.lan.ipaddr=" true v) := by
  induction n generalizing v with
  | zero =>
    unfold setIpLoop
    cases hline : buildCommand "uci set network.lan.ipaddr=" true v <;> simp [RunsLine, setIpLoop]
  | succ n ih =>
    have hagain : buildCommand "uci set network.lan.ipaddr=" true (quoteBrackets v) =
        buildCommand "uci set network.lan.ipaddr=" true v := by
      rw [buildCommand, buildCommand, addedData, addedData, quoteBrackets_idem]
    have hrest := ih (quoteBrackets v)
    rw [hagain] at hrest
    unfold setIpLoop
    cases hline : buildCommand "uci set network.lan.ipaddr=" true v with
    | none => rfl
    | some line =>
      rw [hline] at hrest
      obtain ⟨popens, hrun, hl⟩ := hrest
      rw [hrun]
      exact ⟨_, rfl, by simp [hl]⟩

theorem setUnlessEmpty_runsLine {mainCommand : String} {cut : Bool} {after : List Popen}
    {value v : List UInt8} (hafter : ∀ l, .built l ∉ after)
    (hv : CStrings.field? value = some v) (hne : v ≠ []) :
    RunsLine (setUnlessEmpty mainCommand cut after value) (buildCommand mainCommand cut v) := by
  have hpos : v.length > 0 := List.length_pos_iff.mpr hne
  unfold setUnlessEmpty
  rw [hv]
  cases hline : buildCommand mainCommand cut v <;> simp [RunsLine, hpos, hline, hafter]

/-- The line of each handler that builds one. -/
theorem run_runsLine {s : Setting} {env : ShellEnv} {value v : List UInt8}
    (hv : CStrings.field? value = some v) (hh : s.hands env v) :
    RunsLine (s.run env value) (buildCommand s.mainCommand (s.cuts env) v) := by
  cases s with
  | ipaddress =>
    obtain ⟨n, hn⟩ := Nat.exists_eq_succ_of_ne_zero hh
    have hloop := setIpLoop_runsLine n v
    have hrun : Setting.run env .ipaddress value = (setIpLoop (n + 1) v).bind fun popens =>
        some (.fixed "uci show network.lan.proto" :: popens) := by
      simp [Setting.run, runSetIp, hn, hv]
    rw [hrun]
    change RunsLine _ (buildCommand "uci set network.lan.ipaddr=" true v)
    cases hline : buildCommand "uci set network.lan.ipaddr=" true v with
    | none =>
      rw [hline] at hloop
      rw [show setIpLoop (n + 1) v = none from hloop]
      rfl
    | some line =>
      rw [hline] at hloop
      obtain ⟨popens, hpopens, hl⟩ := hloop
      rw [hpopens]
      exact ⟨_, rfl, by simp [hl]⟩
  | netmask =>
    change RunsLine (runSetMask value) (buildCommand "uci set network.lan.netmask=" true v)
    unfold runSetMask
    rw [hv]
    cases hline : buildCommand "uci set network.lan.netmask=" true v <;> simp [RunsLine, hline]
  | gateway =>
    change RunsLine (runSetGate value) (buildCommand "uci set network.lan.gateway=" true v)
    have hvalid : checkGateWayValid v = 0 := hh
    unfold runSetGate
    rw [hv]
    cases hline : buildCommand "uci set network.lan.gateway=" true v <;>
      simp [RunsLine, hline, hvalid]
  | systemName => exact setUnlessEmpty_runsLine (by simp) hv hh
  | systemLocation => exact setUnlessEmpty_runsLine (by simp) hv hh
  | snmpState => exact setUnlessEmpty_runsLine (by simp) hv hh

/-- A value that is not terminated in its array is read beyond it. -/
theorem run_of_unterminated {s : Setting} {env : ShellEnv} {value : List UInt8}
    (hr : s.reads env) (hv : CStrings.field? value = none) : s.run env value = none := by
  cases s with
  | ipaddress =>
    obtain ⟨n, hn⟩ := Nat.exists_eq_succ_of_ne_zero hr
    simp [Setting.run, runSetIp, hn, hv]
  | netmask => simp [Setting.run, runSetMask, hv]
  | gateway => simp [Setting.run, runSetGate, hv]
  | systemName => simp [Setting.run, runSetDescription, setUnlessEmpty, hv]
  | systemLocation => simp [Setting.run, runSetLocation, setUnlessEmpty, hv]
  | snmpState => simp [Setting.run, runSetSnmp, setUnlessEmpty, hv]

/-- Without a line built from the value, only fixed lines are run. -/
theorem run_of_not_hands {s : Setting} {env : ShellEnv} {value v : List UInt8}
    (hv : s.reads env → CStrings.field? value = some v) (hh : ¬ s.hands env v) :
    ∃ popens, s.run env value = some popens ∧ ∀ l, .built l ∉ popens := by
  have hempty : ∀ (mainCommand : String) (cut : Bool) (after : List Popen), v = [] →
      CStrings.field? value = some v → setUnlessEmpty mainCommand cut after value = some [] := by
    intro mainCommand cut after hnil hfield
    simp [setUnlessEmpty, hfield, hnil]
  cases s with
  | ipaddress =>
    have hn : env.protoLines = 0 := not_not.mp hh
    exact ⟨[.fixed "uci show network.lan.proto"], by simp [Setting.run, runSetIp, hn], by simp⟩
  | netmask => exact absurd trivial hh
  | gateway =>
    have hvalid : ¬ checkGateWayValid v = 0 := hh
    refine ⟨[.fixed "uci del network.lan.gateway", .fixed "uci commit network"], ?_, by simp⟩
    simp [Setting.run, runSetGate, hv trivial, hvalid]
  | systemName => exact ⟨[], hempty _ _ _ (not_not.mp hh) (hv trivial), by simp⟩
  | systemLocation => exact ⟨[], hempty _ _ _ (not_not.mp hh) (hv trivial), by simp⟩
  | snmpState => exact ⟨[], hempty _ _ _ (not_not.mp hh) (hv trivial), by simp⟩

theorem reads_of_hands {s : Setting} {env : ShellEnv} {v : List UInt8} (h : s.hands env v) :
    s.reads env := by
  cases s with
  | ipaddress => exact h
  | _ => trivial

/-- **No part of a value becomes shell syntax exactly when the value is
harmless.**  A value the handler does not put on a command line is harmless as
long as it ends inside its array; the others must fit the command line and be
plain, or be enclosed in brackets with no further bracket and no quote, and no
newline if it is cut off there. -/
theorem value_words_iff (s : Setting) (env : ShellEnv) (v : ValueText) :
    NoShellSyntax s env v.bytes ↔ Harmless s env v.bytes := by
  have hfield := CStrings.field?_strncpy v.zero_not_mem settingsValueLength
  by_cases hread : s.reads env ∧ ¬ v.bytes.length < settingsValueLength
  · obtain ⟨hr, hlen⟩ := hread
    rw [if_neg hlen] at hfield
    refine iff_of_false ?_ fun h => hlen (h hr).1
    rintro ⟨popens, hrun, -⟩
    rw [run_of_unterminated hr hfield] at hrun
    cases hrun
  · have hlen : s.reads env → v.bytes.length < settingsValueLength := fun hr =>
      not_not.mp fun h => hread ⟨hr, h⟩
    have hv : s.reads env → CStrings.field? (CStrings.strncpy settingsValueLength v.bytes) =
        some v.bytes := fun hr => hfield.trans (if_pos (hlen hr))
    by_cases hh : s.hands env v.bytes
    · have hr := reads_of_hands hh
      rw [NoShellSyntax, (run_runsLine (hv hr) hh).iff, buildCommand_words_iff, Harmless]
      exact ⟨fun h _ => ⟨hlen hr, fun _ => h⟩, fun h => (h hr).2 hh⟩
    · obtain ⟨popens, hrun, hno⟩ := run_of_not_hands hv hh
      refine iff_of_true ⟨popens, hrun, fun l hl => absurd hl (hno l)⟩ fun hr => ⟨hlen hr, ?_⟩
      exact fun h => absurd h hh

/-- A quote in the value ends the quotation, and what follows is run. -/
theorem quote_in_name_runs_reboot :
    Setting.run ⟨1, false⟩ .systemName
        (CStrings.strncpy settingsValueLength (CStrings.lit "[a';reboot;']")) =
      some [.built (CStrings.lit "uci set system.@system[0].description='a';reboot;''"),
        .fixed "uci commit system"] ∧
      ¬ NoShellSyntax .systemName ⟨1, false⟩ (CStrings.lit "[a';reboot;']") := by
  have hfield : CStrings.field? (CStrings.strncpy settingsValueLength
      (CStrings.lit "[a';reboot;']")) = some (CStrings.lit "[a';reboot;']") := by
    rw [CStrings.field?_strncpy (by simp [CStrings.lit]), if_pos]
    simp [CStrings.lit, settingsValueLength]
  have hline : buildCommand "uci set system.@system[0].description=" true
      (CStrings.lit "[a';reboot;']") =
      some (CStrings.lit "uci set system.@system[0].description='a';reboot;''") := by
    simp [CStrings.lit, buildCommand, appendCommand, addedData, untilNewline, quoteBrackets,
      replaceSymbols, leftBracket, rightBracket, ShellWords.quote, ShellWords.newline]
  have hrun : Setting.run ⟨1, false⟩ .systemName
        (CStrings.strncpy settingsValueLength (CStrings.lit "[a';reboot;']")) =
      some [.built (CStrings.lit "uci set system.@system[0].description='a';reboot;''"),
        .fixed "uci commit system"] := by
    have hpos : 0 < (CStrings.lit "[a';reboot;']").length := by simp [CStrings.lit]
    rw [Setting.run, runSetDescription, Bool.not_false, setUnlessEmpty, hfield]
    simp only [Option.bind_eq_bind, Option.bind_some, gt_iff_lt, hpos, if_true, hline]
  refine ⟨hrun, ?_⟩
  rintro ⟨popens, hpopens, hwords⟩
  obtain rfl := Option.some.inj (hrun.symm.trans hpopens)
  have hnone : ShellWords.words
      (CStrings.lit "uci set system.@system[0].description='a';reboot;''") = none := by
    decide +kernel
  have hsome := hwords _ List.mem_cons_self
  rw [hnone] at hsome
  cases hsome

end TfPackages.Dm
