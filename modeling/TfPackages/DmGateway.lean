import TfPackages.DmSettingsShell

/-! # Setting and removing the gateway

The manager sends the gateway as `[a.b.c.d]`, and `[255.255.255.255]` when there
is none.  `checkGateWayValid` counts the octets that are 255, and `runSetGate`
removes the option as soon as the count is not zero.

`checkGateWayValid_value` is the count for any address; the main theorem says for
which addresses the handler does what is asked.
-/
namespace TfPackages.Dm

/-- A decimal octet: one to three digits, and at most 255. -/
structure Octet where
  text : List UInt8
  ne_nil : text ≠ []
  digits : ∀ c ∈ text, 0x30 ≤ c ∧ c ≤ 0x39
  length_le : text.length ≤ 3
  value_le : CStrings.decimal text ≤ 255

/-- The number an octet stands for. -/
def Octet.value (o : Octet) : Nat := CStrings.decimal o.text

/-- An address `a.b.c.d`. -/
structure Address where
  a : Octet
  b : Octet
  c : Octet
  d : Octet

def Address.octets (x : Address) : List Octet := [x.a, x.b, x.c, x.d]

/-- `a.b.c.d` -/
def Address.text (x : Address) : List UInt8 :=
  x.a.text ++ dot :: (x.b.text ++ dot :: (x.c.text ++ dot :: x.d.text))

/-- `[a.b.c.d]` -/
def Address.value (x : Address) : List UInt8 := leftBracket :: (x.text ++ [rightBracket])

/-- `255.255.255.255`, which stands for no gateway. -/
def Address.NoGateway (x : Address) : Prop := ∀ o ∈ x.octets, o.value = 255

/-- The handler sets the option to the address. -/
def SetsGateway (x : Address) (run : Option (List Popen)) : Prop :=
  ∃ line, run = some [.built line, .fixed "uci commit network"] ∧
    ShellWords.words line = some [CStrings.lit "uci", CStrings.lit "set",
      CStrings.lit "network.lan.gateway" ++ equals :: x.text]

/-- The handler deletes the option. -/
def RemovesGateway (run : Option (List Popen)) : Prop :=
  run = some [.fixed "uci del network.lan.gateway", .fixed "uci commit network"]

/-- **An address is set, and only "no gateway" removes the option.** -/
def GatewayHandled (x : Address) : Prop :=
  (x.NoGateway → RemovesGateway (runSetGate (CStrings.strncpy settingsValueLength x.value))) ∧
    (¬ x.NoGateway → SetsGateway x (runSetGate (CStrings.strncpy settingsValueLength x.value)))

/-! ## The count -/

theorem Octet.not_mem (o : Octet) {c : UInt8} (hc : ¬ (0x30 ≤ c ∧ c ≤ 0x39)) : c ∉ o.text :=
  fun h => hc (o.digits c h)

/-- `atoi` reads an octet as its number. -/
theorem Octet.atoi_text (o : Octet) : CStrings.atoi o.text = o.value := by
  obtain ⟨c, t, htext⟩ := List.exists_cons_of_ne_nil o.ne_nil
  have hc := o.digits c (by rw [htext]; exact List.mem_cons_self)
  simp only [UInt8.le_iff_toNat_le, UInt8.reduceToNat] at hc
  have hdrop : (c :: t).dropWhile (fun c => c = 0x20 || (0x09 ≤ c && c ≤ 0x0d)) = c :: t := by
    refine List.dropWhile_cons_of_neg ?_
    simp only [← UInt8.toNat_inj, UInt8.le_iff_toNat_le, UInt8.reduceToNat, Bool.or_eq_true,
      Bool.and_eq_true, decide_eq_true_eq]
    omega
  have hdigits : (c :: t).takeWhile (fun c => 0x30 ≤ c && c ≤ 0x39) = c :: t := by
    rw [← htext]
    exact List.takeWhile_eq_self_iff.mpr fun c hc => by simpa using o.digits c hc
  have hle := o.value_le
  unfold CStrings.atoi Octet.value
  rw [htext] at hle ⊢
  simp only [hdrop]
  split
  · rename_i heq
    rw [List.cons.injEq] at heq
    rw [heq.1] at hc
    exact absurd hc (by decide)
  · rename_i heq
    rw [List.cons.injEq] at heq
    rw [heq.1] at hc
    exact absurd hc (by decide)
  · rw [hdigits]
    omega

/-- The line that is split has the octets with blanks around them. -/
theorem tokens_value (x : Address) :
    CStrings.tokens space (replaceSymbols (replaceSymbols (replaceSymbols x.value dot space)
      leftBracket space) rightBracket space) = x.octets.map Octet.text := by
  have hoctet : ∀ (o : Octet) (c : UInt8), ¬ (0x30 ≤ c ∧ c ≤ 0x39) →
      replaceSymbols o.text c space = o.text :=
    fun o c hc => replaceSymbols_of_not_mem (o.not_mem hc) _
  have hdot : ∀ o : Octet, replaceSymbols o.text dot space = o.text :=
    fun o => hoctet o _ (by decide)
  have hleft : ∀ o : Octet, replaceSymbols o.text leftBracket space = o.text :=
    fun o => hoctet o _ (by decide)
  have hright : ∀ o : Octet, replaceSymbols o.text rightBracket space = o.text :=
    fun o => hoctet o _ (by decide)
  have hline : replaceSymbols (replaceSymbols (replaceSymbols x.value dot space)
      leftBracket space) rightBracket space = [] ++ space :: (x.a.text ++ space :: (x.b.text ++
        space :: (x.c.text ++ space :: (x.d.text ++ space :: [])))) := by
    have hl : leftBracket ≠ dot := by decide
    have hr : rightBracket ≠ dot ∧ rightBracket ≠ leftBracket := by decide
    have hs : space ≠ leftBracket ∧ space ≠ rightBracket := by decide
    simp only [Address.value, Address.text, replaceSymbols_append, replaceSymbols_cons, hdot, hleft,
      hright, hl, hr, hs, if_true, if_false, List.append_assoc, List.cons_append, List.nil_append]
    rfl
  have hone : ∀ o : Octet, CStrings.tokens space o.text = [o.text] :=
    fun o => CStrings.tokens_of_not_mem (o.not_mem (by decide)) o.ne_nil
  have hnil : CStrings.tokens space [] = [] := rfl
  rw [hline, CStrings.tokens_append_delim, CStrings.tokens_append_delim,
    CStrings.tokens_append_delim, CStrings.tokens_append_delim, CStrings.tokens_append_delim]
  simp only [hone, hnil]
  rfl

/-- **The count is the number of octets that are 255.** -/
theorem checkGateWayValid_value (x : Address) :
    checkGateWayValid x.value = (x.octets.filter fun o => o.value = 255).length := by
  have hmax : (splitTokens (x.octets.map Octet.text)).splitLineMax = 3 := by
    rw [splitTokens_splitLineMax, List.length_map]
    show UInt8.ofNat 4 - 1 = 3
    decide
  have hslots : (splitTokens (x.octets.map Octet.text)).slots =
      [.token 0 x.a.text, .token 1 x.b.text, .token 2 x.c.text, .token 3 x.d.text] := by
    have hrange : List.range ((3 : UInt8).toNat + 1) = [0, 1, 2, 3] := by decide
    rw [SplitedLine.slots, hmax, hrange]
    rfl
  simp only [checkGateWayValid, splitLine, tokens_value, hslots, hmax, ne_eq, not_true_eq_false,
    if_false]
  have hread : ∀ o : Octet, decide (CStrings.atoi o.text = 0xff) = decide (o.value = 255) := by
    intro o
    rw [o.atoi_text, decide_eq_decide]
    omega
  simp only [Address.octets, List.filter_cons, hread, List.filter_nil]
  split_ifs <;> rfl

/-! ## The handler -/

/-- A value fits its field, and the handler finds it there. -/
theorem field?_value (x : Address) :
    CStrings.field? (CStrings.strncpy settingsValueLength x.value) = some x.value := by
  have hzero : ∀ o : Octet, (0 : UInt8) ∉ o.text := fun o => o.not_mem (by decide)
  have hno : (0 : UInt8) ∉ x.value := by
    simp only [Address.value, Address.text, List.mem_cons, List.mem_append, hzero, List.not_mem_nil]
    decide
  rw [CStrings.field?_strncpy hno, if_pos]
  have ha := x.a.length_le
  have hb := x.b.length_le
  have hc := x.c.length_le
  have hd := x.d.length_le
  simp only [Address.value, Address.text, List.length_cons, List.length_append, List.length_nil,
    settingsValueLength]
  omega

/-- The command line of an address sets the option to it. -/
theorem buildCommand_value (x : Address) :
    ∃ line, buildCommand "uci set network.lan.gateway=" true x.value = some line ∧
      ShellWords.words line = some [CStrings.lit "uci", CStrings.lit "set",
        CStrings.lit "network.lan.gateway" ++ equals :: x.text] := by
  have hiff := buildCommand_words_iff .gateway true x.value
  have hunbracket : unbracket x.value = x.text := unbracket_enclosed x.text
  rw [hunbracket] at hiff
  refine hiff.mpr ⟨?_, .inr ⟨x.text, rfl, ?_⟩⟩
  · have ha := x.a.length_le
    have hb := x.b.length_le
    have hc := x.c.length_le
    have hd := x.d.length_le
    have hmain : "uci set ".length + Setting.gateway.option.length = 27 := by decide
    simp only [Address.value, Address.text, List.length_cons, List.length_append, List.length_nil]
    omega
  · have hnot : ∀ c, ¬ (0x30 ≤ c ∧ c ≤ 0x39) → c ≠ dot → c ∉ x.text := by
      intro c hc hdot
      simp only [Address.text, List.mem_cons, List.mem_append, x.a.not_mem hc, x.b.not_mem hc,
        x.c.not_mem hc, x.d.not_mem hc, hdot, or_self, not_false_eq_true]
    exact ⟨hnot _ (by decide) (by decide), hnot _ (by decide) (by decide),
      hnot _ (by decide) (by decide), fun _ => hnot _ (by decide) (by decide)⟩

/-- What `runSetGate` does for an address. -/
theorem runSetGate_value (x : Address) :
    if ∃ o ∈ x.octets, o.value = 255 then
      RemovesGateway (runSetGate (CStrings.strncpy settingsValueLength x.value))
    else SetsGateway x (runSetGate (CStrings.strncpy settingsValueLength x.value)) := by
  have hzero : checkGateWayValid x.value = 0 ↔ ¬ ∃ o ∈ x.octets, o.value = 255 := by
    rw [checkGateWayValid_value, List.length_eq_zero_iff, List.filter_eq_nil_iff]
    simp
  split
  · rename_i h
    simp only [RemovesGateway, runSetGate, field?_value, Option.bind_eq_bind, Option.bind_some]
    rw [if_neg fun h0 => hzero.mp h0 h]
  · rename_i h
    obtain ⟨line, hline, hwords⟩ := buildCommand_value x
    refine ⟨line, ?_, hwords⟩
    simp only [runSetGate, field?_value, Option.bind_eq_bind, Option.bind_some]
    rw [if_pos (hzero.mpr h), hline]
    rfl

/-- What sets the option does not delete it. -/
theorem SetsGateway.not_removes {x : Address} {run : Option (List Popen)}
    (h : SetsGateway x run) : ¬ RemovesGateway run := by
  obtain ⟨line, rfl, -⟩ := h
  intro hr
  cases hr

/-- **The gateway is handled as asked exactly if all octets are 255 or none is.** -/
theorem gateway_handled_iff (x : Address) :
    GatewayHandled x ↔ (∀ o ∈ x.octets, o.value = 255) ∨ ∀ o ∈ x.octets, o.value ≠ 255 := by
  have hrun := runSetGate_value x
  have hall : x.NoGateway → ∃ o ∈ x.octets, o.value = 255 :=
    fun h => ⟨x.a, List.mem_cons_self, h _ List.mem_cons_self⟩
  split at hrun
  · rename_i hsome
    constructor
    · rintro ⟨-, hset⟩
      by_contra hnot
      exact (hset fun h => hnot (.inl h)).not_removes hrun
    · rintro (h | h)
      · exact ⟨fun _ => hrun, fun hno => absurd h hno⟩
      · obtain ⟨o, ho, hv⟩ := hsome
        exact absurd hv (h o ho)
  · rename_i hnone
    refine ⟨fun _ => .inr fun o ho hv => hnone ⟨o, ho, hv⟩, fun _ => ?_⟩
    exact ⟨fun h => absurd (hall h) hnone, fun _ => hrun⟩

/-- An octet of one to three digits. -/
def octetOf (text : String) (h : CStrings.lit text ≠ [] ∧
    (CStrings.lit text).all (fun c => 0x30 ≤ c ∧ c ≤ 0x39) = true ∧
    (CStrings.lit text).length ≤ 3 ∧ CStrings.decimal (CStrings.lit text) ≤ 255) : Octet :=
  ⟨CStrings.lit text, h.1, fun c hc => of_decide_eq_true (List.all_eq_true.mp h.2.1 c hc), h.2.2.1,
    h.2.2.2⟩

/-- A gateway at the end of its network is taken for no gateway. -/
theorem single_255_removed :
    ¬ GatewayHandled ⟨octetOf "10" (by decide), octetOf "0" (by decide), octetOf "255" (by decide),
      octetOf "1" (by decide)⟩ := by
  rintro ⟨-, hset⟩
  refine (hset ?_).not_removes ?_
  · intro h
    exact absurd (h _ List.mem_cons_self) (by decide)
  · have hrun := runSetGate_value ⟨octetOf "10" (by decide), octetOf "0" (by decide),
      octetOf "255" (by decide), octetOf "1" (by decide)⟩
    rwa [if_pos ⟨octetOf "255" (by decide), by simp [Address.octets], by decide⟩] at hrun

end TfPackages.Dm
