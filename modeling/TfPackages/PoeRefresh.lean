import TfPackages.PoeLiveness
import TfPackages.PoePolling

/-! # What the bus sees after a poll

`ubus_poe_info_cb` prints the table of port states that the reply handlers have
filled.  A poll asks for every entry of it: the commands go through the queue and
the translation of their ids, may be rejected and repeated, and their replies
come back in pieces to the handlers.  `Reports` says what the controller sends
for each of the four questions, in its own dialect; `Faithful` lets it reject
every command `maxRetries` times before it does.

`Current` is the invariant: every question that has left the queue since the poll
has its answer in the table.  Replies only write what the controller measured, so
an answer that is in the table stays.  `refreshed` puts it together, from the uci
packages to the reply on the bus.
-/
namespace TfPackages.Poe
open CStrings (lit)

/-- `struct state`, as the replies fill it. -/
structure Table where
  sys : SysState
  ports : Nat → PortState

/-- A `struct port_state` that no reply has written to. -/
def PortState.zero : PortState where
  statusStr := none
  status := 0
  watt := 0
  poeMode := none

/-- The table at start-up. -/
def Table.zero : Table where
  sys := ⟨none, 0, none, none, 0, 0, 0⟩
  ports _ := .zero

/-- The writes of a handler to `state.ports`, in order. -/
def writePorts (writes : List (Nat × (PortState → PortState))) (ports : Nat → PortState) :
    Nat → PortState :=
  writes.foldl (fun ports w => Function.update ports w.1 (w.2 (ports w.1))) ports

/-- What a handler does to the table. -/
def Effect.apply (e : Effect) (t : Table) : Table where
  sys := e.sys t.sys
  ports := writePorts e.ports t.ports

/-- The table a list of handled replies leaves. -/
def tableOf (handled : List (ReplyHandler × Frame)) : Table :=
  handled.foldl (fun t h => (h.1.effect h.2).apply t) .zero

/-- `struct state` in a state of the daemon. -/
def State.table (s : State) : Table := tableOf s.handled

/-! ## The reply on the bus -/

/-- One port in the reply to `info`. -/
structure InfoPort where
  name : List UInt8
  priority : UInt8
  mode : Option String
  status : String
  consumption : Option Nat
deriving DecidableEq, Repr

/-- The reply to `info`; powers are in tenths of a watt. -/
structure Info where
  firmware : String
  mcu : Option String
  consumption : Nat
  ports : List InfoPort
deriving DecidableEq, Repr

/-- The loop body of `ubus_poe_info_cb` for a valid port. -/
def infoPort (t : Table) (p : Nat × PortConfig) : InfoPort where
  name := p.2.name
  priority := p.2.priority
  mode := (t.ports p.1).poeMode
  status := (t.ports p.1).statusStr.getD "unknown"
  consumption := if (t.ports p.1).watt ≠ 0 then some (t.ports p.1).watt else none

/-- `ubus_poe_info_cb` -/
def ubusPoeInfoCb (c : Config) (t : Table) : Info where
  firmware := "v" ++ toString t.sys.sysVersion.toNat ++ "." ++ toString t.sys.sysExtVersion.toNat
  mcu := t.sys.sysMcu
  consumption := t.sys.powerConsumption
  ports := (c.counted.filter fun p => p.2.valid).map (infoPort t)

/-! ## The controller -/

/-- What the controller measures. -/
structure Readings where
  power : Nat
  status : Nat → UInt8
  mode : Nat → UInt8
  watt : Nat → Nat

/-- `reply` is the controller's answer to the frame `cmd`: id and sequence number
are repeated, and the questions of a poll are answered with the readings. -/
structure Reports (rd : Readings) (cmd reply : Frame) : Prop where
  checksum : reply.byte 11 = checksum reply
  id : reply.byte 0 = cmd.byte 0
  seq : reply.byte 1 = cmd.byte 1
  power : cmd.byte 0 = 0x41 → read16Be reply 7 = rd.power
  mode : cmd.byte 0 = 0x29 →
    reply.byte 2 = cmd.byte 2 ∧ reply.byte 3 = rd.mode (reply.byte 2).toNat
  status : cmd.byte 0 = 0x43 →
    reply.byte 2 = cmd.byte 2 ∧
      ∀ i < 4, reply.byte (3 + i * 2) = rd.status ((reply.byte 2).toNat * 4 + i)
  watt : cmd.byte 0 = 0x44 →
    reply.byte 2 = cmd.byte 2 ∧ read16Be reply 9 = rd.watt (reply.byte 2).toNat

instance (rd : Readings) (cmd reply : Frame) : Decidable (Reports rd cmd reply) :=
  decidable_of_iff
    (reply.byte 11 = Poe.checksum reply ∧ reply.byte 0 = cmd.byte 0 ∧ reply.byte 1 = cmd.byte 1 ∧
      (cmd.byte 0 = 0x41 → read16Be reply 7 = rd.power) ∧
      (cmd.byte 0 = 0x29 →
        reply.byte 2 = cmd.byte 2 ∧ reply.byte 3 = rd.mode (reply.byte 2).toNat) ∧
      (cmd.byte 0 = 0x43 → reply.byte 2 = cmd.byte 2 ∧
        ∀ i < 4, reply.byte (3 + i * 2) = rd.status ((reply.byte 2).toNat * 4 + i)) ∧
      (cmd.byte 0 = 0x44 →
        reply.byte 2 = cmd.byte 2 ∧ read16Be reply 9 = rd.watt (reply.byte 2).toNat))
    ⟨fun h => ⟨h.1, h.2.1, h.2.2.1, h.2.2.2.1, h.2.2.2.2.1, h.2.2.2.2.2.1, h.2.2.2.2.2.2⟩,
      fun h => ⟨h.checksum, h.id, h.seq, h.power, h.mode, h.status, h.watt⟩⟩

/-- `reply` rejects the command `c`, which may be repeated. -/
def Rejects (c : Cmd) (reply : Frame) : Prop :=
  reply.byte 11 = checksum reply ∧ reply.byte 0 &&& 0xf0 = 0xf0 ∧ c.numRetries < maxRetries

instance (c : Cmd) (reply : Frame) : Decidable (Rejects c reply) := by
  unfold Rejects
  infer_instance

/-- The controller answers the first command with the readings or rejects it. -/
def Faithful (rd : Readings) (s : State) : Event → Prop
  | .receive bytes =>
    12 ≤ (s.readBuf ++ bytes).length → ∀ c ∈ s.cmdPending.head?,
      Reports rd c.cmd (firstReply (s.readBuf ++ bytes)) ∨
        Rejects c (firstReply (s.readBuf ++ bytes))
  | _ => True

instance (rd : Readings) (s : State) (e : Event) : Decidable (Faithful rd s e) :=
  match e with
  | .receive bytes =>
    let reply := firstReply (s.readBuf ++ bytes)
    decidable_of_iff
      (12 ≤ (s.readBuf ++ bytes).length → (s.cmdPending.head?.all fun c =>
        decide (Reports rd c.cmd reply) || decide (Rejects c reply)) = true) (by
      rw [Option.all_eq_true]
      simp only [Bool.or_eq_true, decide_eq_true_eq]
      exact Iff.rfl)
  | .queue _ | .expire => isTrue trivial

/-! ## The fields of the table -/

/-- `mode`, in `poe_reply_port_ext_config`. -/
def modeNames : List String := ["PoE", "Legacy", "pre-PoE+", "PoE+"]

/-- The table has the reading of the whole consumption. -/
def ShowsPower (rd : Readings) (t : Table) : Prop := t.sys.powerConsumption = rd.power

/-- An entry has the reading of the mode of port `j`. -/
def ShowsMode (rd : Readings) (j : Nat) (p : PortState) : Prop :=
  p.poeMode = getStr (rd.mode j) modeNames

/-- An entry has the reading of the status of port `j`. -/
def ShowsStatus (rd : Readings) (j : Nat) (p : PortState) : Prop :=
  p.status = rd.status j &&& 0xf ∧ p.statusStr = getStr (rd.status j &&& 0xf) statusNames

/-- An entry has the reading of the power of port `j`. -/
def ShowsWatt (rd : Readings) (j : Nat) (p : PortState) : Prop := p.watt = rd.watt j

/-- What a list of writes does to one entry: a property that all writes to the
entry keep holds if it held before or if one of them brings it about. -/
theorem writePorts_property {P : PortState → Prop} {j : Nat}
    {writes : List (Nat × (PortState → PortState))} {ports : Nat → PortState}
    (hkeep : ∀ w ∈ writes, w.1 = j → ∀ p, P p → P (w.2 p))
    (h : P (ports j) ∨ ∃ w ∈ writes, w.1 = j ∧ ∀ p, P (w.2 p)) :
    P (writePorts writes ports j) := by
  induction writes generalizing ports with
  | nil =>
    rcases h with h | ⟨w, hw, -⟩
    · exact h
    · exact absurd hw List.not_mem_nil
  | cons w ws ih =>
    rw [writePorts, List.foldl_cons]
    refine ih (fun v hv => hkeep v (List.mem_cons_of_mem _ hv)) ?_
    by_cases hj : w.1 = j
    · subst hj
      rcases h with h | ⟨v, hv, hvj, hset⟩
      · left
        rw [Function.update_self]
        exact hkeep w List.mem_cons_self rfl _ h
      · rcases List.mem_cons.mp hv with rfl | hv
        · left
          rw [Function.update_self]
          exact hset _
        · exact Or.inr ⟨v, hv, hvj, hset⟩
    · rcases h with h | ⟨v, hv, hvj, hset⟩
      · left
        rwa [Function.update_of_ne (Ne.symm hj)]
      · rcases List.mem_cons.mp hv with rfl | hv
        · exact absurd hvj hj
        · exact Or.inr ⟨v, hv, hvj, hset⟩

/-- The write of `poe_reply_4_port_status` to one port. -/
def PortState.withStatus (pstate : UInt8) (p : PortState) : PortState :=
  { p with
    statusStr := getStr (pstate &&& 0xf) statusNames
    status := pstate &&& 0xf }

/-- The writes of `poe_reply_4_port_status`. -/
theorem mem_fourPortLoop {reply : Frame} {is : List Nat} {w : Nat × (PortState → PortState)}
    (hw : w ∈ fourPortLoop reply is) :
    ∃ i ∈ is, w = ((reply.byte 2).toNat * 4 + i, PortState.withStatus (reply.byte (3 + i * 2))) := by
  induction is with
  | nil => exact absurd hw List.not_mem_nil
  | cons i is ih =>
    unfold fourPortLoop at hw
    dsimp only at hw
    split at hw
    · obtain ⟨k, hk, heq⟩ := ih hw
      exact ⟨k, List.mem_cons_of_mem _ hk, heq⟩
    split at hw
    · exact absurd hw List.not_mem_nil
    · rcases List.mem_cons.mp hw with rfl | hw
      · exact ⟨i, List.mem_cons_self, rfl⟩
      · obtain ⟨k, hk, heq⟩ := ih hw
        exact ⟨k, List.mem_cons_of_mem _ hk, heq⟩

/-- Every existing port of the group is written. -/
theorem fourPortLoop_mem {reply : Frame} {is : List Nat} (his : is.Pairwise (· < ·)) {i : Nat}
    (hi : i ∈ is) (hlt : (reply.byte 2).toNat * 4 + i < maxPort) :
    ((reply.byte 2).toNat * 4 + i, PortState.withStatus (reply.byte (3 + i * 2))) ∈
      fourPortLoop reply is := by
  have h24 : maxPort = 24 := rfl
  induction is with
  | nil => exact absurd hi List.not_mem_nil
  | cons k ks ih =>
    obtain ⟨hk, hks⟩ := List.pairwise_cons.mp his
    unfold fourPortLoop
    dsimp only
    rcases List.mem_cons.mp hi with rfl | hi
    · rw [if_neg (by omega), if_neg (by omega)]
      exact List.mem_cons_self
    · -- the loop has not ended at an earlier port, which is smaller
      have := hk i hi
      rw [if_neg (by omega), if_neg (by omega)]
      exact List.mem_cons_of_mem _ (ih hks hi)

/-! ## Replies that tell the truth -/

/-- A handled reply carries the readings. -/
def Truthful (rd : Readings) : ReplyHandler × Frame → Prop
  | (.poeReplyStatus, _) => True
  | (.poeReplyPowerStats, f) => read16Be f 7 = rd.power
  | (.poeReplyPortExtConfig, f) => f.byte 3 = rd.mode (f.byte 2).toNat
  | (.poeReply4PortStatus, f) =>
    ∀ i < 4, f.byte (3 + i * 2) = rd.status ((f.byte 2).toNat * 4 + i)
  | (.poeReplyPortPowerStats, f) => read16Be f 9 = rd.watt (f.byte 2).toNat

/-- The table after one more reply. -/
def Table.after (t : Table) (h : ReplyHandler × Frame) : Table := (h.1.effect h.2).apply t

variable {rd : Readings} {t : Table}

theorem ShowsPower.after {h : ReplyHandler × Frame} (ht : Truthful rd h)
    (hs : ShowsPower rd t ∨ h.1 = .poeReplyPowerStats) : ShowsPower rd (t.after h) := by
  obtain ⟨hd, f⟩ := h
  cases hd with
  | poeReplyPowerStats => exact ht
  | poeReplyStatus => exact hs.resolve_right (fun hc => by cases hc)
  | poeReplyPortExtConfig => exact hs.resolve_right (fun hc => by cases hc)
  | poeReply4PortStatus => exact hs.resolve_right (fun hc => by cases hc)
  | poeReplyPortPowerStats => exact hs.resolve_right (fun hc => by cases hc)

theorem ShowsMode.after {h : ReplyHandler × Frame} {j : Nat} (ht : Truthful rd h)
    (hs : ShowsMode rd j (t.ports j) ∨ h.1 = .poeReplyPortExtConfig ∧ (h.2.byte 2).toNat = j) :
    ShowsMode rd j ((t.after h).ports j) := by
  obtain ⟨hd, f⟩ := h
  refine writePorts_property ?_ ?_
  · intro w hw hwj p hp
    cases hd with
    | poeReplyStatus => exact absurd hw List.not_mem_nil
    | poeReplyPowerStats => exact absurd hw List.not_mem_nil
    | poeReplyPortExtConfig =>
      obtain rfl := List.mem_singleton.mp hw
      subst hwj
      exact congrArg (getStr · modeNames) ht
    | poeReply4PortStatus =>
      obtain ⟨i, -, rfl⟩ := mem_fourPortLoop hw
      exact hp
    | poeReplyPortPowerStats =>
      obtain rfl := List.mem_singleton.mp hw
      exact hp
  · refine hs.imp_right ?_
    rintro ⟨rfl, hj⟩
    refine ⟨_, List.mem_singleton.mpr rfl, hj, fun p => ?_⟩
    subst hj
    exact congrArg (getStr · modeNames) ht

theorem ShowsStatus.after {h : ReplyHandler × Frame} {j : Nat} (ht : Truthful rd h)
    (hs : ShowsStatus rd j (t.ports j) ∨
      h.1 = .poeReply4PortStatus ∧ ∃ i < 4, (h.2.byte 2).toNat * 4 + i = j ∧ j < maxPort) :
    ShowsStatus rd j ((t.after h).ports j) := by
  obtain ⟨hd, f⟩ := h
  have hset : hd = .poeReply4PortStatus → ∀ i < 4, (f.byte 2).toNat * 4 + i = j → ∀ p,
      ShowsStatus rd j (PortState.withStatus (f.byte (3 + i * 2)) p) := by
    rintro rfl i hi rfl p
    rw [ht i hi]
    exact ⟨rfl, rfl⟩
  refine writePorts_property ?_ ?_
  · intro w hw hwj p hp
    cases hd with
    | poeReplyStatus => exact absurd hw List.not_mem_nil
    | poeReplyPowerStats => exact absurd hw List.not_mem_nil
    | poeReplyPortExtConfig =>
      obtain rfl := List.mem_singleton.mp hw
      exact hp
    | poeReply4PortStatus =>
      obtain ⟨i, hi, rfl⟩ := mem_fourPortLoop hw
      exact hset rfl i (List.mem_range.mp hi) hwj p
    | poeReplyPortPowerStats =>
      obtain rfl := List.mem_singleton.mp hw
      exact hp
  · refine hs.imp_right ?_
    rintro ⟨rfl, i, hi, hj, hlt⟩
    exact ⟨_, fourPortLoop_mem List.pairwise_lt_range (List.mem_range.mpr hi) (hj ▸ hlt), hj,
      hset rfl i hi hj⟩

theorem ShowsWatt.after {h : ReplyHandler × Frame} {j : Nat} (ht : Truthful rd h)
    (hs : ShowsWatt rd j (t.ports j) ∨ h.1 = .poeReplyPortPowerStats ∧ (h.2.byte 2).toNat = j) :
    ShowsWatt rd j ((t.after h).ports j) := by
  obtain ⟨hd, f⟩ := h
  refine writePorts_property ?_ ?_
  · intro w hw hwj p hp
    cases hd with
    | poeReplyStatus => exact absurd hw List.not_mem_nil
    | poeReplyPowerStats => exact absurd hw List.not_mem_nil
    | poeReplyPortExtConfig =>
      obtain rfl := List.mem_singleton.mp hw
      exact hp
    | poeReply4PortStatus =>
      obtain ⟨i, -, rfl⟩ := mem_fourPortLoop hw
      exact hp
    | poeReplyPortPowerStats =>
      obtain rfl := List.mem_singleton.mp hw
      subst hwj
      exact ht
  · refine hs.imp_right ?_
    rintro ⟨rfl, hj⟩
    refine ⟨_, List.mem_singleton.mpr rfl, hj, fun p => ?_⟩
    subst hj
    exact ht

/-! ## Questions and their answers -/

/-- The answer to the command with this payload is in the table, if the command
is one of the four questions of a poll. -/
structure Shown (rd : Readings) (payload : List UInt8) (t : Table) : Prop where
  power : payload.getD 0 0xff = 0x23 → ShowsPower rd t
  mode : payload.getD 0 0xff = 0x26 →
    ShowsMode rd (payload.getD 2 0xff).toNat (t.ports (payload.getD 2 0xff).toNat)
  status : payload.getD 0 0xff = 0x28 → ∀ i < 4, (payload.getD 2 0xff).toNat * 4 + i < maxPort →
    ShowsStatus rd ((payload.getD 2 0xff).toNat * 4 + i)
      (t.ports ((payload.getD 2 0xff).toNat * 4 + i))
  watt : payload.getD 0 0xff = 0x30 →
    ShowsWatt rd (payload.getD 2 0xff).toNat (t.ports (payload.getD 2 0xff).toNat)

/-- The ids of the four questions. -/
def questions : List UInt8 := [0x23, 0x26, 0x28, 0x30]

/-- A command that asks for nothing is shown by every table. -/
theorem Shown.of_not_question {payload : List UInt8} (h : payload.getD 0 0xff ∉ questions) :
    Shown rd payload t := by
  refine ⟨fun heq => ?_, fun heq => ?_, fun heq => ?_, fun heq => ?_⟩ <;>
    exact absurd (heq ▸ by decide) h

/-- A true reply leaves the answers that are in the table. -/
theorem Shown.after {payload : List UInt8} {h : ReplyHandler × Frame} (ht : Truthful rd h)
    (hs : Shown rd payload t) : Shown rd payload (t.after h) where
  power hid := ShowsPower.after ht (Or.inl (hs.power hid))
  mode hid := ShowsMode.after ht (Or.inl (hs.mode hid))
  status hid i hi hlt := ShowsStatus.after ht (Or.inl (hs.status hid i hi hlt))
  watt hid := ShowsWatt.after ht (Or.inl (hs.watt hid))

/-- The reply to a question puts its answer into the table. -/
theorem Shown.of_answer {payload : List UInt8} {h : ReplyHandler × Frame} (ht : Truthful rd h)
    (hh : handlerOf (payload.getD 0 0xff) = some h.1)
    (hport : payload.getD 0 0xff ≠ 0x23 → h.2.byte 2 = payload.getD 2 0xff) :
    Shown rd payload (t.after h) := by
  have hne : ∀ {c d : UInt8}, payload.getD 0 0xff = c → c ≠ d → payload.getD 0 0xff ≠ d :=
    fun heq hcd => heq ▸ hcd
  rw [handlerOf_eq] at hh
  constructor
  · intro hid
    rw [hid] at hh
    exact ShowsPower.after ht (Or.inr (Option.some.inj hh).symm)
  · intro hid
    rw [← hport (hne hid (by decide))]
    rw [hid] at hh
    exact ShowsMode.after ht (Or.inr ⟨(Option.some.inj hh).symm, rfl⟩)
  · intro hid i hi hlt
    rw [← hport (hne hid (by decide))] at hlt ⊢
    rw [hid] at hh
    exact ShowsStatus.after ht (Or.inr ⟨(Option.some.inj hh).symm, i, hi, rfl, hlt⟩)
  · intro hid
    rw [← hport (hne hid (by decide))]
    rw [hid] at hh
    exact ShowsWatt.after ht (Or.inr ⟨(Option.some.inj hh).symm, rfl⟩)

/-- The ids of the four questions in the controller's dialect, and back. -/
theorem question_ids {c : UInt8} (hc : c ∈ questions) :
    rtlToBcmCmdId (bcmToRtlCmdId c) = c ∧ bcmToRtlCmdId c &&& 0xf0 ≠ 0xf0 ∧
      c.toNat ≤ replyHandler.length := by
  have key : questions.all (fun c => rtlToBcmCmdId (bcmToRtlCmdId c) = c ∧
      bcmToRtlCmdId c &&& 0xf0 ≠ 0xf0 ∧ c.toNat ≤ 0x31) = true := by
    unfold rtlToBcmCmdId bcmToRtlCmdId
    rw [bcmToRtlMap_eq]
    decide +kernel
  rw [length_replyHandler]
  simpa using List.all_eq_true.mp key c hc

/-- Only these ids of the controller's dialect reach a handler that writes
readings. -/
theorem wire_ids (w : UInt8) :
    (rtlToBcmCmdId w = 0x23 → w = 0x41) ∧ (rtlToBcmCmdId w = 0x26 → w = 0x29) ∧
      (rtlToBcmCmdId w = 0x28 → w = 0x43) ∧ (rtlToBcmCmdId w = 0x30 → w = 0x44) := by
  have key : ∀ n < 0x100,
      (rtlToBcmCmdId (UInt8.ofNat n) = 0x23 → UInt8.ofNat n = 0x41) ∧
        (rtlToBcmCmdId (UInt8.ofNat n) = 0x26 → UInt8.ofNat n = 0x29) ∧
        (rtlToBcmCmdId (UInt8.ofNat n) = 0x28 → UInt8.ofNat n = 0x43) ∧
        (rtlToBcmCmdId (UInt8.ofNat n) = 0x30 → UInt8.ofNat n = 0x44) := by
    unfold rtlToBcmCmdId bcmToRtlCmdId
    rw [bcmToRtlMap_eq]
    simp only [entry_map_range]
    decide +kernel
  have h := key w.toNat w.toNat_lt
  rwa [UInt8.ofNat_toNat] at h

/-- What a reporting controller sends is true for the handler it reaches. -/
theorem Reports.truthful {cmd reply : Frame} (h : Reports rd cmd reply) {hd : ReplyHandler}
    (hh : handlerOf (rtlToBcmCmdId (reply.byte 0)) = some hd) :
    Truthful rd (hd, reply.withId (rtlToBcmCmdId (reply.byte 0))) := by
  obtain ⟨h23, h26, h28, h30⟩ := wire_ids (reply.byte 0)
  have hbyte : ∀ {i : Nat}, 0 < i →
      (reply.withId (rtlToBcmCmdId (reply.byte 0))).byte i = reply.byte i :=
    fun hi => byte_withId reply _ hi
  have hread : ∀ {i : Nat}, 0 < i →
      read16Be (reply.withId (rtlToBcmCmdId (reply.byte 0))) i = read16Be reply i := by
    intro i hi
    rw [read16Be, hbyte hi, hbyte (Nat.succ_pos i), read16Be]
  rw [handlerOf_eq] at hh
  split_ifs at hh with c20 c23 c26 c28 c30 <;> cases hh
  · trivial
  · show read16Be _ 7 = rd.power
    rw [hread (by decide)]
    exact h.power (h.id ▸ h23 c23)
  · show Frame.byte _ 3 = rd.mode (Frame.byte _ 2).toNat
    rw [hbyte (by decide), hbyte (by decide)]
    exact (h.mode (h.id ▸ h26 c26)).2
  · show ∀ i < 4, Frame.byte _ (3 + i * 2) = rd.status ((Frame.byte _ 2).toNat * 4 + i)
    intro i hi
    rw [hbyte (by omega), hbyte (by decide)]
    exact (h.status (h.id ▸ h28 c28)).2 i hi
  · show read16Be _ 9 = rd.watt (Frame.byte _ 2).toNat
    rw [hread (by decide), hbyte (by decide)]
    exact (h.watt (h.id ▸ h30 c30)).2

/-- Questions are answered for the port they name. -/
theorem Reports.port {payload : List UInt8} {seq : UInt8} {reply : Frame}
    (h : Reports rd (buildFrame payload seq) reply) (hq : payload.getD 0 0xff ∈ questions)
    (h23 : payload.getD 0 0xff ≠ 0x23) : reply.byte 2 = payload.getD 2 0xff := by
  have hb := buildFrame_byte payload seq (i := 2) (by decide) (by decide)
  have hid := buildFrame_id payload seq
  rw [← hb]
  have hw : bcmToRtlCmdId 0x26 = 0x29 ∧ bcmToRtlCmdId 0x28 = 0x43 ∧
      bcmToRtlCmdId 0x30 = 0x44 := by
    unfold bcmToRtlCmdId
    rw [bcmToRtlMap_eq]
    decide +kernel
  simp only [questions, List.mem_cons, List.not_mem_nil, or_false] at hq
  rcases hq with hq | hq | hq | hq
  · exact absurd hq h23
  · exact (h.mode (by rw [hid, hq]; exact hw.1)).1
  · exact (h.status (by rw [hid, hq]; exact hw.2.1)).1
  · exact (h.watt (by rw [hid, hq]; exact hw.2.2)).1

theorem table_append (s : State) (hs : List (ReplyHandler × Frame)) :
    tableOf (s.handled ++ hs) = hs.foldl Table.after s.table := List.foldl_append

/-- **One answer.**  Consuming it leaves the answers that are in the table and
adds the one to the first command. -/
theorem shown_poeReplyConsume {s : State} {c : Cmd} {rest : List Cmd} {payload : List UInt8}
    {seq : UInt8} {reply : Frame} (hp : s.cmdPending = c :: rest)
    (hc : c.cmd = buildFrame payload seq) (h : Reports rd c.cmd reply) :
    (∀ q, Shown rd q s.table → Shown rd q (poeReplyConsume s reply).table) ∧
      Shown rd payload (poeReplyConsume s reply).table := by
  have hid : reply.byte 0 = bcmToRtlCmdId (payload.getD 0 0xff) := by
    rw [h.id, hc, buildFrame_id]
  by_cases hans : Answers c reply ∧ (rtlToBcmCmdId (reply.byte 0)).toNat ≤ replyHandler.length
  · rw [poeReplyConsume_of_answers hp hans.1 hans.2]
    simp only [State.table, runReplyHandler]
    rw [table_append]
    cases hh : handlerOf (rtlToBcmCmdId (reply.byte 0)) with
    | none =>
      refine ⟨fun q hq => hq, Shown.of_not_question fun hq => ?_⟩
      -- every question has a handler
      rw [hid, (question_ids hq).1, handlerOf_eq] at hh
      simp only [questions, List.mem_cons, List.not_mem_nil, or_false] at hq
      rcases hq with hq | hq | hq | hq <;> rw [hq] at hh <;> cases hh
    | some hd =>
      have ht := h.truthful hh
      refine ⟨fun q hq => hq.after ht, ?_⟩
      by_cases hq : payload.getD 0 0xff ∈ questions
      · have hback := (question_ids hq).1
        refine Shown.of_answer ht (by rw [← hback, ← hid]; exact hh) fun h23 => ?_
        rw [byte_withId reply _ (by decide)]
        exact (hc ▸ h).port hq h23
      · exact Shown.of_not_question hq
  · -- not taken as an answer: then the command asked for nothing
    have hsame := (@poeReplyConsume_of_not_answers s reply (by
      rw [hp]
      rintro d ⟨⟩
      exact hans)).2
    have htable : (poeReplyConsume s reply).table = s.table := congrArg tableOf hsame
    rw [htable]
    refine ⟨fun q hq => hq, Shown.of_not_question fun hq => hans ⟨⟨h.checksum, ?_, ?_, h.seq⟩, ?_⟩⟩
    · rw [hid]
      exact (question_ids hq).2.1
    · rw [h.id]
    · rw [hid, (question_ids hq).1]
      exact (question_ids hq).2.2

/-- A rejection that leaves the command another try. -/
theorem poeReplyConsume_of_rejects {s : State} {c : Cmd} {rest : List Cmd} {reply : Frame}
    (hp : s.cmdPending = c :: rest) (ht : s.mcuErrorTimeout = false) (h : Rejects c reply) :
    poeReplyConsume s reply =
      { s with
        mcuErrorTimeout := true
        cmdPending := { c with numRetries := c.numRetries + 1 } :: rest } := by
  obtain ⟨hsum, hf0, hr⟩ := h
  unfold poeReplyConsume handlePoeF0Reply
  rw [hp]
  simp only
  rw [if_neg (not_not.mpr hsum), if_pos hf0]
  simp only [ht, Bool.false_eq_true, if_false]
  rw [if_neg (by omega)]

/-! ## Runs -/

/-- The answers to the commands that have left, from number `first` on, are in the
table. -/
def Current (rd : Readings) (first : Nat) (s : State) : Prop :=
  ∀ i payload, first ≤ i → i < (abs s).left → s.payloads[i]? = some payload →
    Shown rd payload s.table

/-- What the invariant depends on. -/
theorem Current.congr {first : Nat} {s s' : State} (h : Current rd first s)
    (hleft : (abs s').left = (abs s).left) (hpay : s'.payloads = s.payloads)
    (htable : s'.table = s.table) : Current rd first s' := by
  intro i payload hi hlt hget
  rw [hleft] at hlt
  rw [hpay] at hget
  rw [htable]
  exact h i payload hi hlt hget

/-- `poe_cmd_next` neither answers nor queues. -/
theorem Current.next {first : Nat} {s : State} (h : Current rd first s) :
    Current rd first (poeCmdNext s) := by
  rw [poeCmdNext_eq]
  exact h.congr rfl rfl rfl

theorem Current.queue {first : Nat} {s : State} (hw : Wire s) (h : Current rd first s)
    (payload : List UInt8) : Current rd first (poeCmdQueue s payload) := by
  have key : Current rd first { s with
      cmdSeq := s.cmdSeq + 1
      cmdPending := s.cmdPending ++ [⟨s.payloads.length, buildFrame payload (s.cmdSeq + 1), 0⟩]
      payloads := s.payloads ++ [payload] } := by
    intro i q hi hlt hget
    have hlen := hw.len
    have hlt' : i < (abs s).left := by
      simp only [abs, List.length_append, List.length_singleton] at hlt ⊢
      omega
    have hpay : i < s.payloads.length := by
      simp only [abs] at hlt'
      omega
    rw [List.getElem?_append_left hpay] at hget
    exact h i q hi hlt' hget
  rw [poeCmdQueue_eq]
  dsimp only
  split
  · exact key.next
  · exact key

/-- A reply that was just completed. -/
theorem Current.reply {first : Nat} {s : State} (hw : Wire s) (hr : Recorded s)
    (h : Current rd first s) {bytes : List UInt8} (hs : Solicited s (.receive bytes))
    (hb : ¬ s.readBuf.length + bytes.length < 12) (hf : Faithful rd s (.receive bytes)) :
    Current rd first (afterReply s bytes) := by
  obtain ⟨c, rest, hp, ht, -⟩ := hw.reply_answers hs hb
  have hlen := hw.len
  have hplus : 12 ≤ (s.readBuf ++ bytes).length := by
    rw [List.length_append]
    omega
  have hget : (poeReplyConsume { s with
      readBuf := s.readBuf ++ bytes, received := s.received + bytes.length }
      (firstReply (s.readBuf ++ bytes))).table = (afterReply s bytes).table := rfl
  rcases hf hplus c (by rw [hp]; rfl) with hrep | hrej
  · -- the first command leaves with its answer, or stays if the answer looks like a rejection
    obtain ⟨payload, hpay, hcmd⟩ := hr.pending c (by rw [hp]; exact List.mem_cons_self)
    obtain ⟨hkeep, hnew⟩ := shown_poeReplyConsume
      (s := { s with readBuf := s.readBuf ++ bytes, received := s.received + bytes.length })
      hp hcmd hrep
    rw [hget] at hkeep hnew
    have hid : c.id = (abs s).left := by
      have hids := hw.ids
      rw [hp, List.length_cons, List.range'_succ, List.map_cons] at hids
      rw [(List.cons.inj hids).1, abs, hp]
      rfl
    have hpays : (afterReply s bytes).payloads = s.payloads := by
      rcases afterReply_cases bytes hp ht with ⟨ix, hd, heq⟩ | ⟨-, heq⟩ <;> rw [heq]
    have hleft : (abs (afterReply s bytes)).left ≤ (abs s).left + 1 := by
      rw [hp, List.length_cons] at hlen
      rcases afterReply_cases bytes hp ht with ⟨ix, hd, heq⟩ | ⟨-, heq⟩ <;>
        simp only [heq, abs, hp, List.length_cons] <;> omega
    intro i q hi hlt hq
    rw [hpays] at hq
    rcases Nat.lt_or_ge i (abs s).left with hold | hge
    · exact hkeep q (h i q hi hold hq)
    · obtain rfl : i = c.id := by omega
      obtain rfl := Option.some.inj (hpay.symm.trans hq)
      exact hnew
  · refine h.congr ?_ ?_ ?_ <;>
      simp only [afterReply, poeReplyConsume_of_rejects (s := { s with
        readBuf := s.readBuf ++ bytes, received := s.received + bytes.length }) hp ht hrej]
    · simp [abs, hp]
    · rfl

/-- **Every callback keeps the table current.** -/
theorem current_step {first : Nat} {s : State} {e : Event} (hw : Wire s) (hr : Recorded s)
    (h : Current rd first s) (hs : Solicited s e) (hf : Faithful rd s e) :
    Current rd first (step s e) := by
  cases e with
  | queue payload => exact h.queue hw payload
  | expire =>
    rw [step]
    split
    · exact Current.next (h.congr rfl rfl rfl)
    · exact h
  | receive bytes =>
    rw [step_receive]
    split
    · exact h.congr rfl rfl rfl
    · rename_i hb
      exact (h.reply hw hr hs hb hf).next

/-- What a run keeps that begins at command `first`. -/
def Tracks (rd : Readings) (first : Nat) (s : State) : Prop :=
  Wire s ∧ Recorded s ∧ Current rd first s

theorem tracks_step {first : Nat} (s : State) (e : Event) (h : Tracks rd first s)
    (hf : Solicited s e ∧ Faithful rd s e) : Tracks rd first (step s e) :=
  ⟨(wire_step h.1 hf.1).1, recorded_step s e h.2.1, current_step h.1 h.2.1 h.2.2 hf.1 hf.2⟩

/-- A poll is a run of its commands. -/
theorem stateTimeoutCb_eq_exec (n : Nat) (s : State) :
    stateTimeoutCb n s = Runs.exec step s ((pollCommands n).map .queue) := by
  rw [stateTimeoutCb, queueAll, Runs.exec, List.foldl_map]
  rfl

theorem payloads_queueAll (s : State) (payloads : List (List UInt8)) :
    (queueAll s payloads).payloads = s.payloads ++ payloads := by
  induction payloads generalizing s with
  | nil => exact (List.append_nil _).symm
  | cons p ps ih =>
    rw [queueAll, List.foldl_cons]
    refine (ih (poeCmdQueue s p)).trans ?_
    have hone : (poeCmdQueue s p).payloads = s.payloads ++ [p] := by
      rw [poeCmdQueue_eq]
      dsimp only
      split
      · rw [poeCmdNext_eq]
      · rfl
    rw [hone, List.append_assoc]
    rfl

theorem payloads_exec (s : State) (es : List Event) :
    s.payloads <+: (Runs.exec step s es).payloads := by
  induction es generalizing s with
  | nil => exact List.prefix_rfl
  | cons e es ih => exact (payloads_step s e).trans (ih _)

/-- After a poll all of whose commands have left, their answers are in the
table. -/
theorem shown_of_left {n first : Nat} {s s' : State} (hw : Wire s') (hc : Current rd first s')
    (hfirst : first ≤ s.payloads.length)
    (hpay : s.payloads ++ pollCommands n <+: s'.payloads)
    (hleft : ∀ x ∈ s'.cmdPending, s.payloads.length + (pollCommands n).length ≤ x.id) :
    ∀ q ∈ pollCommands n, Shown rd q s'.table := by
  intro q hq
  obtain ⟨k, hk, rfl⟩ := List.getElem_of_mem hq
  obtain ⟨more, hmore⟩ := hpay
  have hlen := hw.len
  have hall : s.payloads.length + (pollCommands n).length ≤ (abs s').left := by
    cases hp : s'.cmdPending with
    | nil =>
      have := congrArg List.length hmore
      simp only [List.length_append] at this
      simp only [abs, hp, List.length_nil]
      omega
    | cons x xs =>
      have hid : x.id = (abs s').left := by
        have hids := hw.ids
        rw [hp, List.length_cons, List.range'_succ, List.map_cons] at hids
        rw [(List.cons.inj hids).1, abs, hp]
        rfl
      rw [← hid]
      exact hleft x (by rw [hp]; exact List.mem_cons_self)
  refine hc (s.payloads.length + k) _ (by omega) (by omega) ?_
  rw [← hmore, List.getElem?_append_left (by rw [List.length_append]; omega),
    List.getElem?_append_right (Nat.le_add_right _ _), Nat.add_sub_cancel_left,
    List.getElem?_eq_getElem hk]

/-! ## The poll asks for everything -/

/-- The entries of the first `n` ports show the readings. -/
structure AllShown (rd : Readings) (n : Nat) (t : Table) : Prop where
  power : ShowsPower rd t
  mode : ∀ j < n, ShowsMode rd j (t.ports j)
  status : ∀ j < n, ShowsStatus rd j (t.ports j)
  watt : ∀ j < n, ShowsWatt rd j (t.ports j)

/-- The commands of a poll ask for every port. -/
theorem allShown_of_poll {n : Nat} (hn : n ≤ maxPort)
    (h : ∀ q ∈ pollCommands n, Shown rd q t) : AllShown rd n t := by
  have h24 : maxPort = 24 := rfl
  have hport : ∀ {j : Nat}, j < n → (UInt8.ofNat j).toNat = j := by
    intro j hj
    rw [UInt8.toNat_ofNat']
    omega
  have hmem : ∀ {j : Nat}, j < n → ∀ q ∈ [[0x26, 0x00, UInt8.ofNat j], [0x30, 0x00, UInt8.ofNat j]],
      q ∈ pollCommands n := fun hj q hq =>
    List.mem_append_right _ (List.mem_flatMap.mpr ⟨_, List.mem_range.mpr hj, hq⟩)
  refine ⟨?_, fun j hj => ?_, fun j hj => ?_, fun j hj => ?_⟩
  · exact (h [0x23] (by simp [pollCommands])).power rfl
  · have hm := (h _ (hmem hj _ List.mem_cons_self)).mode rfl
    rwa [show (([0x26, 0x00, UInt8.ofNat j] : List UInt8).getD 2 0xff).toNat = j from hport hj] at hm
  · -- port `j` is the entry `j % 4` of its group
    have hgroup : [0x28, 0x00, UInt8.ofNat (j / 4)] ∈ pollCommands n := by
      refine List.mem_append_left _ (List.mem_append_right _ (List.mem_map.mpr ⟨j / 4, ?_, rfl⟩))
      rw [List.mem_range]
      omega
    have hg : (([0x28, 0x00, UInt8.ofNat (j / 4)] : List UInt8).getD 2 0xff).toNat = j / 4 :=
      hport (by omega)
    have hs := (h _ hgroup).status rfl (j % 4) (Nat.mod_lt _ (by decide))
    rw [hg, show j / 4 * 4 + j % 4 = j by omega] at hs
    exact hs (by omega)
  · have hm := (h _ (hmem hj [0x30, 0x00, UInt8.ofNat j] (by simp))).watt rfl
    rwa [show (([0x30, 0x00, UInt8.ofNat j] : List UInt8).getD 2 0xff).toNat = j from hport hj] at hm

/-- The ports of the reply to `info`, with the readings. -/
def reportedPort (rd : Readings) (p : Nat × PortConfig) : InfoPort where
  name := p.2.name
  priority := p.2.priority
  mode := getStr (rd.mode p.1) modeNames
  status := (getStr (rd.status p.1 &&& 0xf) statusNames).getD "unknown"
  consumption := if rd.watt p.1 ≠ 0 then some (rd.watt p.1) else none

/-- What is printed for the ports of a configuration. -/
theorem info_of_allShown {c : Config} (h : AllShown rd c.portCount t) :
    (ubusPoeInfoCb c t).consumption = rd.power ∧
      (ubusPoeInfoCb c t).ports = (c.counted.filter fun p => p.2.valid).map (reportedPort rd) := by
  refine ⟨h.power, List.map_congr_left fun p hp => ?_⟩
  have hlt : p.1 < c.portCount := by
    obtain ⟨q, hq, rfl⟩ := List.mem_map.mp (List.mem_filter.mp hp).1
    have := (List.mem_zipIdx hq).2.1
    simp only [List.length_take] at this
    simp only [Prod.fst_swap]
    omega
  simp only [infoPort, reportedPort]
  rw [h.mode p.1 hlt, (h.status p.1 hlt).2, h.watt p.1 hlt]

/-- **After a poll the bus sees what the controller measures.**  For every
configuration the daemon can load, every past and every order of what happens
after the poll in which the controller never sends ahead of the frames: as long as it
answers with its readings or rejects a command at most `maxRetries` times, `info`
prints the readings of all ports once the commands of the poll have left the queue. -/
theorem refreshed (rd : Readings) (first : Contents) (rest : List Contents) (past post : List Event)
    (hpast : Runs.Meets step Solicited initial past)
    (hpost : Runs.Meets step (fun s e => Solicited s e ∧ Faithful rd s e)
      (stateTimeoutCb (configLoads first rest).portCount (Runs.exec step initial past)) post)
    (hleft : ∀ x ∈ (Runs.exec step (stateTimeoutCb (configLoads first rest).portCount
        (Runs.exec step initial past)) post).cmdPending,
      (stateTimeoutCb (configLoads first rest).portCount
        (Runs.exec step initial past)).payloads.length ≤ x.id) :
    let info := ubusPoeInfoCb (configLoads first rest)
      (Runs.exec step (stateTimeoutCb (configLoads first rest).portCount
        (Runs.exec step initial past)) post).table
    info.consumption = rd.power ∧
      info.ports =
        ((configLoads first rest).counted.filter fun p => p.2.valid).map (reportedPort rd) := by
  set c := configLoads first rest with hc
  set s := Runs.exec step initial past with hs
  have hwire : Wire s := (Runs.always_of_meets (I := Wire) (C := Solicited)
    (fun _ _ hw hsol => (wire_step hw hsol).1) wire_initial hpast).last
  -- the poll itself only queues
  have hstart : Tracks rd s.payloads.length (stateTimeoutCb c.portCount s) := by
    rw [stateTimeoutCb_eq_exec]
    refine (Runs.always_of_meets (I := Tracks rd s.payloads.length)
      (C := fun s e => Solicited s e ∧ Faithful rd s e) tracks_step ?_ ?_).last
    · refine ⟨hwire, recorded_exec past, fun i q hi hlt => ?_⟩
      simp only [abs] at hlt
      omega
    · refine Runs.meets_of_forall fun e he s => ?_
      obtain ⟨q, -, rfl⟩ := List.mem_map.mp he
      exact ⟨trivial, trivial⟩
  have hend := (Runs.always_of_meets (I := Tracks rd s.payloads.length)
    (C := fun s e => Solicited s e ∧ Faithful rd s e) tracks_step hstart hpost).last
  have hpay : (stateTimeoutCb c.portCount s).payloads = s.payloads ++ pollCommands c.portCount :=
    payloads_queueAll _ _
  rw [hpay, List.length_append] at hleft
  refine info_of_allShown (allShown_of_poll (portCount_configLoads_le first rest) ?_)
  exact shown_of_left hend.1 hend.2.2 (Nat.le_refl _) (hpay ▸ payloads_exec _ _) hleft

/-- One port that delivers power. -/
def deliveringPort : Contents where
  poe := some [⟨lit "port", lit "p1", [(lit "id", lit "1"), (lit "name", lit "lan1")]⟩]
  port := some [⟨lit "lan", lit "lan1", [(lit "poe", lit "enable")]⟩]

/-- The controller measures 12.3 W, 4.5 W of them on every port. -/
def sameEverywhere : Readings := ⟨123, fun _ => 2, fun _ => 3, fun _ => 45⟩

/-- The answers to the four commands of its poll; the third is first rejected, and
the first one arrives in two pieces. -/
def pollAnswers : List Event :=
  [.receive [0x41, 1, 0, 0], .receive [0, 0, 0, 0, 123, 0, 0, 189],
    .receive [0x43, 2, 0, 2, 0, 2, 0, 2, 0, 2, 0, 77],
    .receive [0xff, 3, 0, 0, 0, 0, 0, 0, 0, 0, 0, 2], .expire,
    .receive [0x29, 3, 0, 3, 0, 0, 0, 0, 0, 0, 0, 47],
    .receive [0x44, 4, 0, 0, 0, 0, 0, 0, 0, 0, 45, 117]]

theorem refreshed_delivering_port :
    let info := ubusPoeInfoCb (configLoads deliveringPort [])
      (Runs.exec step (stateTimeoutCb (configLoads deliveringPort []).portCount
        (Runs.exec step initial [])) pollAnswers).table
    info.consumption = 123 ∧
      info.ports = ((configLoads deliveringPort []).counted.filter fun p => p.2.valid).map
        (reportedPort sameEverywhere) :=
  refreshed sameEverywhere deliveringPort [] [] pollAnswers trivial (by decide +kernel)
    (by decide +kernel)

end TfPackages.Poe
