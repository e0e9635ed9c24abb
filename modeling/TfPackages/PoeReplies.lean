import TfPackages.CStrings
import TfPackages.PoeQueue

/-! # What the reply handlers touch

A reply that is taken as the answer to the first command selects an entry of
`reply_handler` by its command id, and three of the handlers select an entry of
`state.ports` by the port number the controller sends.  The queue's log has the
indices into `reply_handler`; this module adds what each handler does with the
reply, and with it the indices into `state.ports`.

The id is compared with the size of the table by `>`, which lets the id one
behind its end pass, and two of the three handlers take the port number as it
comes.  `ReplyInRange` is what the controller has to send for all indices to be
inside their tables.
-/
namespace TfPackages.Poe

/-- `MAX_PORT`. -/
def maxPort : Nat := 24

/-- `struct port_state`, as far as replies set it.  Powers are in tenths of a
watt, as the controller sends them. -/
structure PortState where
  statusStr : Option String
  status : UInt8
  watt : Nat
  poeMode : Option String
deriving DecidableEq, Repr

/-- `struct state` without the ports. -/
structure SysState where
  sysMode : Option String
  sysVersion : UInt8
  sysMcu : Option String
  sysStatus : Option String
  sysExtVersion : UInt8
  powerConsumption : Nat
  numDetectedPorts : UInt8
deriving DecidableEq, Repr

/-- What a reply handler does: to `state`, and to which entries of `state.ports`,
in order. -/
structure Effect where
  sys : SysState → SysState
  ports : List (Nat × (PortState → PortState))

/-- `read16_be`. -/
def read16Be (reply : Frame) (i : Nat) : Nat :=
  (reply.byte i).toNat * 0x100 + (reply.byte (i + 1)).toNat

/-- `GET_STR`. -/
def getStr (a : UInt8) (b : List String) : Option String := b[a.toNat]?

/-! ## The handlers -/

/-- `poe_reply_status`. -/
def poeReplyStatus (reply : Frame) : Effect where
  sys s := { s with
    sysMode := getStr (reply.byte 2)
      ["Semi-auto I2C", "Semi-auto UART", "Auto I2C", "Auto UART"]
    numDetectedPorts := reply.byte 3
    sysVersion := reply.byte 7
    sysMcu := getStr (reply.byte 8)
      ["GigaDevice GD32F310", "GigaDevice GD32E230", "GigaDevice GD32F303", "GigaDevice GD32E103"]
    sysStatus := getStr (reply.byte 9)
      ["Global Disable pin is de-asserted:No system reset from the previous query cmd:Configuration saved",
        "Global Disable pin is de-asserted:No system reset from the previous query cmd:Configuration Dirty",
        "Global Disable pin is de-asserted:System reseted:Configuration saved",
        "Global Disable pin is de-asserted:System reseted:Configuration Dirty",
        "Global Disable Pin is asserted:No system reset from the previous query cmd:Configuration saved",
        "Global Disable Pin is asserted:No system reset from the previous query cmd:Configuration Dirty",
        "Global Disable Pin is asserted:System reseted:Configuration saved",
        "Global Disable Pin is asserted:System reseted:Configuration Dirty"]
    sysExtVersion := reply.byte 10 }
  ports := []

/-- `poe_reply_power_stats`. -/
def poeReplyPowerStats (reply : Frame) : Effect where
  sys s := { s with powerConsumption := read16Be reply 7 }
  ports := []

/-- `poe_reply_port_ext_config`. -/
def poeReplyPortExtConfig (reply : Frame) : Effect where
  sys := id
  ports := [((reply.byte 2).toNat, fun p =>
    { p with poeMode := getStr (reply.byte 3) ["PoE", "Legacy", "pre-PoE+", "PoE+"] })]

/-- `status`. -/
def statusNames : List String :=
  ["Disabled", "Searching", "Delivering power", "rsvd", "Fault", "Other fault", "Requesting power"]

/-- The loop of `poe_reply_4_port_status`, over the rest of `i < 4`.  A port that
is too large ends it. -/
def fourPortLoop (reply : Frame) : List Nat → List (Nat × (PortState → PortState))
  | [] => []
  | i :: is =>
    let port := (reply.byte 2).toNat * 4 + i
    let pstate := reply.byte (3 + i * 2)
    if port = 0xff then fourPortLoop reply is
    else if port ≥ maxPort then []
    else
      (port, fun p => { p with
        statusStr := getStr (pstate &&& 0xf) statusNames
        status := pstate &&& 0xf }) :: fourPortLoop reply is

/-- `poe_reply_4_port_status`. -/
def poeReply4PortStatus (reply : Frame) : Effect where
  sys := id
  ports := fourPortLoop reply (List.range 4)

/-- `poe_reply_port_power_stats`. -/
def poeReplyPortPowerStats (reply : Frame) : Effect where
  sys := id
  ports := [((reply.byte 2).toNat, fun p => { p with watt := read16Be reply 9 })]

/-- What a handler does with a reply. -/
def ReplyHandler.effect : ReplyHandler → Frame → Effect
  | .poeReplyStatus => Poe.poeReplyStatus
  | .poeReplyPowerStats => Poe.poeReplyPowerStats
  | .poeReplyPortExtConfig => Poe.poeReplyPortExtConfig
  | .poeReply4PortStatus => Poe.poeReply4PortStatus
  | .poeReplyPortPowerStats => Poe.poeReplyPortPowerStats

/-! ## Frames from outside -/

/-- The loop of `ubus_poe_sendframe_cb`, with room for `n` more bytes. -/
def sendframeLoop : Nat → List UInt8 → Option (List UInt8)
  | 0, _ => some []
  | n + 1, frame =>
    if frame = [] then some []
    else do
      let (byteVal, next) ← CStrings.strtoul16 frame
      if byteVal > 0xff then none
      else
        let rest ← sendframeLoop n next
        some (UInt8.ofNat byteVal :: rest)

/-- `ubus_poe_sendframe_cb`: the payload it queues for a frame given as text. -/
def ubusPoeSendframeCb (frame : List UInt8) : Option (List UInt8) := sendframeLoop 9 frame

/-! ## The tables -/

/-- **All indices used so far are inside their tables.** -/
structure InTables (s : State) : Prop where
  handlers : ∀ i ∈ s.indexed, i < replyHandler.length
  ports : ∀ h ∈ s.handled, ∀ p ∈ (h.1.effect h.2).ports, p.1 < maxPort

/-- The reply is taken as the answer to the command: no rejection, a correct
checksum, the same id after translation and the same sequence number. -/
def Answers (c : Cmd) (reply : Frame) : Prop :=
  reply.byte 11 = checksum reply ∧ reply.byte 0 &&& 0xf0 ≠ 0xf0 ∧
    rtlToBcmCmdId (reply.byte 0) = rtlToBcmCmdId (c.cmd.byte 0) ∧ reply.byte 1 = c.cmd.byte 1

/-- The condition on a reply that answers the first command: its id is not the one
behind the end of `reply_handler`, and where a handler takes the port as it comes,
the port exists. -/
def ReplyInRange (s : State) (reply : Frame) : Prop :=
  ∀ c ∈ s.cmdPending.head?, Answers c reply →
    let id := rtlToBcmCmdId (reply.byte 0)
    id ≠ 0x31 ∧ (id = 0x26 ∨ id = 0x30 → (reply.byte 2).toNat < maxPort)

/-- The condition on what the event loop runs: the reply it consumes is in
range. -/
def InRange (s : State) : Event → Prop
  | .receive bytes =>
    12 ≤ (s.readBuf ++ bytes).length → ReplyInRange s (firstReply (s.readBuf ++ bytes))
  | _ => True

/-! ## One reply -/

theorem byte_withId (d : Frame) (id : UInt8) {i : Nat} (hi : 0 < i) :
    (d.withId id).byte i = d.byte i := Frame.byte_set_of_ne d (by decide) hi.ne id

theorem length_replyHandler : replyHandler.length = 0x31 := by
  rw [replyHandler, List.length_map, List.length_range]

/-- The five ids that have a handler. -/
theorem handlerOf_eq (id : UInt8) : handlerOf id =
    if id = 0x20 then some .poeReplyStatus
    else if id = 0x23 then some .poeReplyPowerStats
    else if id = 0x26 then some .poeReplyPortExtConfig
    else if id = 0x28 then some .poeReply4PortStatus
    else if id = 0x30 then some .poeReplyPortPowerStats
    else none := by
  have key : ∀ n < 0x31, handlerOf (UInt8.ofNat n) =
      if UInt8.ofNat n = 0x20 then some .poeReplyStatus
      else if UInt8.ofNat n = 0x23 then some .poeReplyPowerStats
      else if UInt8.ofNat n = 0x26 then some .poeReplyPortExtConfig
      else if UInt8.ofNat n = 0x28 then some .poeReply4PortStatus
      else if UInt8.ofNat n = 0x30 then some .poeReplyPortPowerStats
      else none := by decide +kernel
  rcases Nat.lt_or_ge id.toNat 0x31 with hlt | hge
  · have h := key id.toNat hlt
    rwa [UInt8.ofNat_toNat] at h
  · -- behind the table
    have hne : ∀ c : UInt8, c.toNat < 0x31 → id ≠ c := by
      rintro c hc rfl
      omega
    have hnone : handlerOf id = none :=
      List.getD_eq_default _ _ (by rw [length_replyHandler]; exact hge)
    rw [hnone, if_neg (hne 0x20 (by decide)), if_neg (hne 0x23 (by decide)),
      if_neg (hne 0x26 (by decide)), if_neg (hne 0x28 (by decide)), if_neg (hne 0x30 (by decide))]

/-- A reply that answers the first command reaches the table, if its id passes the
comparison with the table's size. -/
theorem poeReplyConsume_of_answers {s : State} {c : Cmd} {rest : List Cmd} {reply : Frame}
    (hp : s.cmdPending = c :: rest) (ha : Answers c reply)
    (hid : (rtlToBcmCmdId (reply.byte 0)).toNat ≤ replyHandler.length) :
    poeReplyConsume s reply =
      runReplyHandler { s with cmdPending := rest } (rtlToBcmCmdId (reply.byte 0)) reply := by
  obtain ⟨hsum, hf0, heq, hseq⟩ := ha
  unfold poeReplyConsume
  rw [hp]
  simp only
  rw [if_neg (not_not.mpr hsum), if_neg hf0, if_neg, if_neg (not_not.mpr hseq)]
  rintro (hne | hgt)
  · exact hne heq
  · omega

/-- Any other reply uses neither table. -/
theorem poeReplyConsume_of_not_answers {s : State} {reply : Frame}
    (h : ∀ c ∈ s.cmdPending.head?, ¬ (Answers c reply ∧
      (rtlToBcmCmdId (reply.byte 0)).toNat ≤ replyHandler.length)) :
    (poeReplyConsume s reply).indexed = s.indexed ∧
      (poeReplyConsume s reply).handled = s.handled := by
  unfold poeReplyConsume
  split
  · exact ⟨rfl, rfl⟩
  rename_i c rest hp
  have hc := h c (by rw [hp]; rfl)
  dsimp only
  split
  · exact ⟨rfl, rfl⟩
  rename_i hsum
  split
  · unfold handlePoeF0Reply
    dsimp only
    split_ifs <;> exact ⟨rfl, rfl⟩
  rename_i hf0
  split
  · exact ⟨rfl, rfl⟩
  rename_i hid
  split
  · exact ⟨rfl, rfl⟩
  rename_i hseq
  obtain ⟨heq, hle⟩ := not_or.mp hid
  exact absurd ⟨⟨not_not.mp hsum, hf0, not_not.mp heq, not_not.mp hseq⟩, Nat.le_of_not_lt hle⟩ hc

/-- The ports of `poe_reply_4_port_status` exist, whatever the controller sends. -/
theorem fourPortLoop_lt (reply : Frame) (is : List Nat) :
    ∀ p ∈ fourPortLoop reply is, p.1 < maxPort := by
  induction is with
  | nil => exact fun p hp => absurd hp List.not_mem_nil
  | cons i is ih =>
    unfold fourPortLoop
    dsimp only
    split
    · exact ih
    split
    · exact fun p hp => absurd hp List.not_mem_nil
    · rename_i hlt
      intro p hp
      rcases List.mem_cons.mp hp with rfl | hp
      · exact Nat.lt_of_not_le hlt
      · exact ih p hp

/-- What the handler of an id touches: two of the five take the port number from
the reply as it is. -/
theorem handlerOf_ports_lt_iff (id : UInt8) (reply : Frame) :
    (∀ h ∈ handlerOf id, ∀ p ∈ (h.effect (reply.withId id)).ports, p.1 < maxPort) ↔
      (id = 0x26 ∨ id = 0x30 → (reply.byte 2).toNat < maxPort) := by
  have hbyte := byte_withId reply id (i := 2) (by decide)
  rw [handlerOf_eq]
  split_ifs with h20 h23 h26 h28 h30
  · subst h20
    simp [ReplyHandler.effect, poeReplyStatus]
  · subst h23
    simp [ReplyHandler.effect, poeReplyPowerStats]
  · subst h26
    simp [ReplyHandler.effect, poeReplyPortExtConfig, hbyte]
  · subst h28
    refine iff_of_true ?_ fun hor => by rcases hor with h | h <;> cases h
    rintro h ⟨⟩
    exact fourPortLoop_lt _ _
  · subst h30
    simp [ReplyHandler.effect, poeReplyPortPowerStats, hbyte]
  · exact iff_of_true (fun h hh => by cases hh) fun hor => absurd hor (not_or.mpr ⟨h26, h30⟩)

/-- What a dispatched reply adds to the log is inside the tables exactly when its
id and its port are. -/
theorem inTables_runReplyHandler_iff {s : State} (hs : InTables s) (id : UInt8) (reply : Frame) :
    InTables (runReplyHandler s id reply) ↔
      id.toNat < replyHandler.length ∧
        (id = 0x26 ∨ id = 0x30 → (reply.byte 2).toNat < maxPort) := by
  rw [← handlerOf_ports_lt_iff]
  constructor
  · intro h
    refine ⟨h.handlers id.toNat (by simp [runReplyHandler]), fun hd hhd => ?_⟩
    refine h.ports (hd, reply.withId id) ?_
    simp [runReplyHandler, Option.mem_def.mp hhd]
  · rintro ⟨hid, hports⟩
    constructor
    · intro i hi
      rcases List.mem_append.mp hi with hi | hi
      · exact hs.handlers i hi
      · rwa [List.mem_singleton.mp hi]
    · intro h hh
      rcases List.mem_append.mp hh with hh | hh
      · exact hs.ports h hh
      · obtain ⟨hd, hhd, rfl⟩ := Option.map_eq_some_iff.mp (Option.mem_toList.mp hh)
        exact hports hd hhd

/-- **One reply** keeps the indices inside the tables exactly when it is in
range. -/
theorem inTables_poeReplyConsume_iff {s : State} (hs : InTables s) (reply : Frame) :
    InTables (poeReplyConsume s reply) ↔ ReplyInRange s reply := by
  by_cases hans : ∃ c ∈ s.cmdPending.head?, Answers c reply ∧
      (rtlToBcmCmdId (reply.byte 0)).toNat ≤ replyHandler.length
  · obtain ⟨c, hc, ha, hid⟩ := hans
    obtain ⟨rest, hp⟩ := List.head?_eq_some_iff.mp hc
    have hs' : InTables { s with cmdPending := rest } := ⟨hs.handlers, hs.ports⟩
    have hlt : (rtlToBcmCmdId (reply.byte 0)).toNat < replyHandler.length ↔
        rtlToBcmCmdId (reply.byte 0) ≠ 0x31 := by
      rw [length_replyHandler] at hid ⊢
      rw [ne_eq, ← UInt8.toNat_inj]
      change _ ↔ ¬ (rtlToBcmCmdId (reply.byte 0)).toNat = 0x31
      omega
    rw [poeReplyConsume_of_answers hp ha hid, inTables_runReplyHandler_iff hs', hlt]
    constructor
    · intro h c' _ _
      exact h
    · intro h
      exact h c hc ha
  · have hno : ∀ c ∈ s.cmdPending.head?, ¬ (Answers c reply ∧
        (rtlToBcmCmdId (reply.byte 0)).toNat ≤ replyHandler.length) :=
      fun c hc h => hans ⟨c, hc, h⟩
    obtain ⟨hi, hh⟩ := poeReplyConsume_of_not_answers hno
    refine iff_of_true ⟨by rw [hi]; exact hs.handlers, by rw [hh]; exact hs.ports⟩ ?_
    -- an id that is larger than the table has no handler and is not `0x31`
    intro c hc ha
    have hgt : replyHandler.length < (rtlToBcmCmdId (reply.byte 0)).toNat :=
      Nat.lt_of_not_le fun hle => hno c hc ⟨ha, hle⟩
    rw [length_replyHandler] at hgt
    have hne : ∀ k : UInt8, k.toNat ≤ 0x31 → rtlToBcmCmdId (reply.byte 0) ≠ k := by
      rintro k hk rfl
      omega
    exact ⟨hne 0x31 (by decide), fun hor =>
      (hor.elim (hne 0x26 (by decide)) (hne 0x30 (by decide))).elim⟩

/-! ## Whole runs -/

theorem inTables_initial : InTables initial :=
  ⟨fun _ hi => absurd hi List.not_mem_nil, fun _ hh => absurd hh List.not_mem_nil⟩

/-- `poe_cmd_next` only writes to the stream. -/
theorem inTables_poeCmdNext_iff (s : State) : InTables (poeCmdNext s) ↔ InTables s := by
  rw [poeCmdNext_eq]
  exact ⟨fun h => ⟨h.handlers, h.ports⟩, fun h => ⟨h.handlers, h.ports⟩⟩

/-- **One callback** keeps the indices inside the tables exactly when the reply it
consumes is in range. -/
theorem inTables_step_iff (s : State) (e : Event) (hs : InTables s) :
    InTables (step s e) ↔ InRange s e := by
  cases e with
  | queue payload =>
    refine iff_of_true ?_ trivial
    rw [step, poeCmdQueue_eq]
    dsimp only
    split
    · exact (inTables_poeCmdNext_iff _).mpr ⟨hs.handlers, hs.ports⟩
    · exact ⟨hs.handlers, hs.ports⟩
  | expire =>
    refine iff_of_true ?_ trivial
    rw [step]
    split
    · exact (inTables_poeCmdNext_iff _).mpr ⟨hs.handlers, hs.ports⟩
    · exact hs
  | receive bytes =>
    have hs' : InTables { s with
        readBuf := s.readBuf ++ bytes
        received := s.received + bytes.length } := ⟨hs.handlers, hs.ports⟩
    unfold step poeStreamMsgCb InRange
    dsimp only
    split
    · rename_i hshort
      exact iff_of_true hs' fun hle => absurd hshort (Nat.not_lt.mpr hle)
    · rename_i hle
      rw [inTables_poeCmdNext_iff, forall_prop_of_true (Nat.le_of_not_lt hle)]
      refine Iff.trans ?_ (inTables_poeReplyConsume_iff hs' (firstReply (s.readBuf ++ bytes)))
      exact ⟨fun h => ⟨h.handlers, h.ports⟩, fun h => ⟨h.handlers, h.ports⟩⟩

/-- **The indices stay inside the tables in a run exactly when every reply that is
consumed is in range**, whatever commands are queued. -/
theorem tables_kept_iff (es : List Event) :
    Runs.Always step InTables initial es ↔ Runs.Meets step InRange initial es :=
  Runs.always_iff_meets inTables_step_iff inTables_initial

/-- A frame with id `0x31` from outside, answered by the controller: the entry
behind the end of `reply_handler` is used. -/
theorem sendframe_uses_entry_behind_table :
    ubusPoeSendframeCb (CStrings.lit "31") = some [0x31] ∧
      ¬ Runs.Always step InTables initial
        [.queue [0x31], .receive [0x31, 1, 0, 0, 0, 0, 0, 0, 0, 0, 0, 0x32]] := by
  refine ⟨by decide +kernel, fun h => ?_⟩
  have hlt := h.last.handlers 0x31 (by decide +kernel)
  rw [length_replyHandler] at hlt
  exact absurd hlt (by decide)

end TfPackages.Poe
