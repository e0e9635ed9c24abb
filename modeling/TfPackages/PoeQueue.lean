import TfPackages.PoeFrames
import TfPackages.Runs

/-! # The command queue of the PoE daemon

Commands wait in `cmd_pending`; the first one is the one on the wire.  Three
places write a frame: `poeCmdQueue` on an empty list, `poeStreamMsgCb` after
every consumed reply, and `mcuClearTimeout` when the recovery timer expires.  A
frame the controller rejects (`0xf?` replies) is put back to the front of the
list and the timer is armed; after `maxRetries` rejections the command is freed.

The callbacks of the event loop run one after the other, so the daemon is the
system `step` over `Event`: a command is queued, the timer expires, or bytes
arrive on the serial line.  The bytes of a reply may arrive in any pieces.

Beside the daemon's own variables the state keeps what happened so far: the
payloads queued, the frames written and the number of bytes received.  A command
carries the number of commands queued before it as its `id`; no code reads it.
-/
namespace TfPackages.Poe

/-- `MAX_RETRIES`. -/
def maxRetries : Nat := 5

/-- `struct cmd`, with its place in the order of queueing. -/
structure Cmd where
  id : Nat
  cmd : Frame
  numRetries : Nat
deriving DecidableEq, Repr

/-- The handlers `reply_handler` points to. -/
inductive ReplyHandler where
  | poeReplyStatus
  | poeReplyPowerStats
  | poeReplyPortExtConfig
  | poeReply4PortStatus
  | poeReplyPortPowerStats
deriving DecidableEq, Repr

/-- `reply_handler`: an array of 0x31 pointers, null where nothing is listed. -/
def replyHandler : List (Option ReplyHandler) := (List.range 0x31).map fun c =>
  match c with
  | 0x20 => some .poeReplyStatus
  | 0x23 => some .poeReplyPowerStats
  | 0x26 => some .poeReplyPortExtConfig
  | 0x28 => some .poeReply4PortStatus
  | 0x30 => some .poeReplyPortPowerStats
  | _ => none

/-- The handler listed for an id, if there is one. -/
def handlerOf (c : UInt8) : Option ReplyHandler := (replyHandler.getD c.toNat none)

/-- A frame written to the stream: which command, its bytes, and whether the
recovery timer was pending at that moment. -/
structure Sent where
  id : Nat
  frame : Frame
  timerPending : Bool
deriving DecidableEq, Repr

/-- The daemon's queue, timer and stream, and the record of what happened. -/
structure State where
  cmdPending : List Cmd
  cmdSeq : UInt8
  /-- `state.mcu_error_timeout.pending` -/
  mcuErrorTimeout : Bool
  /-- The stream's read buffer. -/
  readBuf : List UInt8
  /-- The payloads queued so far. -/
  payloads : List (List UInt8)
  /-- The frames written so far. -/
  sent : List Sent
  /-- The number of bytes received so far. -/
  received : Nat
  /-- The indices used into `reply_handler` so far. -/
  indexed : List Nat
  /-- The reply handlers run so far, with the reply they were given. -/
  handled : List (ReplyHandler × Frame)
deriving DecidableEq, Repr

/-- The state when `uloop` and the stream have been set up. -/
def initial : State where
  cmdPending := []
  cmdSeq := 0
  mcuErrorTimeout := false
  readBuf := []
  payloads := []
  sent := []
  received := 0
  indexed := []
  handled := []

/-- `poe_cmd_send`: refuses while the recovery timer is pending. -/
def poeCmdSend (s : State) (c : Cmd) : State :=
  if s.mcuErrorTimeout then s
  else { s with sent := s.sent ++ [⟨c.id, c.cmd, s.mcuErrorTimeout⟩] }

/-- `poe_cmd_next`: sends the first command of the list, if there is one. -/
def poeCmdNext (s : State) : State :=
  match s.cmdPending with
  | [] => s
  | c :: _ => poeCmdSend s c

/-- `poe_cmd_queue`: builds the frame, appends the command, and sends it at once
if the list was empty. -/
def poeCmdQueue (s : State) (payload : List UInt8) : State :=
  let empty := s.cmdPending.isEmpty
  let seq := s.cmdSeq + 1
  let c : Cmd := ⟨s.payloads.length, buildFrame payload seq, 0⟩
  let s := { s with
    cmdSeq := seq
    cmdPending := s.cmdPending ++ [c]
    payloads := s.payloads ++ [payload] }
  if empty then poeCmdSend s c else s

/-- `mcu_clear_timeout`, called by the event loop with the timer no longer
pending. -/
def mcuClearTimeout (s : State) : State := poeCmdNext s

/-- `handle_poe_f0_reply`, for a command already taken off the list. -/
def handlePoeF0Reply (s : State) (c : Cmd) : State :=
  if s.mcuErrorTimeout then
    { s with cmdPending := c :: s.cmdPending }
  else
    let c := { c with numRetries := c.numRetries + 1 }
    if c.numRetries > maxRetries then s
    else { s with mcuErrorTimeout := true, cmdPending := c :: s.cmdPending }

/-- The end of `poe_reply_consume`: the handler of `id` is looked up and run. -/
def runReplyHandler (s : State) (id : UInt8) (reply : Frame) : State :=
  { s with
    indexed := s.indexed ++ [id.toNat]
    handled := s.handled ++ ((handlerOf id).map fun h => (h, reply.withId id)).toList }

/-- `poe_reply_consume`.  The first command is taken off the list whatever the
reply says; only a rejection puts it back. -/
def poeReplyConsume (s : State) (reply : Frame) : State :=
  match s.cmdPending with
  | [] => s
  | c :: rest =>
    let s := { s with cmdPending := rest }
    if reply.byte 11 ≠ checksum reply then s
    else if reply.byte 0 &&& 0xf0 = 0xf0 then handlePoeF0Reply s c
    else
      let cmdId := rtlToBcmCmdId (c.cmd.byte 0)
      let id := rtlToBcmCmdId (reply.byte 0)
      if id ≠ cmdId ∨ id.toNat > replyHandler.length then s
      else if reply.byte 1 ≠ c.cmd.byte 1 then s
      else runReplyHandler s id reply

/-- The reply at the front of the read buffer. -/
def firstReply (buf : List UInt8) : Frame := Vector.ofFn fun i => buf.getD i 0

/-- `poe_stream_msg_cb`: waits for a whole reply, consumes one, sends the next
command. -/
def poeStreamMsgCb (s : State) : State :=
  if s.readBuf.length < 12 then s
  else
    let s := poeReplyConsume s (firstReply s.readBuf)
    let s := { s with readBuf := s.readBuf.drop 12 }
    poeCmdNext s

/-- What the event loop can run. -/
inductive Event where
  /-- A caller queues a command. -/
  | queue (payload : List UInt8)
  /-- `mcu_error_timeout` expires. -/
  | expire
  /-- Bytes arrive from the controller. -/
  | receive (bytes : List UInt8)

/-- One callback of the event loop.  A timer that is not pending cannot expire. -/
def step (s : State) : Event → State
  | .queue payload => poeCmdQueue s payload
  | .expire =>
    if s.mcuErrorTimeout then mcuClearTimeout { s with mcuErrorTimeout := false } else s
  | .receive bytes =>
    poeStreamMsgCb
      { s with readBuf := s.readBuf ++ bytes, received := s.received + bytes.length }

/-- The frames whose twelve-byte reply has not arrived in full. -/
def unanswered (s : State) : List Sent := s.sent.drop (s.received / 12)

/-- The controller sends one twelve-byte reply per frame, of any content, in any
pieces: it never runs ahead of the frames written. -/
def Solicited (s : State) : Event → Prop
  | .receive bytes => s.received + bytes.length ≤ 12 * s.sent.length
  | _ => True

instance (s : State) (e : Event) : Decidable (Solicited s e) := by
  cases e <;> unfold Solicited <;> infer_instance

/-- The log entry of a transmission of `c`. -/
def Cmd.toSent (c : Cmd) : Sent := ⟨c.id, c.cmd, false⟩

/-- The command whose reply the daemon is waiting for. -/
def awaiting (s : State) : List Cmd :=
  if s.mcuErrorTimeout then [] else s.cmdPending.take 1

/-! ## What the callbacks change -/

/-- `poe_cmd_next` only writes to the stream: the frame of the first command,
unless the timer is pending. -/
theorem poeCmdNext_eq (s : State) :
    poeCmdNext s = { s with sent := s.sent ++ (awaiting s).map Cmd.toSent } := by
  unfold poeCmdNext awaiting poeCmdSend
  by_cases h : s.mcuErrorTimeout = true
  · rw [if_pos h, List.map_nil, List.append_nil]
    split
    · rfl
    · rw [if_pos h]
  · rw [if_neg h]
    split
    · rename_i hp
      rw [hp, List.take_nil, List.map_nil, List.append_nil, ← hp]
    · rename_i c rest hp
      rw [if_neg h, hp, Bool.not_eq_true _ |>.mp h]
      rfl

/-- `poe_cmd_queue` appends a command; on an empty list that is followed by
`poe_cmd_next`. -/
theorem poeCmdQueue_eq (s : State) (payload : List UInt8) :
    poeCmdQueue s payload =
      (let t : State := { s with
        cmdSeq := s.cmdSeq + 1
        cmdPending := s.cmdPending ++ [⟨s.payloads.length, buildFrame payload (s.cmdSeq + 1), 0⟩]
        payloads := s.payloads ++ [payload] }
      if s.cmdPending = [] then poeCmdNext t else t) := by
  unfold poeCmdQueue
  by_cases h : s.cmdPending = []
  · simp [h, poeCmdNext]
  · simp [h]

/-- **What a reply does to the queue.**  The first command leaves, whatever the
reply says, unless it is rejected for one of the first `maxRetries` times; then
it stays first and the timer is armed. -/
theorem poeReplyConsume_cases {s : State} {c : Cmd} {rest : List Cmd} (reply : Frame)
    (hp : s.cmdPending = c :: rest) (ht : s.mcuErrorTimeout = false) :
    (∃ ix hd, poeReplyConsume s reply =
        { s with cmdPending := rest, indexed := ix, handled := hd }) ∨
      (c.numRetries < maxRetries ∧ poeReplyConsume s reply =
        { s with
          mcuErrorTimeout := true
          cmdPending := { c with numRetries := c.numRetries + 1 } :: rest }) := by
  unfold poeReplyConsume
  rw [hp]
  simp only
  split
  · exact Or.inl ⟨_, _, rfl⟩
  split
  · unfold handlePoeF0Reply
    simp only [ht, Bool.false_eq_true, if_false]
    split
    · exact Or.inl ⟨_, _, rfl⟩
    · exact Or.inr ⟨by omega, rfl⟩
  split
  · exact Or.inl ⟨_, _, rfl⟩
  split
  · exact Or.inl ⟨_, _, rfl⟩
  · exact Or.inl ⟨_, _, rfl⟩

end TfPackages.Poe
