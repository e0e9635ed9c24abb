import TfPackages.PoeQueue

/-! # Which command ids survive the translation

A command keeps the frame that was built when it was queued, whatever arrives on
the serial line: `Recorded` ties every queued and every transmitted frame to the
payload it was built from, in all runs of the daemon.  With the table of
`PoeFrames` this decides what a Broadcom id is transmitted as and which reply
handler its reply reaches.
-/
namespace TfPackages.Poe

/-- `frame` is what `poe_cmd_queue` built for the command number `id`. -/
def BuiltFor (s : State) (id : Nat) (frame : Frame) : Prop :=
  ∃ payload, s.payloads[id]? = some payload ∧ frame = buildFrame payload (UInt8.ofNat (id + 1))

/-- Every frame, waiting or transmitted, is the one built when its command was
queued. -/
structure Recorded (s : State) : Prop where
  seq : s.cmdSeq = UInt8.ofNat s.payloads.length
  pending : ∀ c ∈ s.cmdPending, BuiltFor s c.id c.cmd
  sent : ∀ t ∈ s.sent, BuiltFor s t.id t.frame

theorem recorded_initial : Recorded initial := by
  constructor <;> simp [initial]

/-- A new payload does not change what the earlier ones are. -/
theorem BuiltFor.append {s t : State} {id : Nat} {frame : Frame} {payload : List UInt8}
    (h : BuiltFor s id frame) (ht : t.payloads = s.payloads ++ [payload]) :
    BuiltFor t id frame := by
  obtain ⟨p, hp, hf⟩ := h
  refine ⟨p, ?_, hf⟩
  rw [ht, List.getElem?_append_left (List.getElem?_eq_some_iff.mp hp).1, hp]

/-- `poe_cmd_next` writes a frame of the list. -/
theorem Recorded.next {s : State} (h : Recorded s) : Recorded (poeCmdNext s) := by
  rw [poeCmdNext_eq]
  refine ⟨h.seq, h.pending, ?_⟩
  intro t ht
  rcases List.mem_append.mp ht with ht | ht
  · exact h.sent t ht
  · obtain ⟨c, hc, rfl⟩ := List.mem_map.mp ht
    refine h.pending c ?_
    unfold awaiting at hc
    split at hc
    · cases hc
    · exact List.mem_of_mem_take hc

theorem Recorded.queue {s : State} (h : Recorded s) (payload : List UInt8) :
    Recorded (poeCmdQueue s payload) := by
  rw [poeCmdQueue_eq]
  -- the command's number is its index in `payloads`, its sequence number the next byte
  have hseq : s.cmdSeq + 1 = UInt8.ofNat (s.payloads.length + 1) := by
    rw [h.seq, UInt8.ofNat_add]
    rfl
  have key : Recorded { s with
      cmdSeq := s.cmdSeq + 1
      cmdPending := s.cmdPending ++ [⟨s.payloads.length, buildFrame payload (s.cmdSeq + 1), 0⟩]
      payloads := s.payloads ++ [payload] } := by
    refine ⟨?_, ?_, fun t ht => (h.sent t ht).append rfl⟩
    · simpa using hseq
    · intro c hc
      rcases List.mem_append.mp hc with hc | hc
      · exact (h.pending c hc).append rfl
      · rw [List.mem_singleton.mp hc]
        exact ⟨payload, by simp, by rw [hseq]⟩
  simp only
  split
  · exact key.next
  · exact key

/-- A command the controller answers is dropped or put back with its own frame. -/
theorem poeReplyConsume_cmdPending (s : State) (reply : Frame) :
    ∀ c ∈ (poeReplyConsume s reply).cmdPending,
      ∃ d ∈ s.cmdPending, c.id = d.id ∧ c.cmd = d.cmd := by
  intro c hc
  unfold poeReplyConsume at hc
  split at hc
  · exact ⟨c, hc, rfl, rfl⟩
  · rename_i d rest hp
    have hrest : c ∈ rest → ∃ d ∈ s.cmdPending, c.id = d.id ∧ c.cmd = d.cmd :=
      fun hc => ⟨c, by rw [hp]; exact List.mem_cons_of_mem _ hc, rfl, rfl⟩
    have hd : d ∈ s.cmdPending := by rw [hp]; exact List.mem_cons_self
    simp only [handlePoeF0Reply, runReplyHandler] at hc
    split_ifs at hc
    · exact hrest hc
    · rcases List.mem_cons.mp hc with rfl | hc
      · exact ⟨c, hd, rfl, rfl⟩
      · exact hrest hc
    · exact hrest hc
    · rcases List.mem_cons.mp hc with rfl | hc
      · exact ⟨d, hd, rfl, rfl⟩
      · exact hrest hc
    · exact hrest hc
    · exact hrest hc
    · exact hrest hc

/-- Consuming a reply writes nothing to the stream and queues nothing. -/
theorem poeReplyConsume_frame (s : State) (reply : Frame) :
    (poeReplyConsume s reply).sent = s.sent ∧
      (poeReplyConsume s reply).payloads = s.payloads ∧
      (poeReplyConsume s reply).cmdSeq = s.cmdSeq := by
  unfold poeReplyConsume
  split
  · exact ⟨rfl, rfl, rfl⟩
  · simp only [handlePoeF0Reply, runReplyHandler]
    split_ifs <;> exact ⟨rfl, rfl, rfl⟩

theorem Recorded.reply {s : State} (h : Recorded s) (reply : Frame) :
    Recorded (poeReplyConsume s reply) := by
  obtain ⟨hsent, hpay, hseq⟩ := poeReplyConsume_frame s reply
  refine ⟨?_, ?_, ?_⟩
  · rw [hseq, hpay]
    exact h.seq
  · intro c hc
    obtain ⟨d, hd, hid, hcmd⟩ := poeReplyConsume_cmdPending s reply c hc
    obtain ⟨p, hp, hf⟩ := h.pending d hd
    exact ⟨p, by rw [hpay, hid, hp], by rw [hcmd, hid, hf]⟩
  · intro t ht
    rw [hsent] at ht
    obtain ⟨p, hp, hf⟩ := h.sent t ht
    exact ⟨p, by rw [hpay, hp], hf⟩

/-- **Every callback keeps the frames as they were built.** -/
theorem recorded_step (s : State) (e : Event) (h : Recorded s) : Recorded (step s e) := by
  cases e with
  | queue payload => exact h.queue payload
  | expire =>
    simp only [step, mcuClearTimeout]
    split
    · exact Recorded.next ⟨h.seq, h.pending, h.sent⟩
    · exact h
  | receive bytes =>
    simp only [step, poeStreamMsgCb]
    split
    · exact ⟨h.seq, h.pending, h.sent⟩
    · have hr := Recorded.reply (s := { s with
        readBuf := s.readBuf ++ bytes, received := s.received + bytes.length })
        ⟨h.seq, h.pending, h.sent⟩ (firstReply (s.readBuf ++ bytes))
      exact Recorded.next ⟨hr.seq, hr.pending, hr.sent⟩

theorem recorded_exec (es : List Event) : Recorded (Runs.exec step initial es) :=
  (Runs.always_of_step recorded_step recorded_initial es).last

/-! ## Ids on the wire and handlers of replies -/

/-- A reply that echoes the id and the sequence number of the first command, with
a correct checksum, runs exactly the handler listed for `c`, in every state of
the daemon whose first command has this frame. -/
def ReplyRuns (frame : Frame) (c : UInt8) : Prop :=
  ∀ (s : State) (cmd : Cmd) (rest : List Cmd) (reply : Frame),
    s.cmdPending = cmd :: rest → cmd.cmd = frame →
    reply.byte 0 = frame.byte 0 → reply.byte 1 = frame.byte 1 → reply.byte 11 = checksum reply →
    (poeReplyConsume s reply).handled.map Prod.fst =
      s.handled.map Prod.fst ++ (handlerOf c).toList

/-- What the translation promises for the id `c` and the sequence number `seq`. -/
structure Translated (frame : Frame) (c seq : UInt8) : Prop where
  id : frame.byte 0 = entry bcmToRtlInit c
  seq : frame.byte 1 = seq
  checksum : frame.byte 11 = checksum frame
  reply : ReplyRuns frame c

/-- The Realtek ids lead back to the handlers of their Broadcom ids: there is a
handler only where the inverse entry is in place. -/
theorem handlerOf_inverse {c : UInt8} (hc : entry bcmToRtlInit c ≠ 0) (hr : c ∉ rtlIds) :
    handlerOf (rtlToBcmCmdId (entry bcmToRtlInit c)) = handlerOf c ∧
      entry bcmToRtlInit c &&& 0xf0 ≠ 0xf0 ∧
      (rtlToBcmCmdId (entry bcmToRtlInit c)).toNat ≤ replyHandler.length := by
  have key : ∀ c ∈ bcmIds, c ∉ rtlIds →
      handlerOf (rtlToBcmCmdId (entry bcmToRtlInit c)) = handlerOf c ∧
        entry bcmToRtlInit c &&& 0xf0 ≠ 0xf0 ∧
        (rtlToBcmCmdId (entry bcmToRtlInit c)).toNat ≤ replyHandler.length := by
    unfold rtlToBcmCmdId bcmToRtlCmdId
    rw [bcmToRtlMap_eq, rtlIds_eq]
    simp only [bcmToRtlInit, entry_map_range]
    decide +kernel
  exact key c ((mem_bcmIds_iff c).mpr hc) hr

theorem replyRuns_of_id {frame : Frame} {c : UInt8} (hc : entry bcmToRtlInit c ≠ 0)
    (hr : c ∉ rtlIds) (hid : frame.byte 0 = entry bcmToRtlInit c) : ReplyRuns frame c := by
  intro s cmd rest reply hp hcmd h0 h1 hsum
  obtain ⟨hh, hf, hlen⟩ := handlerOf_inverse hc hr
  subst hcmd
  unfold poeReplyConsume
  rw [hp]
  simp only
  rw [if_neg (by simpa using hsum), if_neg (by rw [h0, hid]; exact hf), if_neg, if_neg]
  · simp only [runReplyHandler, h0, hid, hh, List.map_append, List.append_cancel_left_eq]
    cases handlerOf c <;> rfl
  · simpa using h1
  · rw [h0, hid]
    rintro (hne | hgt)
    · exact hne rfl
    · omega

/-- **The translation holds exactly for the ids that are not Realtek ids too.**
For every run of the daemon and every frame it transmitted for a command whose
Broadcom id the table lists. -/
theorem translated_iff (es : List Event) {t : Sent} {c : UInt8} {rest : List UInt8}
    (ht : t ∈ (Runs.exec step initial es).sent)
    (hp : (Runs.exec step initial es).payloads[t.id]? = some (c :: rest))
    (hc : entry bcmToRtlInit c ≠ 0) :
    Translated t.frame c (UInt8.ofNat (t.id + 1)) ↔ c ∉ rtlIds := by
  obtain ⟨payload, hpay, hframe⟩ := (recorded_exec es).sent t ht
  obtain rfl : c :: rest = payload := Option.some.inj (hp.symm.trans hpay)
  have hid : t.frame.byte 0 = bcmToRtlCmdId c := by
    rw [hframe, buildFrame_id]
    rfl
  constructor
  · intro h
    exact (bcmToRtlCmdId_eq_iff hc).mp (hid.symm.trans h.id)
  · intro hr
    have h0 : t.frame.byte 0 = entry bcmToRtlInit c := hid.trans ((bcmToRtlCmdId_eq_iff hc).mpr hr)
    refine ⟨h0, ?_, ?_, replyRuns_of_id hc hr h0⟩
    · rw [hframe, buildFrame_seq]
    · rw [hframe, buildFrame_checksum]

/-- The first command that is queued is transmitted at once. -/
theorem sent_first (payload : List UInt8) :
    (Runs.exec step initial [.queue payload]).sent = [⟨0, buildFrame payload 1, false⟩] := rfl

theorem payloads_first (payload : List UInt8) :
    (Runs.exec step initial [.queue payload]).payloads = [payload] := rfl

/-- "Get system info", `0x20`, is transmitted as `0x40`. -/
theorem translated_get_system_info :
    Translated (buildFrame [0x20] 1) 0x20 1 :=
  (@translated_iff [.queue [0x20]] ⟨0, buildFrame [0x20] 1, false⟩ 0x20 []
    (by rw [sent_first]; exact List.mem_cons_self) (by rw [payloads_first]; rfl)
    ((mem_bcmIds_iff 0x20).mp (by decide))).mpr (by rw [rtlIds_eq]; decide)

/-- "Set port detection type", `0x10`, is transmitted as `0x17` and not as `0x09`. -/
theorem set_detection_type_not_translated :
    ∃ t ∈ (Runs.exec step initial [.queue [0x10, 0, 0x7f, 3]]).sent,
      (Runs.exec step initial [.queue [0x10, 0, 0x7f, 3]]).payloads[t.id]? =
        some [0x10, 0, 0x7f, 3] ∧
      entry bcmToRtlInit 0x10 = 0x09 ∧ t.frame.byte 0 = 0x17 ∧
      ¬ Translated t.frame 0x10 (UInt8.ofNat (t.id + 1)) := by
  have hinit : entry bcmToRtlInit 0x10 = 0x09 := by
    rw [bcmToRtlInit, entry_map_range]
    rfl
  have hid : (buildFrame [0x10, 0, 0x7f, 3] 1).byte 0 = 0x17 := by
    rw [buildFrame_id, bcmToRtlCmdId, bcmToRtlMap_eq, entry_map_range]
    decide
  refine ⟨⟨0, buildFrame [0x10, 0, 0x7f, 3] 1, false⟩, ?_, ?_, hinit, hid, fun h => ?_⟩
  · rw [sent_first]
    exact List.mem_cons_self
  · rw [payloads_first]
    rfl
  · have heq := hid.symm.trans h.id
    rw [hinit] at heq
    exact absurd heq (by decide)

end TfPackages.Poe
