import TfPackages.PoeQueue
import TfPackages.StopAndWait

/-! # The PoE daemon is a stop-and-wait sender

`abs` reads the daemon's state as a `StopAndWait.Sender`: the commands that have
left, the commands queued, the rejections of the first one, the recovery timer
and the commands on the wire so far.  `Wire` ties the list, the timer and the
serial line together: the one frame that may be unanswered is that of the first
command, and there is none while the timer is pending.  `wire_step` shows that
every callback keeps `Wire` and is one step of the sender, provided the
controller sends no more than one reply per frame; the order of transmission and
the bound on their number then come from `StopAndWait.Inv`.
-/
namespace TfPackages.Poe

/-- The sender the daemon's queue stands for. -/
def abs (s : State) : StopAndWait.Sender where
  left := s.payloads.length - s.cmdPending.length
  queued := s.payloads.length
  retries := (s.cmdPending.head?.map Cmd.numRetries).getD 0
  backoff := s.mcuErrorTimeout
  log := s.sent.map Sent.id

/-- List, timer and serial line fit together. -/
structure Wire (s : State) : Prop where
  /-- The commands of the list are the last ones queued, in order. -/
  ids : s.cmdPending.map Cmd.id =
    List.range' (s.payloads.length - s.cmdPending.length) s.cmdPending.length
  len : s.cmdPending.length ≤ s.payloads.length
  /-- Only the first command of the list can have been rejected. -/
  fresh : ∀ c ∈ s.cmdPending.tail, c.numRetries = 0
  armed : s.mcuErrorTimeout = true → s.cmdPending ≠ []
  /-- The first command, and only it, is on the wire. -/
  answered : s.sent.length = s.received / 12 + (awaiting s).length
  unanswered : unanswered s = (awaiting s).map Cmd.toSent
  buffered : s.readBuf.length = s.received % 12
  unarmed : ∀ t ∈ s.sent, t.timerPending = false

theorem wire_initial : Wire initial := by
  constructor <;> simp [initial, awaiting, unanswered]

/-! ## Transmitting the first command

All three senders write to a silent line: everything transmitted has been
answered.  `Quiet` is `Wire` for a line with nothing on it, and `wire_next` is
the step they share. -/

/-- Everything transmitted has been answered. -/
structure Quiet (s : State) : Prop where
  ids : s.cmdPending.map Cmd.id =
    List.range' (s.payloads.length - s.cmdPending.length) s.cmdPending.length
  len : s.cmdPending.length ≤ s.payloads.length
  fresh : ∀ c ∈ s.cmdPending.tail, c.numRetries = 0
  armed : s.mcuErrorTimeout = true → s.cmdPending ≠ []
  answered : s.sent.length = s.received / 12
  buffered : s.readBuf.length = s.received % 12
  unarmed : ∀ t ∈ s.sent, t.timerPending = false

theorem Wire.quiet {s : State} (h : Wire s) (ha : awaiting s = []) : Quiet s where
  ids := h.ids
  len := h.len
  fresh := h.fresh
  armed := h.armed
  answered := by rw [h.answered, ha]; rfl
  buffered := h.buffered
  unarmed := h.unarmed

/-- `poe_cmd_next` on a silent line puts the first command on it. -/
theorem wire_next {s : State} (h : Quiet s) : Wire (poeCmdNext s) := by
  rw [poeCmdNext_eq]
  refine ⟨h.ids, h.len, h.fresh, h.armed, ?_, ?_, h.buffered, ?_⟩
  · rw [List.length_append, List.length_map, h.answered]
    rfl
  · exact List.drop_left' h.answered
  · intro t ht
    rcases List.mem_append.mp ht with ht | ht
    · exact h.unarmed t ht
    · obtain ⟨c, -, rfl⟩ := List.mem_map.mp ht
      rfl

theorem abs_next (s : State) :
    abs (poeCmdNext s) = { abs s with log := (abs s).log ++ (awaiting s).map Cmd.id } := by
  rw [poeCmdNext_eq]
  ext1 <;> try rfl
  simp only [abs, List.map_append, List.map_map]
  rfl

/-- The number of the first command of the list. -/
theorem Quiet.head_id {s : State} (h : Quiet s) {c : Cmd} {rest : List Cmd}
    (hp : s.cmdPending = c :: rest) : c.id = (abs s).left := by
  have hids := h.ids
  rw [hp, List.length_cons, List.range'_succ, List.map_cons] at hids
  rw [(List.cons.inj hids).1, abs, hp]
  rfl

/-- What `poe_cmd_next` transmits on a silent line. -/
theorem Quiet.awaiting_ids {s : State} (h : Quiet s) (ht : s.mcuErrorTimeout = false) :
    (awaiting s).map Cmd.id = if (abs s).left < (abs s).queued then [(abs s).left] else [] := by
  have hlen := h.len
  cases hp : s.cmdPending with
  | nil =>
    have hnone : ¬ (abs s).left < (abs s).queued := by
      simp only [abs, hp, List.length_nil]
      omega
    rw [if_neg hnone]
    simp [awaiting, hp]
  | cons c rest =>
    rw [hp, List.length_cons] at hlen
    have hlt : (abs s).left < (abs s).queued := by
      simp only [abs, hp, List.length_cons]
      omega
    rw [if_pos hlt, ← h.head_id hp]
    simp [awaiting, hp, ht]

/-! ## One callback -/

/-- The numbering stays an interval when a command is appended. -/
theorem Wire.ids_append {s : State} (h : Wire s) (c : Cmd) (hc : c.id = s.payloads.length) :
    (s.cmdPending ++ [c]).map Cmd.id =
      List.range' (s.payloads.length - s.cmdPending.length) (s.cmdPending.length + 1) := by
  have hlen := h.len
  rw [List.map_append, h.ids, List.range'_concat, List.map_singleton, hc, Nat.one_mul,
    Nat.sub_add_cancel hlen]

/-- Queueing keeps the line in order and is a step of the sender. -/
theorem wire_queue {s : State} (h : Wire s) (payload : List UInt8) :
    Wire (poeCmdQueue s payload) ∧
      StopAndWait.Step maxRetries (abs s) (abs (poeCmdQueue s payload)) := by
  have hlen := h.len
  rw [poeCmdQueue_eq]
  simp only
  by_cases hp : s.cmdPending = []
  · -- the list is empty, so nothing is on the line and the command goes out at once
    rw [if_pos hp]
    have ht : s.mcuErrorTimeout = false := by
      by_contra hne
      exact h.armed (by simpa using hne) hp
    have ha : awaiting s = [] := by simp [awaiting, hp]
    have hq := h.quiet ha
    constructor
    · refine wire_next ⟨?_, ?_, ?_, fun _ => ?_, hq.answered, hq.buffered, hq.unarmed⟩
      · simp [hp]
      · simp [hp]
      · simp [hp]
      · simp
    · rw [abs_next]
      have hidle : (abs s).left = (abs s).queued := by simp [abs, hp]
      have hstep : StopAndWait.Step maxRetries (abs s) _ := .enqueueFirst hidle
      simpa [abs, awaiting, hp, ht] using hstep
  · rw [if_neg hp]
    have hpos : 0 < s.cmdPending.length := List.length_pos_iff.mpr hp
    have ha : (s.cmdPending ++
          [(⟨s.payloads.length, buildFrame payload (s.cmdSeq + 1), 0⟩ : Cmd)]).take 1
        = s.cmdPending.take 1 := List.take_append_of_le_length hpos
    constructor
    · refine ⟨?_, ?_, ?_, fun _ => ?_, ?_, ?_, h.buffered, h.unarmed⟩
      · rw [List.length_append, List.length_append, List.length_singleton, List.length_singleton,
          Nat.add_sub_add_right]
        exact h.ids_append _ rfl
      · simpa using hlen
      · intro c hc
        rw [List.tail_append_of_ne_nil hp] at hc
        rcases List.mem_append.mp hc with hc | hc
        · exact h.fresh c hc
        · rw [List.mem_singleton.mp hc]
      · simp
      · simpa [awaiting, ha] using h.answered
      · simpa [awaiting, ha, unanswered] using h.unanswered
    · have hlt : (abs s).left < (abs s).queued := by
        simp only [abs]
        omega
      have hstep : StopAndWait.Step maxRetries (abs s) _ := .enqueue hlt
      simpa [abs, List.head?_append_of_ne_nil _ hp] using hstep

/-- The expiry of the timer puts the rejected command back on the line. -/
theorem wire_expire {s : State} (h : Wire s) :
    Wire (step s .expire) ∧ StopAndWait.Step maxRetries (abs s) (abs (step s .expire)) := by
  by_cases ht : s.mcuErrorTimeout = true
  · simp only [step, ht, if_true, mcuClearTimeout]
    have hq := h.quiet (by simp [awaiting, ht])
    obtain ⟨c, rest, hp⟩ := List.exists_cons_of_ne_nil (h.armed ht)
    constructor
    · exact wire_next ⟨hq.ids, hq.len, hq.fresh, fun hf => by simp at hf, hq.answered, hq.buffered,
        hq.unarmed⟩
    · have hlt : (abs s).left < (abs s).queued := by
        have := h.len
        simp only [abs, hp, List.length_cons] at this ⊢
        omega
      have hlog : (awaiting { s with mcuErrorTimeout := false }).map Cmd.id = [(abs s).left] := by
        rw [← hq.head_id hp]
        simp [awaiting, hp]
      rw [abs_next, hlog]
      exact StopAndWait.Step.resume hlt ht
  · simp only [step, ht]
    exact ⟨h, StopAndWait.Step.idle⟩

/-- Bytes that do not complete a reply only wait in the read buffer. -/
theorem wire_fragment {s : State} (h : Wire s) {bytes : List UInt8}
    (hb : s.readBuf.length + bytes.length < 12) :
    Wire { s with readBuf := s.readBuf ++ bytes, received := s.received + bytes.length } := by
  have hbuf := h.buffered
  have hdiv : (s.received + bytes.length) / 12 = s.received / 12 := by omega
  refine ⟨h.ids, h.len, h.fresh, h.armed, ?_, ?_, ?_, h.unarmed⟩
  · rw [hdiv]; exact h.answered
  · unfold Poe.unanswered
    rw [hdiv]
    exact h.unanswered
  · simp only [List.length_append]
    omega

/-- A whole reply answers the frame of the first command and nothing else. -/
theorem Wire.reply_answers {s : State} (h : Wire s) {bytes : List UInt8}
    (hs : Solicited s (.receive bytes)) (hb : ¬ s.readBuf.length + bytes.length < 12) :
    ∃ c rest, s.cmdPending = c :: rest ∧ s.mcuErrorTimeout = false ∧
      s.readBuf.length + bytes.length = 12 ∧
      s.sent.length = (s.received + bytes.length) / 12 ∧ (s.received + bytes.length) % 12 = 0 := by
  have hbuf := h.buffered
  have hans := h.answered
  simp only [Solicited] at hs
  unfold awaiting at hans
  cases ht : s.mcuErrorTimeout with
  | true =>
    rw [ht, if_pos rfl, List.length_nil] at hans
    omega
  | false =>
    rw [ht, if_neg (by simp)] at hans
    cases hp : s.cmdPending with
    | nil =>
      rw [hp, List.take_nil, List.length_nil] at hans
      omega
    | cons c rest =>
      rw [hp, List.take_succ_cons, List.take_zero, List.length_singleton] at hans
      exact ⟨c, rest, rfl, rfl, by omega, by omega, by omega⟩

/-- The state in which `poe_stream_msg_cb` calls `poe_cmd_next`. -/
def afterReply (s : State) (bytes : List UInt8) : State :=
  let t := { s with readBuf := s.readBuf ++ bytes, received := s.received + bytes.length }
  let t := poeReplyConsume t (firstReply t.readBuf)
  { t with readBuf := t.readBuf.drop 12 }

/-- `poeReplyConsume_cases` for a reply that was just completed. -/
theorem afterReply_cases {s : State} {c : Cmd} {rest : List Cmd} (bytes : List UInt8)
    (hp : s.cmdPending = c :: rest) (ht : s.mcuErrorTimeout = false) :
    (∃ ix hd, afterReply s bytes =
        { s with
          cmdPending := rest
          readBuf := (s.readBuf ++ bytes).drop 12, received := s.received + bytes.length
          indexed := ix, handled := hd }) ∨
      (c.numRetries < maxRetries ∧ afterReply s bytes =
        { s with
          mcuErrorTimeout := true
          cmdPending := { c with numRetries := c.numRetries + 1 } :: rest
          readBuf := (s.readBuf ++ bytes).drop 12, received := s.received + bytes.length }) := by
  rcases poeReplyConsume_cases
      (s := { s with readBuf := s.readBuf ++ bytes, received := s.received + bytes.length })
      (firstReply (s.readBuf ++ bytes)) hp ht with ⟨ix, hd, heq⟩ | ⟨hr, heq⟩
  · exact Or.inl ⟨ix, hd, by simp only [afterReply, heq]⟩
  · exact Or.inr ⟨hr, by simp only [afterReply, heq]⟩

theorem step_receive (s : State) (bytes : List UInt8) :
    step s (.receive bytes) =
      if s.readBuf.length + bytes.length < 12 then
        { s with readBuf := s.readBuf ++ bytes, received := s.received + bytes.length }
      else poeCmdNext (afterReply s bytes) := by
  simp only [step, poeStreamMsgCb, List.length_append, afterReply]

/-- After a reply the line is silent, and the sender has either disposed of its
first command or been told to wait. -/
theorem quiet_afterReply {s : State} (h : Wire s) {bytes : List UInt8}
    (hs : Solicited s (.receive bytes)) (hb : ¬ s.readBuf.length + bytes.length < 12) :
    Quiet (afterReply s bytes) ∧
      StopAndWait.Step maxRetries (abs s) (abs (poeCmdNext (afterReply s bytes))) := by
  obtain ⟨c, rest, hp, ht, hlen12, hsent, hmod⟩ := h.reply_answers hs hb
  have hlen := h.len
  rw [hp, List.length_cons] at hlen
  have hids := h.ids
  rw [hp, List.length_cons, List.range'_succ, List.map_cons] at hids
  obtain ⟨hcid, hrest⟩ := List.cons.inj hids
  have hlt : (abs s).left < (abs s).queued := by
    simp only [abs, hp, List.length_cons]
    omega
  have hdrop : (s.readBuf ++ bytes).drop 12 = [] :=
    List.drop_eq_nil_of_le (by rw [List.length_append]; omega)
  have hfresh : ∀ d ∈ rest, d.numRetries = 0 := fun d hd => h.fresh d (by rw [hp]; exact hd)
  rcases afterReply_cases bytes hp ht with ⟨ix, hd, hafter⟩ | ⟨hr, hafter⟩ <;> rw [hdrop] at hafter
  · -- the command leaves: the next one, if any, becomes the first
    have hquiet : Quiet (afterReply s bytes) := by
      rw [hafter]
      refine ⟨?_, by simp only; omega, fun d hd => hfresh d (List.mem_of_mem_tail hd),
        fun hf => ?_, hsent, ?_, h.unarmed⟩
      · rw [hrest]
        congr 1
        simp only
        omega
      · simp only [ht] at hf
        cases hf
      · simp only [List.length_nil]
        omega
    refine ⟨hquiet, ?_⟩
    have hstep : StopAndWait.Step maxRetries (abs s) _ :=
      .complete hlt (show (abs s).backoff = false from ht)
    rw [abs_next]
    have hleft : (abs (afterReply s bytes)).left = (abs s).left + 1 := by
      simp only [hafter, abs, hp, List.length_cons]
      omega
    have hlog := hquiet.awaiting_ids (by rw [hafter]; exact ht)
    rw [hleft, show (abs (afterReply s bytes)).queued = (abs s).queued by rw [hafter]; rfl] at hlog
    have hretries : (abs (afterReply s bytes)).retries = 0 := by
      simp only [hafter, abs]
      cases hr' : rest with
      | nil => rfl
      | cons d rest' => exact hfresh d (by rw [hr']; exact List.mem_cons_self)
    rw [hlog]
    convert hstep using 1
    ext1
    · exact hleft
    · rw [hafter]; rfl
    · exact hretries
    · rw [hafter]; rfl
    · rw [hafter]; rfl
  · -- the command is rejected: it stays first and the timer is armed
    refine ⟨?_, ?_⟩
    · rw [hafter]
      refine ⟨?_, by simpa using hlen, hfresh, fun _ => by simp, hsent, ?_, h.unarmed⟩
      · simpa [hp] using h.ids
      · simp only [List.length_nil]
        omega
    · have hstep := StopAndWait.Step.reject hlt (show (abs s).backoff = false from ht)
        (show (abs s).retries < maxRetries by simpa [abs, hp] using hr)
      rw [abs_next]
      convert hstep using 1
      ext1
      all_goals simp [hafter, abs, awaiting, hp]

/-- **Every callback keeps the line in order and is one step of the sender.** -/
theorem wire_step {s : State} {e : Event} (h : Wire s) (hs : Solicited s e) :
    Wire (step s e) ∧ StopAndWait.Step maxRetries (abs s) (abs (step s e)) := by
  cases e with
  | queue payload => exact wire_queue h payload
  | expire => exact wire_expire h
  | receive bytes =>
    rw [step_receive]
    by_cases hb : s.readBuf.length + bytes.length < 12
    · rw [if_pos hb]
      exact ⟨wire_fragment h hb, StopAndWait.Step.idle⟩
    · rw [if_neg hb]
      obtain ⟨hq, hstep⟩ := quiet_afterReply h hs hb
      exact ⟨wire_next hq, hstep⟩

/-! ## Whole runs -/

/-- What stop-and-wait promises of every state: at most one frame is unanswered
and it is that of the first command, no frame was written while the timer was
pending, commands were first transmitted in the order they were queued, and each
at most `maxRetries + 1` times. -/
structure OneOutstanding (s : State) : Prop where
  unanswered : unanswered s = [] ∨
    ∃ c rest, s.cmdPending = c :: rest ∧ unanswered s = [c.toSent]
  unarmed : ∀ t ∈ s.sent, t.timerPending = false
  in_order : ∀ i j, i < j → j ∈ s.sent.map Sent.id →
    i ∈ s.sent.map Sent.id ∧
      (s.sent.map Sent.id).idxOf i < (s.sent.map Sent.id).idxOf j
  bounded : ∀ i, (s.sent.map Sent.id).count i ≤ maxRetries + 1

/-- What stop-and-wait promises of every step: a command that leaves the queue
does so on the reply to its own frame, the last one that was unanswered. -/
def LeavesOnReply (s : State) (e : Event) : Prop :=
  ∀ c ∈ s.cmdPending, c.id ∉ (step s e).cmdPending.map Cmd.id →
    unanswered s = [c.toSent] ∧ s.sent.length = (step s e).received / 12 ∧
      ∃ bytes, e = .receive bytes

theorem oneOutstanding_of_wire {s : State} (h : Wire s) (hi : StopAndWait.Inv maxRetries (abs s)) :
    OneOutstanding s := by
  refine ⟨?_, h.unarmed, fun i j hij hj => hi.first_in_order hij hj, hi.count_le⟩
  rw [h.unanswered]
  unfold awaiting
  split
  · exact Or.inl rfl
  · cases hp : s.cmdPending with
    | nil => exact Or.inl rfl
    | cons c rest => exact Or.inr ⟨c, rest, rfl, rfl⟩

/-- The identities on the list after `poe_cmd_next` are those before it. -/
theorem poeCmdNext_cmdPending (s : State) : (poeCmdNext s).cmdPending = s.cmdPending := by
  rw [poeCmdNext_eq]

theorem leavesOnReply_of_wire {s : State} {e : Event} (h : Wire s) (hs : Solicited s e) :
    LeavesOnReply s e := by
  intro c hc hgone
  cases e with
  | queue payload =>
    exfalso
    apply hgone
    rw [step, poeCmdQueue_eq]
    refine List.mem_map_of_mem ?_
    split
    · rw [poeCmdNext_cmdPending]
      exact List.mem_append_left _ hc
    · exact List.mem_append_left _ hc
  | expire =>
    exfalso
    apply hgone
    refine List.mem_map_of_mem ?_
    simp only [step, mcuClearTimeout]
    split
    · rw [poeCmdNext_cmdPending]
      exact hc
    · exact hc
  | receive bytes =>
    rw [step_receive] at hgone ⊢
    by_cases hb : s.readBuf.length + bytes.length < 12
    · rw [if_pos hb] at hgone
      exact absurd (List.mem_map_of_mem hc) hgone
    · rw [if_neg hb, poeCmdNext_cmdPending] at hgone
      obtain ⟨d, rest, hp, ht, -, hsent, -⟩ := h.reply_answers hs hb
      -- every command but the first is still on the list
      have hcd : c = d := by
        rw [hp] at hc
        rcases List.mem_cons.mp hc with hcd | hc
        · exact hcd
        · rcases afterReply_cases bytes hp ht with ⟨ix, hd, hafter⟩ | ⟨-, hafter⟩ <;>
            rw [hafter] at hgone
          · exact absurd (List.mem_map_of_mem hc) hgone
          · exact absurd (List.mem_map_of_mem (List.mem_cons_of_mem _ hc)) hgone
      refine ⟨?_, ?_, bytes, rfl⟩
      · rw [h.unanswered, hcd]
        simp [awaiting, ht, hp]
      · rw [if_neg hb, poeCmdNext_eq, hsent]
        rcases afterReply_cases bytes hp ht with ⟨ix, hd, hafter⟩ | ⟨-, hafter⟩ <;> rw [hafter]

/-- **Stop-and-wait.**  For every order of queued commands, timer expiries and
received bytes, as long as the controller sends no more than one reply per frame:
every state keeps one frame outstanding at most, and commands leave only on the
reply to their own frame. -/
theorem stop_and_wait (es : List Event) (hes : Runs.Meets step Solicited initial es) :
    Runs.Always step OneOutstanding initial es ∧ Runs.Meets step LeavesOnReply initial es := by
  have hinv : Runs.Always step (fun s => Wire s ∧ StopAndWait.Inv maxRetries (abs s))
      initial es := by
    refine Runs.always_of_meets ?_ ⟨wire_initial, StopAndWait.inv_start maxRetries⟩ hes
    intro s e hi hs
    obtain ⟨hw, hstep⟩ := wire_step hi.1 hs
    exact ⟨hw, StopAndWait.inv_step hi.2 hstep⟩
  exact ⟨hinv.mono fun s hi => oneOutstanding_of_wire hi.1 hi.2,
    hinv.meets (fun s e hi hs => leavesOnReply_of_wire hi.1 hs) hes⟩

/-- Two commands, the first one answered in two pieces and then rejected. -/
theorem stop_and_wait_two_commands :
    Runs.Always step OneOutstanding initial
        [.queue [0x20], .queue [0x23], .receive [0xfd, 0, 0, 0, 0],
          .receive [0, 0, 0, 0, 0, 0, 0xfd], .expire] ∧
      Runs.Meets step LeavesOnReply initial
        [.queue [0x20], .queue [0x23], .receive [0xfd, 0, 0, 0, 0],
          .receive [0, 0, 0, 0, 0, 0, 0xfd], .expire] :=
  stop_and_wait _ (by decide +kernel)

end TfPackages.Poe
