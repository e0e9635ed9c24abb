import TfPackages.PoeConfig

/-! # Polling the PoE controller

The daemon queues the commands of its set-up once, and every two seconds those
that ask for the state of the controller and of each port.  `state_timeout_cb`
does not look at the queue: a poll adds its commands whatever is still pending,
and only a reply takes a command off the list.

So nothing bounds the list by itself: without replies it grows with every poll
(`pending_unbounded`).  With them it is bounded.  A reply that is not a rejection
takes the first command off, so where at least as many such replies are consumed
between two polls as a poll adds commands, the list never gets longer than at first
by more than the commands of one poll (`pending_bounded_while_answered`).
-/
namespace TfPackages.Poe

/-- `PORT_ID_ALL`. -/
def portIdAll : UInt8 := 0x7f

/-- The commands of a caller are queued one after the other. -/
def queueAll (s : State) (payloads : List (List UInt8)) : State := payloads.foldl poeCmdQueue s

/-- `poet_cmd_4_port`, for up to four ports; the places left are `0xff`. -/
def poetCmd4Port (id : UInt8) (data : List (UInt8 × UInt8)) : List UInt8 :=
  let filled := data ++ List.replicate (4 - data.length) (0xff, 0xff)
  id :: 0x00 :: filled.flatMap fun d => [d.1, d.2]

/-- The four commands `poet_setup` sends for a group of ports. -/
def poetGroup (group : List (Nat × PortConfig)) : List (List UInt8) :=
  let send := fun (id : UInt8) (data : PortConfig → UInt8) =>
    poetCmd4Port id (group.map fun p => (UInt8.ofNat p.1, data p.2))
  [send 0x1a (·.priority), send 0x1c (·.powerUpMode), send 0x11 fun _ => 1,
    send 0x15 fun p => if p.powerBudget ≠ 0 then 2 else 1]

/-- The loops of `poet_setup`: enabled ports are collected in groups of four, and
a group is sent when it is full and when the ports are at their end. -/
def poetSetup : List (Nat × PortConfig) → List (Nat × PortConfig) → List (List UInt8)
  | [], group => poetGroup group
  | (i, p) :: rest, group =>
    if !p.enable then poetSetup rest group
    else if (group ++ [(i, p)]).length = 4 then
      poetGroup (group ++ [(i, p)]) ++ if rest = [] then [] else poetSetup rest []
    else poetSetup rest (group ++ [(i, p)])

/-- The entries of the table that `port_count` covers, with their indices. -/
def Config.counted (c : Config) : List (Nat × PortConfig) :=
  (c.ports.toList.take c.portCount).zipIdx.map Prod.swap

/-- `poe_port_setup` -/
def poePortSetup (c : Config) : List (List UInt8) :=
  [[0x13, 0x00, portIdAll, 2], [0x10, 0x00, portIdAll, 3]] ++
    (c.counted.filter fun p => p.2.enable && p.2.powerBudget ≠ 0).map
      (fun p => [0x16, 0x00, UInt8.ofNat p.1, p.2.powerBudget]) ++
    poetSetup c.counted [] ++
    c.counted.map fun p => [0x00, 0x00, UInt8.ofNat p.1, if p.2.enable then 1 else 0]

/-- `poe_set_power_budget`, with `budget * 10` and `guard * 10` as they are
written into the command. -/
def poeSetPowerBudget (mask : UInt8) (budget guard : UInt16) : List (List UInt8) :=
  ((List.range 8).filter fun pse => mask.toNat.testBit pse).map fun pse =>
    [0x18, 0x00, UInt8.ofNat pse, (budget >>> 8).toUInt8, budget.toUInt8,
      (guard >>> 8).toUInt8, guard.toUInt8]

/-- `poe_initial_setup` -/
def poeInitialSetup (mask : UInt8) (budget guard : UInt16) (c : Config) : List (List UInt8) :=
  [[0x20], [0x17, 0x00, 2], [0x02, 0x00, 0]] ++ poeSetPowerBudget mask budget guard ++
    poePortSetup c

/-- The commands of `state_timeout_cb`. -/
def pollCommands (portCount : Nat) : List (List UInt8) :=
  [[0x23]] ++
    (List.range ((portCount + 3) / 4)).map (fun group => [0x28, 0x00, UInt8.ofNat group]) ++
    (List.range portCount).flatMap fun i =>
      [[0x26, 0x00, UInt8.ofNat i], [0x30, 0x00, UInt8.ofNat i]]

/-- `state_timeout_cb` -/
def stateTimeoutCb (portCount : Nat) (s : State) : State := queueAll s (pollCommands portCount)

/-- What happens between two requests on the bus. -/
inductive PollEvent where
  /-- `state_timeout` expires. -/
  | poll
  /-- `mcu_error_timeout` expires. -/
  | expire
  /-- Bytes arrive from the controller. -/
  | receive (bytes : List UInt8)
deriving DecidableEq, Repr

/-- One callback of the event loop while no request arrives. -/
def pollStep (portCount : Nat) (s : State) : PollEvent → State
  | .poll => stateTimeoutCb portCount s
  | .expire => step s .expire
  | .receive bytes => step s (.receive bytes)

/-- The number of polls of a run. -/
def polls (es : List PollEvent) : Nat := es.count .poll

/-- A reply is consumed that is not a rejection. -/
def ConsumesAnswer (s : State) : PollEvent → Prop
  | .receive bytes =>
    12 ≤ (s.readBuf ++ bytes).length ∧
      ¬ ((firstReply (s.readBuf ++ bytes)).byte 11 = checksum (firstReply (s.readBuf ++ bytes)) ∧
        (firstReply (s.readBuf ++ bytes)).byte 0 &&& 0xf0 = 0xf0)
  | _ => False

instance (s : State) (e : PollEvent) : Decidable (ConsumesAnswer s e) := by
  cases e <;> unfold ConsumesAnswer <;> infer_instance

/-- One callback, and the number of such replies since the last poll. -/
def countAnswers (portCount : Nat) (c : State × Nat) (e : PollEvent) : State × Nat :=
  (pollStep portCount c.1 e,
    if e = .poll then 0 else if ConsumesAnswer c.1 e then c.2 + 1 else c.2)

/-- When a poll begins, there have been as many as it adds commands. -/
def KeepsUp (portCount : Nat) (c : State × Nat) (e : PollEvent) : Prop :=
  e = .poll → (pollCommands portCount).length ≤ c.2

instance (portCount : Nat) (c : State × Nat) (e : PollEvent) :
    Decidable (KeepsUp portCount c e) :=
  inferInstanceAs (Decidable (_ → _))

/-! ## The length of the list -/

@[simp] theorem length_poeCmdNext (s : State) :
    (poeCmdNext s).cmdPending.length = s.cmdPending.length := by
  rw [poeCmdNext_eq]

theorem length_poeCmdQueue (s : State) (payload : List UInt8) :
    (poeCmdQueue s payload).cmdPending.length = s.cmdPending.length + 1 := by
  rw [poeCmdQueue_eq]
  simp only
  split
  · rw [length_poeCmdNext, List.length_append, List.length_singleton]
  · rw [List.length_append, List.length_singleton]

theorem length_queueAll (s : State) (payloads : List (List UInt8)) :
    (queueAll s payloads).cmdPending.length = s.cmdPending.length + payloads.length := by
  induction payloads generalizing s with
  | nil => rfl
  | cons p ps ih =>
    rw [queueAll, List.foldl_cons]
    refine (ih (poeCmdQueue s p)).trans ?_
    rw [length_poeCmdQueue, List.length_cons]
    omega

/-- A reply never makes the list longer. -/
theorem length_poeReplyConsume_le (s : State) (reply : Frame) :
    (poeReplyConsume s reply).cmdPending.length ≤ s.cmdPending.length := by
  unfold poeReplyConsume
  split
  · rfl
  rename_i c rest hp
  have hrest : rest.length ≤ s.cmdPending.length := by simp [hp]
  simp only
  split
  · exact hrest
  split
  · unfold handlePoeF0Reply
    simp only
    split
    · simp [hp]
    split
    · exact hrest
    · simp [hp]
  split
  · exact hrest
  split
  · exact hrest
  · exact hrest

/-- A reply that is not a rejection takes the first command off the list. -/
theorem length_poeReplyConsume_of_not_rejection {s : State} {reply : Frame}
    (h : ¬ (reply.byte 11 = checksum reply ∧ reply.byte 0 &&& 0xf0 = 0xf0)) :
    (poeReplyConsume s reply).cmdPending.length = s.cmdPending.length - 1 := by
  unfold poeReplyConsume
  split
  · rename_i hp
    simp [hp]
  rename_i c rest hp
  have hrest : rest.length = s.cmdPending.length - 1 := by simp [hp]
  simp only
  split
  · exact hrest
  rename_i hsum
  rw [if_neg fun hf => h ⟨not_not.mp hsum, hf⟩]
  split
  · exact hrest
  split
  · exact hrest
  · exact hrest

/-- **An answer makes the list shorter**, if there is anything on it. -/
theorem length_pollStep_of_consumesAnswer (n : Nat) {s : State} {e : PollEvent}
    (h : ConsumesAnswer s e) :
    (pollStep n s e).cmdPending.length = s.cmdPending.length - 1 := by
  cases e with
  | poll => exact h.elim
  | expire => exact h.elim
  | receive bytes =>
    show (step s (.receive bytes)).cmdPending.length = _
    simp only [step, poeStreamMsgCb]
    rw [if_neg (Nat.not_lt.mpr h.1), length_poeCmdNext]
    exact length_poeReplyConsume_of_not_rejection h.2

/-- A poll adds its commands; the other callbacks add none. -/
theorem length_pollStep_le (n : Nat) (s : State) (e : PollEvent) :
    (pollStep n s e).cmdPending.length ≤
      s.cmdPending.length + if e = .poll then (pollCommands n).length else 0 := by
  cases e with
  | poll => exact (length_queueAll s (pollCommands n)).le
  | expire =>
    show (step s .expire).cmdPending.length ≤ _
    simp only [step]
    split
    · rw [mcuClearTimeout, length_poeCmdNext]
      exact Nat.le_add_right _ _
    · exact Nat.le_add_right _ _
  | receive bytes =>
    show (step s (.receive bytes)).cmdPending.length ≤ _
    simp only [step, poeStreamMsgCb]
    split
    · exact Nat.le_add_right _ _
    · rw [length_poeCmdNext]
      exact (length_poeReplyConsume_le _ _).trans (Nat.le_add_right _ _)

theorem length_pollCommands (n : Nat) :
    (pollCommands n).length = 1 + (n + 3) / 4 + 2 * n := by
  simp only [pollCommands, List.length_append, List.length_map, List.length_range,
    List.length_flatMap, List.length_cons, List.length_nil, List.map_const',
    List.sum_replicate_nat]
  omega

/-- `port_count` stays within the table. -/
theorem portCount_configLoads_le (first : Contents) (rest : List Contents) :
    (configLoads first rest).portCount ≤ maxPort := by
  rw [portCount_configLoads_le_iff]
  intro x _ id hid
  obtain ⟨s, -, hs⟩ := List.mem_filterMap.mp hid
  exact (portId?_le hs).2

/-- A run of polls that nothing answers. -/
theorem length_exec_replicate_poll (n k : Nat) (s : State) :
    (Runs.exec (pollStep n) s (List.replicate k .poll)).cmdPending.length =
      s.cmdPending.length + k * (pollCommands n).length := by
  induction k generalizing s with
  | zero => simp [Runs.exec]
  | succ k ih =>
    rw [List.replicate_succ, Runs.exec, List.foldl_cons]
    refine (ih _).trans ?_
    rw [pollStep, stateTimeoutCb, length_queueAll, Nat.add_one_mul]
    omega

theorem length_exec_le (n : Nat) (s : State) (es : List PollEvent) :
    (Runs.exec (pollStep n) s es).cmdPending.length ≤
      s.cmdPending.length + polls es * (pollCommands n).length := by
  induction es generalizing s with
  | nil => exact Nat.le_add_right _ _
  | cons e es ih =>
    have hstep := length_pollStep_le n s e
    have hrest := ih (pollStep n s e)
    rw [polls, List.count_cons, Nat.add_mul]
    by_cases he : e = .poll
    · simp only [he, if_true] at hstep hrest
      simp only [he, beq_self_eq_true, if_true, Nat.one_mul]
      exact hrest.trans (by rw [polls]; omega)
    · rw [if_neg he] at hstep
      rw [if_neg (by simpa using he), Nat.zero_mul]
      exact hrest.trans (by rw [polls]; omega)

/-- **What is pending and what has been answered** together stay within the first length
and the commands of one poll. -/
theorem pending_add_answers_le {n B : Nat} (c : State × Nat) (e : PollEvent)
    (h : c.1.cmdPending.length + c.2 ≤ B + (pollCommands n).length ∨
      c.1.cmdPending.length = 0) (hup : KeepsUp n c e) :
    (countAnswers n c e).1.cmdPending.length + (countAnswers n c e).2 ≤
        B + (pollCommands n).length ∨
      (countAnswers n c e).1.cmdPending.length = 0 := by
  obtain ⟨s, answers⟩ := c
  have hstep := length_pollStep_le n s e
  by_cases he : e = .poll
  · -- the poll begins a new count
    have henough := hup he
    rw [if_pos he] at hstep
    refine .inl ?_
    simp only [countAnswers, if_pos he] at h henough hstep ⊢
    omega
  · rw [if_neg he] at hstep
    by_cases ha : ConsumesAnswer s e
    · have hlen := length_pollStep_of_consumesAnswer n ha
      simp only [countAnswers, if_neg he, if_pos ha, hlen] at h ⊢
      omega
    · simp only [countAnswers, if_neg he, if_neg ha] at h ⊢
      omega

/-- While the polls are answered, the list never outgrows its first length by more than the
commands of one poll. -/
theorem length_always_le {n : Nat} {s : State} {es : List PollEvent}
    (h : Runs.Meets (countAnswers n) (KeepsUp n) (s, (pollCommands n).length) es) :
    Runs.Always (pollStep n)
      (fun t => t.cmdPending.length ≤ s.cmdPending.length + (pollCommands n).length) s es := by
  have hrun := Runs.always_of_meets
    (fun c e => pending_add_answers_le (B := s.cmdPending.length) c e) (Or.inl le_rfl) h
  refine Runs.Always.map Prod.fst (fun _ _ => rfl) (hrun.mono fun c hc => ?_)
  omega

/-- No number bounds the list of a daemon that is set up and gets no answer. -/
theorem pending_unbounded :
    ¬ ∃ B, ∀ (first : Contents) (rest : List Contents) (mask : UInt8) (budget guard : UInt16)
      (es : List PollEvent),
      Runs.Always (pollStep (configLoads first rest).portCount)
        (fun s => s.cmdPending.length ≤ B)
        (queueAll initial (poeInitialSetup mask budget guard (configLoads first rest))) es := by
  rintro ⟨B, hB⟩
  have hlast := (hB ⟨none, none⟩ [] 0 0 0 (List.replicate (B + 1) .poll)).last
  rw [length_exec_replicate_poll, length_pollCommands] at hlast
  have hmul : B + 1 ≤ (B + 1) * (1 + ((configLoads ⟨none, none⟩ []).portCount + 3) / 4 +
      2 * (configLoads ⟨none, none⟩ []).portCount) := Nat.le_mul_of_pos_right _ (by omega)
  omega

/-- **What bounds the list.**  A poll adds `1 + ⌈n/4⌉ + 2n` commands, at most 55 and
exactly so many, and nothing else adds any; so without answers the list grows by that for
each poll.  While between two polls at least as many replies other than rejections are
consumed, it never outgrows its first length by more than the commands of one poll. -/
theorem pending_bounded_while_answered (first : Contents) (rest : List Contents) (s : State)
    (es : List PollEvent)
    (h : Runs.Meets (countAnswers (configLoads first rest).portCount)
      (KeepsUp (configLoads first rest).portCount)
      (s, (pollCommands (configLoads first rest).portCount).length) es) :
    let n := (configLoads first rest).portCount
    1 + (n + 3) / 4 + 2 * n ≤ 55 ∧
      (∀ t : State, (pollStep n t .poll).cmdPending.length =
        t.cmdPending.length + (1 + (n + 3) / 4 + 2 * n)) ∧
      (Runs.exec (pollStep n) s es).cmdPending.length ≤
        s.cmdPending.length + polls es * (1 + (n + 3) / 4 + 2 * n) ∧
      Runs.Always (pollStep n)
        (fun t => t.cmdPending.length ≤ s.cmdPending.length + (1 + (n + 3) / 4 + 2 * n)) s es := by
  intro n
  have hn : n ≤ maxPort := portCount_configLoads_le first rest
  rw [← length_pollCommands]
  refine ⟨?_, fun t => length_queueAll t (pollCommands n), length_exec_le n s es,
    length_always_le h⟩
  unfold maxPort at hn
  rw [length_pollCommands]
  omega

/-- The replies to what two polls of two ports add; one of them arrives in two pieces, and
one is rejected at first. -/
def answeredPolls : List PollEvent :=
  .poll :: .receive [0, 0, 0, 0, 0] :: .receive [0, 0, 0, 0, 0, 0, 0] ::
    .receive [0xff, 0, 0, 0, 0, 0, 0, 0, 0, 0, 0, 0xff] :: .expire ::
    (List.replicate 5 (.receive (List.replicate 12 0)) ++
      .poll :: List.replicate 6 (.receive (List.replicate 12 0)) ++ [.poll])

theorem pending_bounded_answeredPolls :
    (configLoads swappedLanSections []).portCount = 2 ∧
      Runs.Always (pollStep 2) (fun t => t.cmdPending.length ≤ 6) initial answeredPolls := by
  have hn : (configLoads swappedLanSections []).portCount = 2 := by decide
  have h := pending_bounded_while_answered swappedLanSections [] initial answeredPolls
    (by rw [hn]; decide +kernel)
  rw [hn] at h
  exact ⟨hn, h.2.2.2⟩

end TfPackages.Poe
