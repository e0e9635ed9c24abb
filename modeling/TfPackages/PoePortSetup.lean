import TfPackages.PoePolling

/-! # Setting up the ports in groups of four

`poet_setup` sends four commands for every four enabled ports.  It collects the
ports in arrays that it uses again for the next group: one loop walks over the
ports until a group is full, the places that are left in the last group are
overwritten with `0xff`, and an outer loop goes on behind the last port of the
group.

`poetSetupLoop_eq` says that the loops over the arrays send what `poetSetup`
lists, whatever the arrays hold at the start.  The main theorem is about the
frames that are queued: for each of the four commands they name the enabled ports,
each once and in order, and nothing else.
-/
namespace TfPackages.Poe

/-- The arrays of `poet_setup`. -/
structure GroupArrays where
  portIds : Vector UInt8 4
  priorities : Vector UInt8 4
  powerupMode : Vector UInt8 4
  limitType : Vector UInt8 4
  enableAll : Vector UInt8 4
deriving DecidableEq, Repr

/-- The entries for port `i`. -/
def GroupArrays.put (a : GroupArrays) (numOkay i : Nat) (p : PortConfig) : GroupArrays :=
  { a with
    portIds := a.portIds.setIfInBounds numOkay (UInt8.ofNat i)
    priorities := a.priorities.setIfInBounds numOkay p.priority
    powerupMode := a.powerupMode.setIfInBounds numOkay p.powerUpMode
    limitType := a.limitType.setIfInBounds numOkay (if p.powerBudget ≠ 0 then 2 else 1) }

/-- `memset(array + num_okay, 0xff, 4 - num_okay)`. -/
def padFrom (numOkay : Nat) (array : Vector UInt8 4) : Vector UInt8 4 :=
  Vector.ofFn fun j => if j < numOkay then array[j] else 0xff

/-- The five calls of `memset`. -/
def GroupArrays.pad (a : GroupArrays) (numOkay : Nat) : GroupArrays where
  portIds := padFrom numOkay a.portIds
  priorities := padFrom numOkay a.priorities
  powerupMode := padFrom numOkay a.powerupMode
  limitType := padFrom numOkay a.limitType
  enableAll := padFrom numOkay a.enableAll

/-- The bytes `poet_cmd_4_port` gives to `poe_cmd_queue`. -/
def cmd4Port (cmdId : UInt8) (port data : Vector UInt8 4) : List UInt8 :=
  [cmdId, 0x00, port[0], data[0], port[1], data[1], port[2], data[2], port[3], data[3]]

/-- The four commands for a group. -/
def GroupArrays.commands (a : GroupArrays) : List (List UInt8) :=
  [cmd4Port 0x1a a.portIds a.priorities, cmd4Port 0x1c a.portIds a.powerupMode,
    cmd4Port 0x11 a.portIds a.enableAll, cmd4Port 0x15 a.portIds a.limitType]

/-- Where the inner loop stops: the arrays, `num_okay`, `i`, and the ports from `i`
on. -/
structure Collected where
  arrays : GroupArrays
  numOkay : Nat
  i : Nat
  rest : List PortConfig

/-- `for ( ; i < num_ports; i++)`, where the ports from `i` on are left.  After a
`break` the index is still that of the port that filled the group. -/
def collect (a : GroupArrays) (numOkay i : Nat) : List PortConfig → Collected
  | [] => ⟨a, numOkay, i, []⟩
  | p :: rest =>
    if !p.enable then collect a numOkay (i + 1) rest
    else if numOkay + 1 = 4 then ⟨a.put numOkay i p, numOkay + 1, i, p :: rest⟩
    else collect (a.put numOkay i p) (numOkay + 1) (i + 1) rest

theorem length_collect_le (a : GroupArrays) (numOkay i : Nat) (rest : List PortConfig) :
    (collect a numOkay i rest).rest.length ≤ rest.length := by
  induction rest generalizing a numOkay i with
  | nil => exact le_rfl
  | cons p rest ih =>
    rw [collect]
    split
    · exact (ih ..).trans (Nat.le_succ _)
    · split
      · exact le_rfl
      · exact (ih ..).trans (Nat.le_succ _)

/-- The commands `poet_setup` queues: the `do` loop, where the ports from `i` on are
left.  `++i < num_ports` is asked behind the port at which the inner loop stopped. -/
def poetSetupLoop (a : GroupArrays) (i : Nat) (ports : List PortConfig) : List (List UInt8) :=
  let c := collect a 0 i ports
  let padded := c.arrays.pad c.numOkay
  padded.commands ++
    match _h : c.rest with
    | _ :: q :: rest => poetSetupLoop padded (c.i + 1) (q :: rest)
    | _ => []
termination_by ports.length
decreasing_by
  have hle : c.rest.length ≤ ports.length := length_collect_le a 0 i ports
  rw [_h] at hle
  simp only [List.length_cons] at hle ⊢
  omega

/-! ## The arrays and the groups -/

/-- The ports with their indices, from `i` on. -/
def indexed (i : Nat) (ports : List PortConfig) : List (Nat × PortConfig) :=
  (ports.zipIdx i).map Prod.swap

theorem indexed_cons (i : Nat) (p : PortConfig) (ports : List PortConfig) :
    indexed i (p :: ports) = (i, p) :: indexed (i + 1) ports := rfl

/-- The arrays hold a group of ports. -/
structure Represents (a : GroupArrays) (group : List (Nat × PortConfig)) : Prop where
  enableAll : a.enableAll = #v[1, 1, 1, 1]
  entry : ∀ (j : Nat) (x : Nat × PortConfig), group[j]? = some x →
    a.portIds[j]? = some (UInt8.ofNat x.1) ∧ a.priorities[j]? = some x.2.priority ∧
      a.powerupMode[j]? = some x.2.powerUpMode ∧
      a.limitType[j]? = some (if x.2.powerBudget ≠ 0 then 2 else 1)

theorem Represents.put {a : GroupArrays} {group : List (Nat × PortConfig)} (h : Represents a group)
    (hlen : group.length < 4) (i : Nat) (p : PortConfig) :
    Represents (a.put group.length i p) (group ++ [(i, p)]) := by
  refine ⟨h.enableAll, fun j x hx => ?_⟩
  have hset : ∀ (v : Vector UInt8 4) (b : UInt8),
      (v.setIfInBounds group.length b)[j]? = if j = group.length then some b else v[j]? := by
    intro v b
    rw [Vector.getElem?_setIfInBounds]
    by_cases hj : group.length = j
    · rw [if_pos hj, if_pos (by omega), if_pos hj.symm]
    · rw [if_neg hj, if_neg fun h => hj h.symm]
  simp only [GroupArrays.put, hset]
  rw [List.getElem?_append] at hx
  split at hx
  · rename_i hj
    simp only [if_neg hj.ne]
    exact h.entry j x hx
  · rename_i hj
    have hlast : j - group.length = 0 := by
      by_contra hne
      rw [List.getElem?_eq_none (by simp; omega)] at hx
      cases hx
    rw [hlast, List.getElem?_cons_zero, Option.some.injEq] at hx
    have heq : j = group.length := by omega
    simp only [if_pos heq, ← hx, and_self]

/-- One padded command lists the ports of the group and `0xff` behind them. -/
theorem cmd4Port_pad {ids data : Vector UInt8 4} {group : List (Nat × PortConfig)}
    {f : PortConfig → UInt8} (hlen : group.length ≤ 4)
    (hids : ∀ (j : Nat) (x : Nat × PortConfig), group[j]? = some x →
      ids[j]? = some (UInt8.ofNat x.1))
    (hdata : ∀ (j : Nat) (x : Nat × PortConfig), group[j]? = some x → data[j]? = some (f x.2))
    (id : UInt8) :
    cmd4Port id (padFrom group.length ids) (padFrom group.length data) =
      poetCmd4Port id (group.map fun x => (UInt8.ofNat x.1, f x.2)) := by
  have hentry : ∀ (v : Vector UInt8 4) (g : Nat × PortConfig → UInt8),
      (∀ (j : Nat) (x : Nat × PortConfig), group[j]? = some x → v[j]? = some (g x)) →
      ∀ (j : Nat) (hj : j < 4),
        (padFrom group.length v)[j] = ((group[j]?).map g).getD 0xff := by
    intro v g hv j hj
    simp only [padFrom, Vector.getElem_ofFn]
    split
    · rename_i hlt
      have hx := hv j _ (List.getElem?_eq_getElem hlt)
      rw [Vector.getElem?_eq_getElem hj, Option.some.injEq] at hx
      rw [List.getElem?_eq_getElem hlt]
      exact hx
    · rename_i hge
      rw [List.getElem?_eq_none (by omega)]
      rfl
  simp only [cmd4Port, hentry ids _ hids, hentry data _ hdata]
  match group, hlen with
  | [], _ => rfl
  | [_], _ => rfl
  | [_, _], _ => rfl
  | [_, _, _], _ => rfl
  | [_, _, _, _], _ => rfl

/-- **The padded arrays send the group.** -/
theorem Represents.commands {a : GroupArrays} {group : List (Nat × PortConfig)}
    (h : Represents a group) (hlen : group.length ≤ 4) :
    (a.pad group.length).commands = poetGroup group := by
  have hids : ∀ (j : Nat) (x : Nat × PortConfig), group[j]? = some x →
      a.portIds[j]? = some (UInt8.ofNat x.1) := fun j x hx => (h.entry j x hx).1
  have hones : ∀ (j : Nat) (x : Nat × PortConfig), group[j]? = some x →
      a.enableAll[j]? = some 1 := by
    intro j x hx
    have hj : j < 4 := by
      have hlt := (List.getElem?_eq_some_iff.mp hx).1
      omega
    rw [h.enableAll, Vector.getElem?_eq_getElem hj, Option.some.injEq]
    match j, hj with
    | 0, _ => rfl
    | 1, _ => rfl
    | 2, _ => rfl
    | 3, _ => rfl
  unfold GroupArrays.commands GroupArrays.pad poetGroup
  simp only
  rw [cmd4Port_pad (f := (·.priority)) hlen hids fun j x hx => (h.entry j x hx).2.1,
    cmd4Port_pad (f := (·.powerUpMode)) hlen hids fun j x hx => (h.entry j x hx).2.2.1,
    cmd4Port_pad (f := fun _ => 1) hlen hids hones,
    cmd4Port_pad (f := fun p => if p.powerBudget ≠ 0 then 2 else 1) hlen hids
      fun j x hx => (h.entry j x hx).2.2.2]

/-- A full group is not padded. -/
theorem pad_four (a : GroupArrays) : a.pad 4 = a := by
  have hpad : ∀ v : Vector UInt8 4, padFrom 4 v = v := by
    intro v
    ext j hj
    simp only [padFrom, Vector.getElem_ofFn, hj, if_true]
    rfl
  simp only [GroupArrays.pad, hpad]

/-- What the inner loop collects: the last group, when the ports are at their end,
or a full one. -/
theorem collect_spec {a : GroupArrays} {group : List (Nat × PortConfig)} (h : Represents a group)
    (hlen : group.length < 4) (i : Nat) (ports : List PortConfig) :
    ∃ group', Represents (collect a group.length i ports).arrays group' ∧
      (collect a group.length i ports).numOkay = group'.length ∧ group'.length ≤ 4 ∧
      ((collect a group.length i ports).rest = [] ∧
          poetSetup (indexed i ports) group = poetGroup group' ∨
        ∃ p rest, (collect a group.length i ports).rest = p :: rest ∧ group'.length = 4 ∧
          poetSetup (indexed i ports) group = poetGroup group' ++
            if rest = [] then []
            else poetSetup (indexed ((collect a group.length i ports).i + 1) rest) []) := by
  induction ports generalizing a group i with
  | nil => exact ⟨group, h, rfl, hlen.le, .inl ⟨rfl, rfl⟩⟩
  | cons p rest ih =>
    rw [collect, indexed_cons, poetSetup]
    split
    · exact ih h hlen (i + 1)
    · have hgroup := h.put hlen i p
      have hlen' : (group ++ [(i, p)]).length = group.length + 1 := by
        rw [List.length_append, List.length_singleton]
      rw [hlen']
      split
      · rename_i hfull
        refine ⟨group ++ [(i, p)], hgroup, hlen'.symm, by omega, .inr ⟨p, rest, rfl, by omega, ?_⟩⟩
        cases rest with
        | nil => rfl
        | cons q rest => rfl
      · have hnext := ih hgroup (by omega) (i + 1)
        rw [hlen'] at hnext
        exact hnext

/-- **The loops over the arrays send what `poetSetup` lists**, whatever is in the
arrays that are not initialised. -/
theorem poetSetupLoop_eq {a : GroupArrays} (h : a.enableAll = #v[1, 1, 1, 1]) (i : Nat)
    (ports : List PortConfig) : poetSetupLoop a i ports = poetSetup (indexed i ports) [] := by
  induction hn : ports.length using Nat.strong_induction_on generalizing a i ports with
  | _ n ih =>
    have hempty : Represents a [] := ⟨h, fun j x hx => by simp at hx⟩
    obtain ⟨group, hgroup, hnum, hlen, hcase⟩ := collect_spec hempty (by simp) i ports
    simp only [List.length_nil] at hgroup hnum hcase
    have hshorter := length_collect_le a 0 i ports
    rw [poetSetupLoop]
    simp only [hnum, hgroup.commands hlen]
    rcases hcase with ⟨hrest, hsend⟩ | ⟨p, rest, hrest, hfull, hsend⟩
    · rw [hsend]
      split
      · rename_i heq
        rw [hrest] at heq
        cases heq
      · rw [List.append_nil]
    · rw [hsend]
      rw [hrest, List.length_cons] at hshorter
      cases rest with
      | nil =>
        split
        · rename_i heq
          rw [hrest] at heq
          cases heq
        · rfl
      | cons q rest =>
        split
        · rename_i p' q' rest' heq
          rw [hrest] at heq
          cases heq
          rw [if_neg (by simp), hfull, pad_four]
          rw [ih (q :: rest).length (by omega) hgroup.enableAll _ _ rfl]
        · rename_i hno
          exact absurd hrest (hno p q rest)

/-! ## The frames that are queued -/

/-- The four commands of `poet_setup`. -/
inductive SetupCmd where
  | priority
  | powerUpMode
  | classification
  | limitType
deriving DecidableEq, Repr

/-- The command id. -/
def SetupCmd.id : SetupCmd → UInt8
  | .priority => 0x1a
  | .powerUpMode => 0x1c
  | .classification => 0x11
  | .limitType => 0x15

/-- What the command says of a port. -/
def SetupCmd.data : SetupCmd → PortConfig → UInt8
  | .priority, p => p.priority
  | .powerUpMode, p => p.powerUpMode
  | .classification, _ => 1
  | .limitType, p => if p.powerBudget ≠ 0 then 2 else 1

/-- A port table. -/
structure PortTable where
  ports : List PortConfig
  length_le : ports.length ≤ maxPort

/-- `poet_setup`, with arrays that hold `a` before. -/
def poetSetupQueue (s : State) (a : GroupArrays) (t : PortTable) : State :=
  queueAll s (poetSetupLoop { a with enableAll := #v[1, 1, 1, 1] } 0 t.ports)

/-- The places of a frame for four ports: bytes 2 to 9, as port and data. -/
def Frame.slots (d : Frame) : List (Nat × UInt8) :=
  [((d.byte 2).toNat, d.byte 3), ((d.byte 4).toNat, d.byte 5), ((d.byte 6).toNat, d.byte 7),
    ((d.byte 8).toNat, d.byte 9)]

/-- A place without a port. -/
def unusedSlot : Nat × UInt8 := (0xff, 0xff)

/-- The enabled ports in order of their indices, each with what the command says of
it. -/
def PortTable.named (t : PortTable) (c : SetupCmd) : List (Nat × UInt8) :=
  ((indexed 0 t.ports).filter (·.2.enable)).map fun x => (x.1, c.data x.2)

/-- The places of a payload of ten bytes. -/
def payloadSlots (payload : List UInt8) : List (Nat × UInt8) :=
  [((payload.getD 2 0xff).toNat, payload.getD 3 0xff),
    ((payload.getD 4 0xff).toNat, payload.getD 5 0xff),
    ((payload.getD 6 0xff).toNat, payload.getD 7 0xff),
    ((payload.getD 8 0xff).toNat, payload.getD 9 0xff)]

theorem slots_buildFrame (payload : List UInt8) (seq : UInt8) :
    (buildFrame payload seq).slots = payloadSlots payload := by
  simp (disch := decide) only [Frame.slots, payloadSlots, buildFrame_byte]

theorem cmdPending_poeCmdQueue (s : State) (payload : List UInt8) :
    (poeCmdQueue s payload).cmdPending =
      s.cmdPending ++ [⟨s.payloads.length, buildFrame payload (s.cmdSeq + 1), 0⟩] := by
  rw [poeCmdQueue_eq]
  simp only
  split
  · rw [poeCmdNext_eq]
  · rfl

/-- Queueing appends the frames of the payloads to the list. -/
theorem cmdPending_queueAll (s : State) (payloads : List (List UInt8)) :
    ∃ new : List Cmd, (queueAll s payloads).cmdPending = s.cmdPending ++ new ∧
      List.Forall₂ (fun c payload => ∃ seq, c.cmd = buildFrame payload seq) new payloads := by
  induction payloads generalizing s with
  | nil => exact ⟨[], by rw [List.append_nil]; rfl, .nil⟩
  | cons p ps ih =>
    obtain ⟨new, hnew, hall⟩ := ih (poeCmdQueue s p)
    refine ⟨⟨s.payloads.length, buildFrame p (s.cmdSeq + 1), 0⟩ :: new, ?_, .cons ⟨_, rfl⟩ hall⟩
    rw [queueAll, List.foldl_cons]
    refine hnew.trans ?_
    rw [cmdPending_poeCmdQueue, List.append_assoc]
    rfl

/-- The id a frame of the command carries. -/
theorem SetupCmd.translated (c : SetupCmd) :
    bcmToRtlCmdId c.id = match c with
      | .priority => 0x15
      | .powerUpMode => 0x1c
      | .classification => 0x11
      | .limitType => 0x1a := by
  unfold bcmToRtlCmdId
  rw [bcmToRtlMap_eq, entry_map_range]
  cases c <;> rfl

/-- The frames of a command are those of the payloads that begin with its id. -/
theorem slots_of_frames {new : List Cmd} {payloads : List (List UInt8)}
    (h : List.Forall₂ (fun c payload => ∃ seq, c.cmd = buildFrame payload seq) new payloads)
    (hids : ∀ p ∈ payloads, ∃ c : SetupCmd, p.head? = some c.id) (c : SetupCmd) :
    (new.filter fun x => x.cmd.byte 0 = bcmToRtlCmdId c.id).flatMap (·.cmd.slots) =
      (payloads.filter fun p => p.head? = some c.id).flatMap payloadSlots := by
  -- the four ids are translated to different ones
  have hinj : ∀ d : SetupCmd, bcmToRtlCmdId d.id = bcmToRtlCmdId c.id ↔ d.id = c.id := by
    intro d
    rw [SetupCmd.translated, SetupCmd.translated]
    cases c <;> cases d <;> decide
  induction h with
  | nil => rfl
  | @cons x p new payloads hx hall ih =>
    obtain ⟨seq, hx⟩ := hx
    obtain ⟨d, hd⟩ := hids p List.mem_cons_self
    have hrest := ih fun q hq => hids q (List.mem_cons_of_mem _ hq)
    have hbyte : x.cmd.byte 0 = bcmToRtlCmdId d.id := by
      rw [hx, buildFrame_id]
      obtain ⟨t, rfl⟩ := List.head?_eq_some_iff.mp hd
      rfl
    simp only [List.filter_cons, hbyte, hd, Option.some.injEq, hinj]
    split
    · rw [List.flatMap_cons, List.flatMap_cons, hrest, hx, slots_buildFrame]
    · exact hrest

/-- Each command is sent once for a group. -/
theorem filter_poetGroup (group : List (Nat × PortConfig)) (c : SetupCmd) :
    (poetGroup group).filter (fun p => p.head? = some c.id) =
      [poetCmd4Port c.id (group.map fun x => (UInt8.ofNat x.1, c.data x.2))] := by
  cases c <;> rfl

theorem head?_poetGroup {group : List (Nat × PortConfig)} {p : List UInt8}
    (h : p ∈ poetGroup group) : ∃ c : SetupCmd, p.head? = some c.id := by
  simp only [poetGroup, List.mem_cons, List.not_mem_nil, or_false] at h
  rcases h with rfl | rfl | rfl | rfl
  · exact ⟨.priority, rfl⟩
  · exact ⟨.powerUpMode, rfl⟩
  · exact ⟨.classification, rfl⟩
  · exact ⟨.limitType, rfl⟩

theorem head?_poetSetup {ports group : List (Nat × PortConfig)} {p : List UInt8}
    (h : p ∈ poetSetup ports group) : ∃ c : SetupCmd, p.head? = some c.id := by
  induction ports generalizing group with
  | nil => exact head?_poetGroup h
  | cons x rest ih =>
    rw [poetSetup] at h
    split at h
    · exact ih h
    · split at h
      · rcases List.mem_append.mp h with h | h
        · exact head?_poetGroup h
        · split at h
          · cases h
          · exact ih h
      · exact ih h

/-- The places of a command for a group. -/
theorem payloadSlots_poetCmd4Port (id : UInt8) {data : List (UInt8 × UInt8)}
    (hlen : data.length ≤ 4) :
    payloadSlots (poetCmd4Port id data) =
      data.map (fun d => (d.1.toNat, d.2)) ++ List.replicate (4 - data.length) unusedSlot := by
  match data, hlen with
  | [], _ => rfl
  | [_], _ => rfl
  | [_, _], _ => rfl
  | [_, _, _], _ => rfl
  | [_, _, _, _], _ => rfl

/-- What a command says of the ports of a list. -/
def entries (c : SetupCmd) (ports : List (Nat × PortConfig)) : List (Nat × UInt8) :=
  ports.map fun x => ((UInt8.ofNat x.1).toNat, c.data x.2)

theorem entries_append (c : SetupCmd) (xs ys : List (Nat × PortConfig)) :
    entries c (xs ++ ys) = entries c xs ++ entries c ys :=
  List.map_append

theorem slots_poetGroup (c : SetupCmd) {group : List (Nat × PortConfig)}
    (hlen : group.length ≤ 4) :
    ((poetGroup group).filter fun p => p.head? = some c.id).flatMap payloadSlots =
      entries c group ++ List.replicate (4 - group.length) unusedSlot := by
  rw [filter_poetGroup, List.flatMap_singleton, payloadSlots_poetCmd4Port _ (by simpa using hlen),
    List.map_map, List.length_map]
  rfl

/-- The commands name the ports that are collected and the enabled ones that are
left, and places without a port come last. -/
theorem slots_poetSetup (c : SetupCmd) (ports group : List (Nat × PortConfig))
    (hlen : group.length < 4) :
    ∃ k, ((poetSetup ports group).filter fun p => p.head? = some c.id).flatMap payloadSlots =
      entries c (group ++ ports.filter (·.2.enable)) ++ List.replicate k unusedSlot := by
  induction ports generalizing group with
  | nil =>
    refine ⟨4 - group.length, ?_⟩
    rw [poetSetup, slots_poetGroup c hlen.le, List.filter_nil, List.append_nil]
  | cons x rest ih =>
    obtain ⟨i, p⟩ := x
    rw [poetSetup, List.filter_cons]
    by_cases hp : p.enable = true
    · simp only [hp, Bool.not_true, Bool.false_eq_true, if_false, if_true]
      have hlen' : (group ++ [(i, p)]).length = group.length + 1 := by
        rw [List.length_append, List.length_singleton]
      have hsplit : group ++ (i, p) :: rest.filter (·.2.enable) =
          group ++ [(i, p)] ++ rest.filter (·.2.enable) := by
        rw [List.append_assoc, List.singleton_append]
      rw [hsplit]
      split
      · rename_i hfull
        have hgroup := slots_poetGroup c hfull.le
        rw [hfull, Nat.sub_self, List.replicate_zero, List.append_nil] at hgroup
        rw [List.filter_append, List.flatMap_append, hgroup]
        split
        · rename_i hrest
          refine ⟨0, ?_⟩
          rw [hrest]
          simp
        · obtain ⟨k, hk⟩ := ih [] (by simp)
          refine ⟨k, ?_⟩
          rw [hk, List.nil_append, ← List.append_assoc, ← entries_append]
      · exact ih _ (by omega)
    · simp only [Bool.not_eq_true] at hp
      simp only [hp, Bool.not_false, if_true, Bool.false_eq_true, if_false]
      exact ih _ hlen

theorem entries_enabled (t : PortTable) (c : SetupCmd) :
    entries c ((indexed 0 t.ports).filter (·.2.enable)) = t.named c := by
  refine List.map_congr_left fun x hx => ?_
  have hmem := List.mem_of_mem_filter hx
  obtain ⟨y, hy, rfl⟩ := List.mem_map.mp hmem
  have hlt := List.snd_lt_of_mem_zipIdx hy
  have hle := t.length_le
  unfold maxPort at hle
  rw [UInt8.toNat_ofNat_of_lt' (show y.swap.1 < 256 by rw [Prod.fst_swap]; omega)]

/-- **The frames of the set-up cover the enabled ports exactly.**  For each of the
four commands, the frames that are queued name the enabled ports in order, each
once and with its own data; the places behind them are `0xff`. -/
theorem setup_frames_cover (s : State) (a : GroupArrays) (t : PortTable) (c : SetupCmd) :
    ∃ new, (poetSetupQueue s a t).cmdPending = s.cmdPending ++ new ∧
      ∃ k, (new.filter fun x => x.cmd.byte 0 = bcmToRtlCmdId c.id).flatMap (·.cmd.slots) =
        t.named c ++ List.replicate k unusedSlot := by
  have hloop : poetSetupLoop { a with enableAll := #v[1, 1, 1, 1] } 0 t.ports =
      poetSetup (indexed 0 t.ports) [] := poetSetupLoop_eq rfl 0 t.ports
  rw [poetSetupQueue, hloop]
  obtain ⟨new, hnew, hall⟩ := cmdPending_queueAll s (poetSetup (indexed 0 t.ports) [])
  refine ⟨new, hnew, ?_⟩
  rw [slots_of_frames hall (fun p hp => head?_poetSetup hp)]
  obtain ⟨k, hk⟩ := slots_poetSetup c (indexed 0 t.ports) [] (by simp)
  refine ⟨k, ?_⟩
  rw [hk, List.nil_append, entries_enabled]

end TfPackages.Poe
