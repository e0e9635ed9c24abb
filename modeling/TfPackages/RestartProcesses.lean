import TfPackages.Runs
import Mathlib.Data.List.Range
import Mathlib.Logic.Function.Basic

/-! # The processes of the auto-restart daemon

`mainApp` is one loop for two kinds of processes.  The daemon itself waits for a
connection or a message in the pipe, forks a child for each connection, waits for
it, reads the pipe and calls `mainHandler`.  The child reads one message from its
client and answers it.  It leaves the loop by `exit(0)` only after a message has
been read; where the `read` fails or returns nothing the child runs on into
`wait`, and where its `write` to the pipe fails it goes back to `select`.

The system is a set of processes, each at one place of the loop.  What the kernel
and the clients decide — which descriptors are ready, whether a call succeeds,
what a client sends, and who moves next — is the event.  A call that cannot
return yet does not move its process.
-/
namespace TfPackages.Restart.Processes

/-- The places of `mainApp`'s loop, each before a call. -/
inductive Pc where
  | select
  | accept
  | fork
  /-- The child, before `read(client_fd, ..)`. -/
  | clientRead
  | wait
  | pipeRead
  | mainHandler
  /-- After `exit(0)`. -/
  | exited
deriving DecidableEq, Repr

/-- One process. -/
structure Proc where
  pc : Pc
  parent : Option Nat
  /-- The child closes `sockfd`. -/
  sockOpen : Bool
  /-- `FD_ISSET(pipe_fd_A[0], &read_fds)` -/
  pipeReady : Bool
  /-- Its parent's `wait` has returned it. -/
  reaped : Bool
deriving DecidableEq, Repr

/-- The processes, in the order in which they were forked, and the processes that
have called `mainHandler`. -/
structure State where
  procs : Nat → Proc
  count : Nat
  handled : List Nat

/-- The daemon alone, entering the loop. -/
def initial : State where
  procs _ := ⟨.select, none, true, false, false⟩
  count := 1
  handled := []

/-- `CMD_TYPE_e`, as far as `mainApp` tells its values apart. -/
inductive CmdType where
  | cmdStatus
  | cmdReboot
  | other
deriving DecidableEq, Repr

/-- What happens to the child's connection: `read` fails, the client has closed,
or a message arrives; then whether `send` and the `write` to the pipe succeed. -/
inductive Connection where
  | readError
  | readZero
  | message (cmdType : CmdType) (sent written : Bool)
deriving DecidableEq, Repr

/-- A message arrives, and if it asks for a restart it gets into the pipe. -/
def Connection.Served : Connection → Prop
  | .readError => False
  | .readZero => False
  | .message cmdType _ written => cmdType = .cmdReboot → written = true

instance (c : Connection) : Decidable c.Served := by
  cases c <;> unfold Connection.Served <;> infer_instance

/-- A call of one process returns. -/
inductive Event where
  | select (pid : Nat) (sock pipe : Bool)
  | accept (pid : Nat) (ok : Bool)
  | fork (pid : Nat) (ok : Bool)
  | clientRead (pid : Nat) (c : Connection)
  | wait (pid : Nat)
  | pipeRead (pid : Nat) (ok : Bool)
  | mainHandler (pid : Nat)
deriving DecidableEq, Repr

/-- The process `pid` is there and at `pc`. -/
def State.At (s : State) (pid : Nat) (pc : Pc) : Prop := pid < s.count ∧ (s.procs pid).pc = pc

instance (s : State) (pid : Nat) (pc : Pc) : Decidable (s.At pid pc) :=
  inferInstanceAs (Decidable (_ ∧ _))

/-- `pid` becomes `p`; no other process changes. -/
def State.put (s : State) (pid : Nat) (p : Proc) : State :=
  { s with procs := Function.update s.procs pid p }

/-- `pid` goes on at `pc`. -/
def State.goto (s : State) (pid : Nat) (pc : Pc) : State := s.put pid { s.procs pid with pc := pc }

/-- Where the loop goes after the connection: `if (FD_ISSET(pipe_fd_A[0], ..))`. -/
def Proc.afterConnection (p : Proc) : Pc := if p.pipeReady then .pipeRead else .mainHandler

/-- Where the child goes after its connection.  Only the branch of a message ends
in `exit(0)`; the others leave the `if` and fall through to `wait`, and a failed
`write` is followed by `continue`. -/
def Connection.next : Connection → Pc
  | .readError => .wait
  | .readZero => .wait
  | .message .cmdReboot _ false => .select
  | .message _ _ _ => .exited

/-- The child is gone exactly if its connection has been served. -/
theorem next_eq_exited_iff (c : Connection) : c.next = .exited ↔ c.Served := by
  cases c with
  | readError => simp [Connection.next, Connection.Served]
  | readZero => simp [Connection.next, Connection.Served]
  | message cmdType sent written =>
    cases cmdType <;> cases written <;> simp [Connection.next, Connection.Served]

/-- Otherwise it goes on in the daemon's part of the loop. -/
theorem next_ne_clientRead (c : Connection) : c.next ≠ .clientRead := by
  cases c with
  | readError => simp [Connection.next]
  | readZero => simp [Connection.next]
  | message cmdType sent written => cases cmdType <;> cases written <;> simp [Connection.next]

/-- A child of `pid` that `wait` has not returned yet. -/
def State.IsChild (s : State) (pid i : Nat) : Prop :=
  i < s.count ∧ (s.procs i).parent = some pid ∧ (s.procs i).reaped = false

instance (s : State) (pid i : Nat) : Decidable (s.IsChild pid i) :=
  inferInstanceAs (Decidable (_ ∧ _ ∧ _))

/-- `select` returns.  In a process that has closed `sockfd` it fails and leaves
the two bits of `read_fds` set. -/
def stepSelect (s : State) (pid : Nat) (sock pipe : Bool) : State :=
  let p := s.procs pid
  let sock := sock || !p.sockOpen
  let p := { p with pipeReady := pipe || !p.sockOpen }
  s.put pid { p with pc := if sock then .accept else p.afterConnection }

/-- `fork` returns, in both processes.  The child closes `sockfd`. -/
def stepFork (s : State) (pid : Nat) : State :=
  let child : Proc :=
    { s.procs pid with
      pc := .clientRead, parent := some pid, sockOpen := false, reaped := false }
  { (s.goto pid .wait).put s.count child with count := s.count + 1 }

/-- `wait` returns: with a child that has exited, or at once if there is no
child; with all children running it does not return. -/
def stepWait (s : State) (pid : Nat) : State :=
  match (List.range s.count).find? fun i => s.IsChild pid i ∧ (s.procs i).pc = .exited with
  | some i =>
    (s.put i { s.procs i with reaped := true }).goto pid (s.procs pid).afterConnection
  | none =>
    if (List.range s.count).any fun i => s.IsChild pid i then s
    else s.goto pid (s.procs pid).afterConnection

/-- One step of the system. -/
def step (s : State) : Event → State
  | .select pid sock pipe => if s.At pid .select then stepSelect s pid sock pipe else s
  | .accept pid ok =>
    if s.At pid .accept then
      s.goto pid (if ok && (s.procs pid).sockOpen then .fork else .select)
    else s
  | .fork pid ok =>
    if s.At pid .fork then (if ok then stepFork s pid else s.goto pid .select) else s
  | .clientRead pid c => if s.At pid .clientRead then s.goto pid c.next else s
  | .wait pid => if s.At pid .wait then stepWait s pid else s
  | .pipeRead pid ok =>
    if s.At pid .pipeRead then s.goto pid (if ok then .mainHandler else .select) else s
  | .mainHandler pid =>
    if s.At pid .mainHandler then
      { s.goto pid .select with handled := s.handled ++ [pid] }
    else s

@[simp] theorem put_self (s : State) (pid : Nat) (p : Proc) : (s.put pid p).procs pid = p :=
  Function.update_self ..

theorem put_of_ne {s : State} {pid i : Nat} (h : i ≠ pid) (p : Proc) :
    (s.put pid p).procs i = s.procs i :=
  Function.update_of_ne h ..

/-! ## Only the daemon drives the ports -/

/-- A forked process handles its connection or has exited, so that the daemon's
`wait` returns and nobody else calls `mainHandler`. -/
structure OnlyDaemon (s : State) : Prop where
  /-- Forked processes never execute the daemon's part of the loop. -/
  forked : ∀ i, 0 < i → i < s.count → (s.procs i).pc = .clientRead ∨ (s.procs i).pc = .exited
  /-- While the daemon waits, there is a child to wait for. -/
  waits : (s.procs 0).pc = .wait → ∃ i, 0 < i ∧ s.IsChild 0 i
  handled : ∀ i ∈ s.handled, i = 0
  /-- The daemon is there and does not do a child's work. -/
  daemon : 0 < s.count ∧ (s.procs 0).pc ≠ .clientRead ∧ (s.procs 0).pc ≠ .exited

/-- The daemon's `wait` returns: at once for a child that has exited, and otherwise once
the child has read a message, and written it to the pipe if it has to. -/
def WaitReturns (s : State) : Prop :=
  s.At 0 .wait → ∃ i, s.IsChild 0 i ∧
    (s.At i .exited ∧ ¬ (step s (.wait 0)).At 0 .wait ∨
      s.At i .clientRead ∧ ∀ c : Connection, c.Served →
        ¬ (step (step s (.clientRead i c)) (.wait 0)).At 0 .wait)

/-- The condition on the clients and the pipe: a child's `read` returns a
message, and a `cmd_reboot` message gets into the pipe. -/
def Served (s : State) : Event → Prop
  | .clientRead pid c => s.At pid .clientRead → c.Served
  | _ => True

instance (s : State) (e : Event) : Decidable (Served s e) := by
  cases e <;> unfold Served <;> infer_instance

theorem onlyDaemon_initial : OnlyDaemon initial := by
  refine ⟨?_, ?_, ?_, ?_⟩
  · intro i hpos hlt
    simp only [initial] at hlt
    omega
  · simp [initial]
  · simp [initial]
  · simp [initial]

section Steps
variable {s : State}

/-- The daemon is the only process at a place of its part of the loop. -/
theorem OnlyDaemon.eq_zero (h : OnlyDaemon s) {pid : Nat} {pc : Pc} (hat : s.At pid pc)
    (hread : pc ≠ .clientRead) (hexit : pc ≠ .exited) : pid = 0 := by
  obtain ⟨hlt, hpc⟩ := hat
  by_contra hne
  rcases h.forked pid (Nat.pos_of_ne_zero hne) hlt with hp | hp
  · exact hread (hpc.symm.trans hp)
  · exact hexit (hpc.symm.trans hp)

/-- A step at a place of the daemon's part of the loop is the daemon's. -/
theorem OnlyDaemon.at_daemon (h : OnlyDaemon s) {pid : Nat} {pc : Pc} (next : Nat → State)
    (hread : pc ≠ .clientRead) (hexit : pc ≠ .exited)
    (hnext : s.At 0 pc → OnlyDaemon (next 0)) :
    OnlyDaemon (if s.At pid pc then next pid else s) := by
  split
  · rename_i hat
    obtain rfl := h.eq_zero hat hread hexit
    exact hnext hat
  · exact h

/-- A child reads; the daemon does not. -/
theorem OnlyDaemon.pos_of_clientRead (h : OnlyDaemon s) {pid : Nat}
    (hat : s.At pid .clientRead) : 0 < pid := by
  rcases Nat.eq_zero_or_pos pid with rfl | hpos
  · exact absurd hat.2 h.daemon.2.1
  · exact hpos

/-- The daemon moves on inside its part of the loop, to a place other than
`wait`. -/
theorem OnlyDaemon.put_daemon (h : OnlyDaemon s) {p : Proc} (hw : p.pc ≠ .wait)
    (hr : p.pc ≠ .clientRead) (he : p.pc ≠ .exited) : OnlyDaemon (s.put 0 p) := by
  refine ⟨?_, ?_, h.handled, h.daemon.1, ?_, ?_⟩
  · intro i hpos hlt
    rw [put_of_ne (by omega)]
    exact h.forked i hpos hlt
  · intro hwait
    rw [put_self] at hwait
    exact absurd hwait hw
  · rwa [put_self]
  · rwa [put_self]

/-- A child changes and is still handling its connection, or has exited. -/
theorem OnlyDaemon.put_child (h : OnlyDaemon s) {pid : Nat} (hpos : 0 < pid) {p : Proc}
    (hpc : p.pc = .clientRead ∨ p.pc = .exited)
    (hwait : (s.procs 0).pc = .wait → p.parent = (s.procs pid).parent ∧
      p.reaped = (s.procs pid).reaped) : OnlyDaemon (s.put pid p) := by
  have hzero : (s.put pid p).procs 0 = s.procs 0 := put_of_ne (by omega) p
  refine ⟨?_, ?_, h.handled, ?_⟩
  · intro i hi hlt
    by_cases hip : i = pid
    · rw [hip, put_self]
      exact hpc
    · rw [put_of_ne hip]
      exact h.forked i hi hlt
  · intro hw
    rw [hzero] at hw
    obtain ⟨hparent, hreaped⟩ := hwait hw
    obtain ⟨i, hi, hlt, hp, hr⟩ := h.waits hw
    by_cases hip : i = pid
    · subst hip
      exact ⟨i, hi, hlt, by rw [put_self, hparent, hp], by rw [put_self, hreaped, hr]⟩
    · exact ⟨i, hi, hlt, by rw [put_of_ne hip, hp], by rw [put_of_ne hip, hr]⟩
  · rw [hzero]
    exact h.daemon

theorem Proc.afterConnection_cases (p : Proc) :
    p.afterConnection = .pipeRead ∨ p.afterConnection = .mainHandler := by
  unfold Proc.afterConnection
  split
  · exact Or.inl rfl
  · exact Or.inr rfl

theorem onlyDaemon_select (h : OnlyDaemon s) (sock pipe : Bool) :
    OnlyDaemon (stepSelect s 0 sock pipe) := by
  unfold stepSelect
  refine h.put_daemon ?_ ?_ ?_
  all_goals
    simp only [Proc.afterConnection]
    split_ifs <;> simp

theorem onlyDaemon_fork (h : OnlyDaemon s) : OnlyDaemon (stepFork s 0) := by
  have hpos := h.daemon.1
  have hzero : ((stepFork s 0).procs 0).pc = .wait := by
    show (((s.goto 0 .wait).put s.count _).procs 0).pc = .wait
    rw [put_of_ne (by omega), State.goto, put_self]
  refine ⟨?_, ?_, h.handled, ?_⟩
  · intro i hi hlt
    show (((s.goto 0 .wait).put s.count _).procs i).pc = _ ∨
      (((s.goto 0 .wait).put s.count _).procs i).pc = _
    by_cases hc : i = s.count
    · rw [hc, put_self]
      exact Or.inl rfl
    · have hlt' : i < s.count + 1 := hlt
      rw [put_of_ne hc, State.goto, put_of_ne (by omega)]
      exact h.forked i hi (by omega)
  · intro _
    refine ⟨s.count, hpos, Nat.lt_succ_self _, ?_, ?_⟩
    · show (((s.goto 0 .wait).put s.count _).procs s.count).parent = some 0
      rw [put_self]
    · show (((s.goto 0 .wait).put s.count _).procs s.count).reaped = false
      rw [put_self]
  · rw [hzero]
    exact ⟨Nat.succ_pos _, by simp, by simp⟩

theorem onlyDaemon_wait (h : OnlyDaemon s) : OnlyDaemon (stepWait s 0) := by
  have hafter := (s.procs 0).afterConnection_cases
  have hgoto : ∀ t : State, (∀ i, 0 < i → i < t.count → (t.procs i).pc = .clientRead ∨
      (t.procs i).pc = .exited) → (∀ i ∈ t.handled, i = 0) → 0 < t.count →
      OnlyDaemon (t.goto 0 (s.procs 0).afterConnection) := by
    intro t hforked hhandled hcount
    refine ⟨?_, ?_, hhandled, hcount, ?_, ?_⟩
    · intro i hi hlt
      rw [State.goto, put_of_ne (by omega)]
      exact hforked i hi hlt
    · intro hwait
      rw [State.goto, put_self] at hwait
      rcases hafter with ha | ha <;> simp [ha] at hwait
    · rw [State.goto, put_self]
      rcases hafter with ha | ha <;> simp [ha]
    · rw [State.goto, put_self]
      rcases hafter with ha | ha <;> simp [ha]
  unfold stepWait
  split
  · -- a child is returned: it has exited, and only its `reaped` changes
    rename_i i hfind
    have hi := List.find?_some hfind
    simp only [decide_eq_true_eq] at hi
    refine hgoto _ ?_ h.handled h.daemon.1
    intro j hj hlt
    by_cases hji : j = i
    · rw [hji, put_self]
      exact Or.inr hi.2
    · rw [put_of_ne hji]
      exact h.forked j hj hlt
  · split
    · exact h
    · exact hgoto s h.forked h.handled h.daemon.1

/-- A child that has read a message is gone. -/
theorem onlyDaemon_clientRead_iff (h : OnlyDaemon s) {pid : Nat} (hat : s.At pid .clientRead)
    (c : Connection) : OnlyDaemon (s.goto pid c.next) ↔ c.Served := by
  have hpos := h.pos_of_clientRead hat
  rw [← next_eq_exited_iff]
  constructor
  · intro hg
    have hpc := hg.forked pid hpos hat.1
    rw [State.goto, put_self] at hpc
    exact hpc.resolve_left (next_ne_clientRead c)
  · intro hc
    exact h.put_child hpos (Or.inr hc) fun _ => ⟨rfl, rfl⟩

/-- `wait` returns once a child has exited. -/
theorem not_at_wait_of_exited {i : Nat} (hw : s.At 0 .wait) (hc : s.IsChild 0 i)
    (he : s.At i .exited) : ¬ (step s (.wait 0)).At 0 .wait := by
  have hafter := (s.procs 0).afterConnection_cases
  simp only [step, if_pos hw, stepWait]
  split
  · intro hat
    have hpc := hat.2
    rw [State.goto, put_self] at hpc
    rcases hafter with ha | ha <;> simp [ha] at hpc
  · rename_i hfind
    have hno := List.find?_eq_none.mp hfind i (List.mem_range.mpr hc.1)
    simp only [decide_eq_true_eq] at hno
    exact absurd ⟨hc, he.2⟩ hno

theorem OnlyDaemon.waitReturns (h : OnlyDaemon s) : WaitReturns s := by
  intro hw
  obtain ⟨i, hpos, hchild⟩ := h.waits hw.2
  refine ⟨i, hchild, ?_⟩
  rcases h.forked i hpos hchild.1 with hpc | hpc
  · have hat : s.At i .clientRead := ⟨hchild.1, hpc⟩
    refine Or.inr ⟨hat, fun c hc => ?_⟩
    have hstep : step s (.clientRead i c) = s.put i { s.procs i with pc := .exited } := by
      simp only [step, if_pos hat, State.goto, (next_eq_exited_iff c).mpr hc]
    rw [hstep]
    refine not_at_wait_of_exited (i := i) ⟨hw.1, ?_⟩ ⟨hchild.1, ?_, ?_⟩ ⟨hchild.1, ?_⟩
    · rw [put_of_ne (by omega)]
      exact hw.2
    · rw [put_self]
      exact hchild.2.1
    · rw [put_self]
      exact hchild.2.2
    · rw [put_self]
  · have hat : s.At i .exited := ⟨hchild.1, hpc⟩
    exact Or.inl ⟨hat, not_at_wait_of_exited hw hchild hat⟩

end Steps

/-- **A step keeps the ports with the daemon exactly when the client is served.** -/
theorem onlyDaemon_step_iff (s : State) (e : Event) (h : OnlyDaemon s) :
    OnlyDaemon (step s e) ↔ Served s e := by
  cases e with
  | select pid sock pipe =>
    exact iff_of_true (h.at_daemon (stepSelect s · sock pipe) (by decide) (by decide) fun _ =>
      onlyDaemon_select h sock pipe) trivial
  | accept pid ok =>
    refine iff_of_true (h.at_daemon
      (fun pid => s.goto pid (if ok && (s.procs pid).sockOpen then .fork else .select))
      (by decide) (by decide) fun _ => ?_) trivial
    refine h.put_daemon ?_ ?_ ?_ <;> split_ifs <;> simp
  | fork pid ok =>
    refine iff_of_true (h.at_daemon (fun pid => if ok then stepFork s pid else s.goto pid .select)
      (by decide) (by decide) fun _ => ?_) trivial
    split
    · exact onlyDaemon_fork h
    · exact h.put_daemon (by simp) (by simp) (by simp)
  | clientRead pid c =>
    -- the only step that can leave a child in the daemon's part
    simp only [step, Served]
    split
    · rename_i hat
      rw [onlyDaemon_clientRead_iff h hat]
      exact ⟨fun hc _ => hc, fun hc => hc hat⟩
    · rename_i hat
      exact iff_of_true h fun hat' => absurd hat' hat
  | wait pid =>
    exact iff_of_true (h.at_daemon (stepWait s) (by decide) (by decide) fun _ => onlyDaemon_wait h)
      trivial
  | pipeRead pid ok =>
    refine iff_of_true (h.at_daemon (fun pid => s.goto pid (if ok then .mainHandler else .select))
      (by decide) (by decide) fun _ => ?_) trivial
    refine h.put_daemon ?_ ?_ ?_ <;> split_ifs <;> simp
  | mainHandler pid =>
    refine iff_of_true (h.at_daemon
      (fun pid => { s.goto pid .select with handled := s.handled ++ [pid] })
      (by decide) (by decide) fun _ => ?_) trivial
    have hg := h.put_daemon (p := { s.procs 0 with pc := .select }) (by simp) (by simp) (by simp)
    refine ⟨hg.forked, hg.waits, ?_, hg.daemon⟩
    intro i hi
    rcases List.mem_append.mp hi with hi | hi
    · exact h.handled i hi
    · exact List.mem_singleton.mp hi

/-- **Only the daemon drives the ports, exactly in the runs in which every child
is served.**  For every order of the processes' steps and every behaviour of the
clients. -/
theorem only_daemon_iff (es : List Event) :
    Runs.Always step (fun s => OnlyDaemon s ∧ WaitReturns s) initial es ↔
      Runs.Meets step Served initial es := by
  have hsharp : Runs.Always step OnlyDaemon initial es ↔ Runs.Meets step Served initial es :=
    Runs.always_iff_meets onlyDaemon_step_iff onlyDaemon_initial
  constructor
  · intro h
    exact hsharp.mp (h.mono fun s hs => hs.1)
  · intro h
    exact (hsharp.mpr h).mono fun s hs => ⟨hs, hs.waitReturns⟩

/-- A client connects and closes without a message. -/
def connectAndClose : List Event :=
  [.select 0 true false, .accept 0 true, .fork 0 true, .clientRead 1 .readZero, .wait 1,
    .mainHandler 1]

/-- Its child goes on to `wait` and calls `mainHandler`. -/
theorem closed_client_duplicates_daemon :
    ¬ Runs.Always step (fun s => OnlyDaemon s ∧ WaitReturns s) initial connectAndClose ∧
      (Runs.exec step initial connectAndClose).handled = [1] := by
  have hhandled : (Runs.exec step initial connectAndClose).handled = [1] := by
    decide +kernel
  refine ⟨fun h => ?_, hhandled⟩
  have hzero := h.last.1.handled 1 (by rw [hhandled]; exact List.mem_singleton_self 1)
  exact absurd hzero (by decide)

end TfPackages.Restart.Processes
