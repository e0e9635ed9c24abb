import TfPackages.DmAuthentication

/-! # Requests and their answers

What the client does between two waits is one exchange: the calls of
`client_handler` from a datagram to the next `CLIENT_STATE_WAIT`.  The state
machine keeps what it has still to do in several variables, the event bits, the
step counter and the two callback tables.  `Orderly` says how these belong to the
state; every call keeps it, so an exchange always starts with an empty table and
no bit left over, and its calls can be followed one by one.

A request is answered by one message of its own type.  This fails only where the
datagram fills the receive buffer, and the NUL behind it goes outside.  The answer
has the length of the request, so a search gets the whole description only if it
happens to have its length.
-/
namespace TfPackages.Dm

/-- The functions registered in `CLIENT_SATE_INIT`. -/
def registered : List FillMsg :=
  [.getNETinfo, .getSystemInfo, .getBoardInfo, .getUCInfo, .getGateway]

/-- What can be seen of an exchange. -/
inductive Act where
  | fill (f : FillMsg)
  | settings (e : ErrorCode)
  | output (o : Output)
deriving DecidableEq, Repr

/-- The fill callback that a call of `client_handler` runs. -/
def filling (c : Client) : Option FillMsg :=
  if c.clientInfo.state = .fillMsg ∧ c.clientInfo.count < 5 then
    c.eventFillMsg[c.clientInfo.count]?
  else none

/-- What `client_settings` returns, if a call of `client_handler` calls it. -/
def settingsResult (dev : Device) (c : Client) (w : World) : Option ErrorCode :=
  if c.clientInfo.state = .settings then (clientSettings dev c w).map fun r => r.2.1 else none

/-- What is seen of one call with these outputs. -/
def acts (dev : Device) (c : Client) (w : World) (out : List Output) : List Act :=
  (filling c).toList.map .fill ++ (settingsResult dev c w).toList.map .settings ++ out.map .output

/-- The calls of `client_handler` from a state on, up to the next one that leaves
the client in `CLIENT_STATE_WAIT`. -/
inductive Exchange (dev : Device) : Client → (Nat → World) → Client → List Act → Prop where
  | done {c c' : Client} {ws : Nat → World} {out : List Output}
      (call : clientHandler dev c (ws 0) = some (c', out)) (wait : c'.clientInfo.state = .wait) :
      Exchange dev c ws c' (acts dev c (ws 0) out)
  | more {c c₁ c' : Client} {ws : Nat → World} {out : List Output} {rest : List Act}
      (call : clientHandler dev c (ws 0) = some (c₁, out)) (busy : c₁.clientInfo.state ≠ .wait)
      (next : Exchange dev c₁ (fun n => ws (n + 1)) c' rest) :
      Exchange dev c ws c' (acts dev c (ws 0) out ++ rest)

/-! ## What belongs to a state -/

/-- The bits that are dropped in the call that raises them. -/
def momentary (event : BitVec 32) : Prop :=
  Flags.has event eventFind = false ∧ Flags.has event eventSettings = false ∧
    Flags.has event eventMsgReady = false

/-- The bits that are waiting for `CLIENT_STATE_RELOAD`. -/
def noReload (event : BitVec 32) : Prop :=
  Flags.has event eventNetReload = false ∧ Flags.has event eventSysReload = false

/-- What holds whenever `client_handler` is called. -/
structure Orderly (c : Client) : Prop where
  active : c.clientInfo.state ≠ .idle
  fills : c.eventFillMsg = if c.clientInfo.state = .init then [] else registered
  sends : ∀ t, c.eventSendMsg t ≠ none → c.clientInfo.state = .send ∧ t = c.clientInfo.msgType
  bits : momentary c.clientInfo.event
  reload : c.clientInfo.state ≠ .send → c.clientInfo.state ≠ .reload →
    noReload c.clientInfo.event

/-- **Nothing is left over**: the table of send callbacks is empty, and the bits
are down. -/
def Idle (c : Client) : Prop :=
  (∀ t, c.eventSendMsg t = none) ∧ momentary c.clientInfo.event ∧ noReload c.clientInfo.event

theorem Orderly.idle {c : Client} (h : Orderly c) (hw : c.clientInfo.state = .wait) : Idle c := by
  refine ⟨fun t => ?_, h.bits, h.reload (by rw [hw]; decide) (by rw [hw]; decide)⟩
  by_contra hne
  have hs := (h.sends t hne).1
  rw [hw] at hs
  cases hs

/-- Outside `CLIENT_STATE_SEND` no send callback is registered. -/
theorem Orderly.sends_none {c : Client} (h : Orderly c) (hs : c.clientInfo.state ≠ .send)
    (t : TypeMsg) : c.eventSendMsg t = none := by
  by_contra hne
  exact hs (h.sends t hne).1

/-! ## The call that waits -/

/-- The client when it has received a datagram. -/
def Client.receive (c : Client) (d : List UInt8) : Client :=
  { c with buffer := c.buffer.write 0 (d ++ [0]), bufferLen := d.length + 1, datagram := d }

/-- The event a datagram asks for. -/
def requestedEvent (d : List UInt8) : BitVec 32 :=
  if d.head? = some requestFindDevice then eventFind
  else if d.head? = some requestSetConfig then eventSettings
  else if d.head? = some requestToUpdate then eventUpdate
  else 0

/-- The client after the call that receives a datagram. -/
def Client.afterWait (c : Client) (d : List UInt8) : Client :=
  takeEvent eventSettings .settingsMsg .settings
    (takeEvent eventFind .searchMsg .fillMsg ((c.receive d).setEvent (requestedEvent d)))

/-- The first byte in the buffer, where a NUL stands for an empty datagram. -/
theorem first_byte_iff (m : Memory) (d : List UInt8) {cmd : UInt8} (hcmd : cmd ≠ 0) :
    m.write 0 (d ++ [0]) 0 = cmd ↔ d.head? = some cmd := by
  cases d with
  | nil =>
    change (0 : UInt8) = cmd ↔ none = some cmd
    simp [hcmd.symm]
  | cons a d =>
    change a = cmd ↔ some a = some cmd
    rw [Option.some.injEq]

theorem clientHandler_wait (dev : Device) {c : Client} (hs : c.clientInfo.state = .wait) {w : World}
    {d : Datagram} (hr : w.recv = .datagram d) (hlen : d.bytes.length < maxBufferSize) :
    clientHandler dev c w = some (c.afterWait d.bytes, []) := by
  have hall : d.bytes.take maxBufferSize = d.bytes := List.take_of_length_le (by omega)
  have hget : netGetCommand c (.datagram d) =
      some (c.receive d.bytes, c.buffer.write 0 (d.bytes ++ [0]) 0) := by
    unfold netGetCommand
    simp only [hall, if_pos hlen]
    rfl
  have hwait : clientWaitCommand c (.datagram d) =
      some (c.receive d.bytes, requestedEvent d.bytes) := by
    rw [clientWaitCommand, hget, Option.map_some]
    simp only [first_byte_iff _ _ (show requestFindDevice ≠ 0 by decide),
      first_byte_iff _ _ (show requestSetConfig ≠ 0 by decide),
      first_byte_iff _ _ (show requestToUpdate ≠ 0 by decide)]
    rfl
  unfold clientHandler
  rw [hs, hr]
  dsimp only
  rw [hwait]
  rfl

/-- A call that waits and returns has received a datagram that fits. -/
theorem of_clientHandler_wait {dev : Device} {c : Client} (hs : c.clientInfo.state = .wait)
    {w : World} {r : Client × List Output} (h : clientHandler dev c w = some r) :
    ∃ d : Datagram, w.recv = .datagram d ∧ d.bytes.length < maxBufferSize := by
  unfold clientHandler at h
  rw [hs] at h
  obtain ⟨r₁, hwait, -⟩ := Option.bind_eq_some_iff.mp h
  obtain ⟨r₂, hget, -⟩ := Option.map_eq_some_iff.mp hwait
  cases hr : w.recv with
  | error =>
    rw [hr] at hget
    cases hget
  | datagram d =>
    rw [hr] at hget
    obtain ⟨hlt, -⟩ := Option.ite_none_right_eq_some.mp hget
    refine ⟨d, rfl, ?_⟩
    rw [List.length_take] at hlt
    omega

section AfterWait
variable {c : Client} (hb : momentary c.clientInfo.event) {d : List UInt8}
include hb

theorem afterWait_find (hd : d.head? = some requestFindDevice) :
    c.afterWait d = { c.receive d with clientInfo :=
      ⟨.fillMsg, Flags.clear (Flags.set c.clientInfo.event eventFind) eventFind,
        .searchMsg, 0⟩ } := by
  have hset : Flags.has (Flags.clear (Flags.set c.clientInfo.event eventFind) eventFind)
      eventSettings = false := by
    simp (disch := decide) only [Flags.has_clear_of_disjoint, Flags.has_set_of_disjoint, hb.2.1]
  have hfind : Flags.has (Flags.set c.clientInfo.event eventFind) eventFind = true :=
    Flags.has_set_self (by decide) _
  have hfirst : takeEvent eventFind .searchMsg .fillMsg ((c.receive d).setEvent eventFind) =
      { c.receive d with clientInfo :=
        ⟨.fillMsg, Flags.clear (Flags.set c.clientInfo.event eventFind) eventFind,
          .searchMsg, 0⟩ } :=
    if_pos hfind
  rw [Client.afterWait, requestedEvent, if_pos hd, hfirst]
  exact if_neg (by rw [hset]; decide)

theorem afterWait_settings (hd : d.head? = some requestSetConfig) :
    c.afterWait d = { c.receive d with clientInfo :=
      ⟨.settings, Flags.clear (Flags.set c.clientInfo.event eventSettings) eventSettings,
        .settingsMsg, 0⟩ } := by
  have hfind : Flags.has (Flags.set c.clientInfo.event eventSettings) eventFind = false := by
    simp (disch := decide) only [Flags.has_set_of_disjoint, hb.1]
  have hfirst : takeEvent eventFind .searchMsg .fillMsg ((c.receive d).setEvent eventSettings) =
      (c.receive d).setEvent eventSettings :=
    if_neg (by rw [show ((c.receive d).setEvent eventSettings).clientInfo.event =
      Flags.set c.clientInfo.event eventSettings from rfl, hfind]; decide)
  have hne : d.head? ≠ some requestFindDevice := by
    rw [hd]
    decide
  rw [Client.afterWait, requestedEvent, if_neg hne, if_pos hd, hfirst]
  exact if_pos (Flags.has_set_self (by decide) _)

/-- Other datagrams leave the client waiting; an update is noted and nothing else. -/
theorem afterWait_other (hf : d.head? ≠ some requestFindDevice)
    (hset : d.head? ≠ some requestSetConfig) :
    ∃ m, (m = eventUpdate ∨ m = 0) ∧ c.afterWait d = (c.receive d).setEvent m := by
  have hkeep : ∀ m, m = eventUpdate ∨ m = 0 →
      takeEvent eventSettings .settingsMsg .settings
        (takeEvent eventFind .searchMsg .fillMsg ((c.receive d).setEvent m)) =
      (c.receive d).setEvent m := by
    intro m hm
    have hbit : ∀ k, Flags.has m k = false → Flags.has c.clientInfo.event k = false →
        ¬ Flags.has ((c.receive d).setEvent m).clientInfo.event k = true := by
      intro k hk hc
      change ¬ Flags.has (Flags.set c.clientInfo.event m) k = true
      rw [Flags.has_set, hk, hc]
      decide
    have hm' : Flags.has m eventFind = false ∧ Flags.has m eventSettings = false := by
      rcases hm with rfl | rfl <;> decide
    rw [takeEvent, takeEvent, if_neg (hbit _ hm'.1 hb.1), if_neg (hbit _ hm'.2 hb.2.1)]
  unfold Client.afterWait requestedEvent
  rw [if_neg hf, if_neg hset]
  split
  · exact ⟨eventUpdate, Or.inl rfl, hkeep _ (Or.inl rfl)⟩
  · exact ⟨0, Or.inr rfl, hkeep _ (Or.inr rfl)⟩

end AfterWait

/-! ## The other calls -/

section Calls
variable {dev : Device} {c : Client} {w : World}

theorem registerFillmsgs_eq (h : c.eventFillMsg = []) :
    registerFillmsgs c = { c with eventFillMsg := registered } := by
  simp [registerFillmsgs, clientRegisterEventFillmsg, h, registered]

theorem clientRegisterEventSendmsg_none (h : c.eventSendMsg c.clientInfo.msgType = none)
    (f : SendMsg) : clientRegisterEventSendmsg c f =
      { c with eventSendMsg := Function.update c.eventSendMsg c.clientInfo.msgType (some f) } := by
  rw [clientRegisterEventSendmsg, h]

/-- One step of filling the search message. -/
theorem clientHandler_fill (dev : Device) (hs : c.clientInfo.state = .fillMsg)
    (hn : c.clientInfo.count < 5) (hb : Flags.has c.clientInfo.event eventMsgReady = false)
    (w : World) :
    ∃ m : Memory, clientHandler dev c w = some ({ c with
      searchOutMsg := m.write 0 [ackFindDevice]
      clientInfo := { c.clientInfo with count := c.clientInfo.count + 1 } }, []) := by
  unfold clientHandler clientEmitEventFillmsg
  rw [hs]
  dsimp only
  rw [if_pos hn]
  exact ⟨_, if_neg (by rw [hb]; decide)⟩

/-- The step after the last callback. -/
theorem clientHandler_ready (dev : Device) (hs : c.clientInfo.state = .fillMsg)
    (hn : ¬ c.clientInfo.count < 5) (hnone : c.eventSendMsg c.clientInfo.msgType = none)
    (w : World) :
    clientHandler dev c w = some ({ c with
      searchOutMsg := c.searchOutMsg.write 0 [ackFindDevice]
      eventSendMsg := Function.update c.eventSendMsg c.clientInfo.msgType
        (some .clientSendSearchMsg)
      clientInfo := { c.clientInfo with
        state := .send
        event := Flags.clear (Flags.set c.clientInfo.event eventMsgReady) eventMsgReady } },
      []) := by
  unfold clientHandler clientEmitEventFillmsg
  rw [hs]
  dsimp only
  rw [if_neg hn]
  refine (if_pos (Flags.has_set_self (by decide) _)).trans ?_
  rw [clientRegisterEventSendmsg_none (by exact hnone)]
  rfl

/-- The settings request leaves the control variables alone. -/
theorem clientSettings_control {c' : Client} {e : ErrorCode} {out : List Output}
    (h : clientSettings dev c w = some (c', e, out)) :
    c'.clientInfo = c.clientInfo ∧ c'.eventFillMsg = c.eventFillMsg ∧
      c'.eventSendMsg = c.eventSendMsg := by
  obtain ⟨c₁, hbuf, h⟩ := Option.bind_eq_some_iff.mp h
  obtain ⟨-, hc₁⟩ := Option.ite_none_right_eq_some.mp hbuf
  obtain rfl := Option.some.inj hc₁
  have hcheck : ∀ c : Client, (checkRequest dev w c).clientInfo = c.clientInfo ∧
      (checkRequest dev w c).eventFillMsg = c.eventFillMsg ∧
      (checkRequest dev w c).eventSendMsg = c.eventSendMsg := by
    intro c
    exact ⟨rfl, rfl, rfl⟩
  obtain hexec | ⟨e, -, heq⟩ := answerRequest_cases h
  · obtain ⟨-, calls, popens, info, -, -, -, heq⟩ | ⟨-, heq⟩ := executeMsg_cases hexec
    · cases heq
      exact hcheck _
    · cases heq
      exact hcheck _
  · cases heq
    exact hcheck _

theorem clientHandler_settings (hs : c.clientInfo.state = .settings) :
    clientHandler dev c w = (clientSettings dev c w).bind fun r =>
      some (afterSettings (acknowledge r.1 r.2.1) r.2.1, r.2.2) := by
  unfold clientHandler
  rw [hs]
  rfl

/-- The bits that a request which has been carried out leaves for
`CLIENT_STATE_RELOAD`. -/
def noted (info : SettingsInfo) (event : BitVec 32) : BitVec 32 :=
  let event := if info.applySystem then Flags.set event eventSysReload else event
  if info.applyNetwork then Flags.set event eventNetReload else event

theorem afterSettings_ok (h : c.eventSendMsg c.clientInfo.msgType = none) :
    afterSettings c .ok = { c with
      eventSendMsg := Function.update c.eventSendMsg c.clientInfo.msgType (some .clientSendSettMsg)
      clientInfo := { c.clientInfo with
        state := .send, event := noted c.settingsInfo c.clientInfo.event } } := by
  obtain ⟨_, _, _, _, _, _, ⟨net, sys⟩, _, _, _⟩ := c
  simp only [afterSettings, clientRegisterEventSendmsg_none h, noted]
  cases net <;> cases sys <;> rfl

theorem afterSettings_errAuthentication (h : c.eventSendMsg c.clientInfo.msgType = none) :
    afterSettings c .errAuthentication = { c with
      eventSendMsg := Function.update c.eventSendMsg c.clientInfo.msgType (some .clientSendSettMsg)
      clientInfo := { c.clientInfo with state := .send } } := by
  simp only [afterSettings, clientRegisterEventSendmsg_none h]
  rfl

theorem clientHandler_send (hs : c.clientInfo.state = .send) :
    clientHandler dev c w = some (clientSend w (c.setState .reload)) := by
  unfold clientHandler
  rw [hs]

theorem clientHandler_reload (hs : c.clientInfo.state = .reload) :
    clientHandler dev c w =
      some (((c.clearEvent eventSysReload).clearEvent eventNetReload).setState .wait,
        reloads (Flags.has c.clientInfo.event eventSysReload)
          (Flags.has c.clientInfo.event eventNetReload)) := by
  unfold clientHandler
  rw [hs]

/-- Sending moves the message to the buffer and clears the table's entry. -/
theorem clientSend_control (w : World) (c : Client) :
    (clientSend w c).1.clientInfo = c.clientInfo ∧
      (clientSend w c).1.eventFillMsg = c.eventFillMsg ∧
      (clientSend w c).1.eventSendMsg =
        Function.update c.eventSendMsg c.clientInfo.msgType none := by
  unfold clientSend
  cases c.eventSendMsg c.clientInfo.msgType <;> exact ⟨rfl, rfl, rfl⟩

end Calls

/-! ## Every run is orderly -/

/-- Bits that are raised and dropped again leave the others as they were. -/
theorem momentary_clear_set {event m : BitVec 32} (h : momentary event)
    (hm : m = eventFind ∨ m = eventSettings ∨ m = eventMsgReady) :
    momentary (Flags.clear (Flags.set event m) m) := by
  rcases hm with rfl | rfl | rfl <;>
    simp (disch := decide) [momentary, Flags.has_clear_of_disjoint, Flags.has_set_of_disjoint,
      h.1, h.2.1, h.2.2]

theorem noReload_clear_set {event m : BitVec 32} (h : noReload event)
    (hm : m = eventFind ∨ m = eventSettings ∨ m = eventMsgReady) :
    noReload (Flags.clear (Flags.set event m) m) := by
  rcases hm with rfl | rfl | rfl <;>
    simp (disch := decide) [noReload, Flags.has_clear_of_disjoint, Flags.has_set_of_disjoint,
      h.1, h.2]

theorem momentary_noted {event : BitVec 32} (h : momentary event) (info : SettingsInfo) :
    momentary (noted info event) := by
  unfold noted momentary
  cases info.applySystem <;> cases info.applyNetwork <;>
    simp (disch := decide) [Flags.has_set_of_disjoint, h.1, h.2.1, h.2.2]

theorem momentary_clear {event m : BitVec 32} (h : momentary event)
    (hm : m = eventSysReload ∨ m = eventNetReload) : momentary (Flags.clear event m) := by
  rcases hm with rfl | rfl <;>
    simp (disch := decide) [momentary, Flags.has_clear_of_disjoint, h.1, h.2.1, h.2.2]

/-- A client that has just registered the callback for its message. -/
theorem orderly_of_registered {c : Client} {f : SendMsg} {table : TypeMsg → Option SendMsg}
    (hs : c.clientInfo.state = .send) (hfills : c.eventFillMsg = registered)
    (htable : c.eventSendMsg = Function.update table c.clientInfo.msgType (some f))
    (hnone : ∀ t, table t = none) (hb : momentary c.clientInfo.event) : Orderly c where
  active := by rw [hs]; decide
  fills := by rw [hfills, hs, if_neg (by decide)]
  sends := by
    intro t ht
    refine ⟨hs, ?_⟩
    by_contra hne
    rw [htable, Function.update_of_ne hne] at ht
    exact ht (hnone t)
  bits := hb
  reload := fun h => absurd hs h

/-- A client with nothing registered for sending. -/
theorem orderly_of_none {c : Client} (hactive : c.clientInfo.state ≠ .idle)
    (hinit : c.clientInfo.state ≠ .init) (hfills : c.eventFillMsg = registered)
    (hnone : ∀ t, c.eventSendMsg t = none) (hb : momentary c.clientInfo.event)
    (hreload : c.clientInfo.state ≠ .reload → noReload c.clientInfo.event) : Orderly c where
  active := hactive
  fills := by rw [hfills, if_neg hinit]
  sends := fun t ht => absurd (hnone t) ht
  bits := hb
  reload := fun _ => hreload

theorem orderly_wait {c : Client} (hc : Orderly c) (hs : c.clientInfo.state = .wait)
    (d : List UInt8) : Orderly (c.afterWait d) := by
  obtain ⟨hnone, hb, hr⟩ := hc.idle hs
  have hfills : c.eventFillMsg = registered := by
    rw [hc.fills, hs, if_neg (by decide)]
  by_cases hf : d.head? = some requestFindDevice
  · rw [afterWait_find hb hf]
    exact orderly_of_none (by simp) (by simp) hfills hnone (momentary_clear_set hb (by simp))
      fun _ => noReload_clear_set hr (by simp)
  · by_cases hset : d.head? = some requestSetConfig
    · rw [afterWait_settings hb hset]
      exact orderly_of_none (by simp) (by simp) hfills hnone (momentary_clear_set hb (by simp))
        fun _ => noReload_clear_set hr (by simp)
    · obtain ⟨m, hm, heq⟩ := afterWait_other hb hf hset
      have hstate : ((c.receive d).setEvent m).clientInfo.state = .wait := hs
      have hbits : momentary (Flags.set c.clientInfo.event m) ∧
          noReload (Flags.set c.clientInfo.event m) := by
        rcases hm with rfl | rfl <;>
          simp (disch := decide) [momentary, noReload, Flags.has_set_of_disjoint, hb.1, hb.2.1,
            hb.2.2, hr.1, hr.2]
      rw [heq]
      exact orderly_of_none (by rw [hstate]; decide) (by rw [hstate]; decide) hfills hnone
        hbits.1 fun _ => hbits.2

theorem orderly_settings {dev : Device} {c c₁ : Client} {w : World} {e : ErrorCode}
    {out : List Output} (hc : Orderly c) (hs : c.clientInfo.state = .settings)
    (h : clientSettings dev c w = some (c₁, e, out)) :
    Orderly (afterSettings (acknowledge c₁ e) e) := by
  obtain ⟨hinfo, hfills, hsends⟩ := clientSettings_control h
  have hnone : ∀ t, (acknowledge c₁ e).eventSendMsg t = none := by
    intro t
    exact (congrFun hsends t).trans (hc.sends_none (by rw [hs]; decide) t)
  have hfills : (acknowledge c₁ e).eventFillMsg = registered := by
    refine hfills.trans ?_
    rw [hc.fills, hs, if_neg (by decide)]
  have hb : momentary (acknowledge c₁ e).clientInfo.event := by
    change momentary c₁.clientInfo.event
    rw [hinfo]
    exact hc.bits
  have hr : noReload (acknowledge c₁ e).clientInfo.event := by
    change noReload c₁.clientInfo.event
    rw [hinfo]
    exact hc.reload (by rw [hs]; decide) (by rw [hs]; decide)
  cases e with
  | ok =>
    rw [afterSettings_ok (hnone _)]
    exact orderly_of_registered rfl hfills rfl hnone (momentary_noted hb _)
  | errAuthentication =>
    rw [afterSettings_errAuthentication (hnone _)]
    exact orderly_of_registered rfl hfills rfl hnone hb
  | errObjNotFound =>
    have hstate : (afterSettings (acknowledge c₁ .errObjNotFound) .errObjNotFound).clientInfo.state
        = .settings := by
      change c₁.clientInfo.state = .settings
      rw [hinfo, hs]
    exact orderly_of_none (by rw [hstate]; decide) (by rw [hstate]; decide) hfills hnone hb
      fun _ => hr
  | infoMacNotIdentical =>
    exact orderly_of_none (by simp [afterSettings]) (by simp [afterSettings]) hfills hnone hb
      fun _ => hr

/-- **One call of `client_handler`** leaves the client orderly. -/
theorem clientHandler_orderly {dev : Device} {c c' : Client} {w : World} {out : List Output}
    (h : clientHandler dev c w = some (c', out)) (hc : Orderly c) : Orderly c' := by
  have hregistered : c.clientInfo.state ≠ .init → c.eventFillMsg = registered := by
    intro hinit
    rw [hc.fills, if_neg hinit]
  cases hs : c.clientInfo.state with
  | idle => exact absurd hs hc.active
  | init =>
    have hnil : c.eventFillMsg = [] := by rw [hc.fills, if_pos hs]
    unfold clientHandler at h
    rw [hs] at h
    dsimp only at h
    rw [registerFillmsgs_eq hnil] at h
    cases h
    exact orderly_of_none (by simp) (by simp) rfl (hc.sends_none (by rw [hs]; decide)) hc.bits
      fun _ => hc.reload (by rw [hs]; decide) (by rw [hs]; decide)
  | wait =>
    obtain ⟨d, hr, hlen⟩ := of_clientHandler_wait hs h
    rw [clientHandler_wait dev hs hr hlen] at h
    cases h
    exact orderly_wait hc hs d.bytes
  | fillMsg =>
    have hfills := hregistered (by rw [hs]; decide)
    have hnone := hc.sends_none (by rw [hs]; decide)
    have hr := hc.reload (by rw [hs]; decide) (by rw [hs]; decide)
    by_cases hn : c.clientInfo.count < 5
    · obtain ⟨m, hstep⟩ := clientHandler_fill dev hs hn hc.bits.2.2 w
      rw [hstep] at h
      cases h
      exact orderly_of_none (by simp [hs]) (by simp [hs]) hfills hnone hc.bits fun _ => hr
    · rw [clientHandler_ready dev hs hn (hnone _)] at h
      cases h
      exact orderly_of_registered rfl hfills rfl hnone (momentary_clear_set hc.bits (by simp))
  | send =>
    rw [clientHandler_send hs] at h
    obtain ⟨hinfo, hfills, hsends⟩ := clientSend_control w (c.setState .reload)
    obtain rfl : (clientSend w (c.setState .reload)).1 = c' := congrArg Prod.fst (Option.some.inj h)
    have hstate : (clientSend w (c.setState .reload)).1.clientInfo.state = .reload := by
      rw [hinfo]
      rfl
    refine orderly_of_none (by rw [hstate]; decide) (by rw [hstate]; decide)
      (hfills.trans (hregistered (by rw [hs]; decide))) (fun t => ?_) (by rw [hinfo]; exact hc.bits)
      fun hne => absurd hstate hne
    -- the entry of the current type was the only one
    rw [hsends]
    by_cases ht : t = c.clientInfo.msgType
    · rw [ht]
      exact Function.update_self _ _ _
    · refine (Function.update_of_ne ht _ _).trans ?_
      by_contra hne
      exact ht (hc.sends t hne).2
  | settings =>
    rw [clientHandler_settings hs] at h
    obtain ⟨⟨c₁, e, out₁⟩, hset, h⟩ := Option.bind_eq_some_iff.mp h
    cases h
    exact orderly_settings hc hs hset
  | reload =>
    rw [clientHandler_reload hs] at h
    cases h
    refine orderly_of_none (by simp) (by simp) (hregistered (by rw [hs]; decide))
      (hc.sends_none (by rw [hs]; decide))
      (momentary_clear (momentary_clear hc.bits (Or.inl rfl)) (Or.inr rfl)) fun _ => ?_
    change noReload (Flags.clear (Flags.clear c.clientInfo.event eventSysReload) eventNetReload)
    simp (disch := decide) [noReload, Flags.has_clear_of_disjoint]

/-- Every state of a run is orderly. -/
theorem run_orderly {dev : Device} {ws : List World} {c : Client} (h : run dev ws = some c) :
    Orderly c := by
  refine run_invariant ?_ (fun hc hstep => clientHandler_orderly hstep hc) h
  exact ⟨by decide, rfl, fun t ht => absurd rfl ht, ⟨by decide, by decide, by decide⟩,
    fun _ _ => ⟨by decide, by decide⟩⟩

/-! ## The end of an exchange -/

/-- What a send callback copies to the buffer. -/
def SendMsg.message (c : Client) : SendMsg → Memory
  | .clientSendSettMsg => c.settMsg
  | .clientSendSearchMsg => c.searchOutMsg

/-- How much of it is copied. -/
def SendMsg.size : SendMsg → Nat
  | .clientSendSettMsg => settMsgSize
  | .clientSendSearchMsg => searchOutMsgSize

/-- The payload that is sent: what was copied, in the length of what was
received. -/
def SendMsg.payload (c : Client) (f : SendMsg) : List UInt8 :=
  (c.buffer.write 0 ((f.message c).read 0 f.size)).read 0 (c.bufferLen - 1)

theorem sendMsg_run (w : World) (c : Client) (f : SendMsg) :
    (f.run w c).2 = if w.sendOk then [.sendto (f.payload c)] else [] := by
  cases f <;> rfl

/-- The message that is sent starts with the first byte of what was copied. -/
theorem head_payload {c : Client} (f : SendMsg) (hlen : 2 ≤ c.bufferLen) :
    (f.payload c).head? = some (f.message c 0) := by
  obtain ⟨n, hn⟩ : ∃ n, c.bufferLen - 1 = n + 1 := ⟨c.bufferLen - 2, by omega⟩
  have hpos : 0 < ((f.message c).read 0 f.size).length := by
    rw [Memory.length_read]
    cases f <;> decide
  rw [SendMsg.payload, hn, Memory.read, List.range_succ_eq_map]
  exact congrArg some ((c.buffer.write_of_mem 0 hpos).trans (Memory.getElem_read _ hpos))

section Exchanges
variable (dev : Device) {c : Client} (ws : Nat → World)

/-- A call outside the two states that are looked into. -/
theorem acts_of_ne (hf : c.clientInfo.state ≠ .fillMsg) (hs : c.clientInfo.state ≠ .settings)
    (w : World) (out : List Output) : acts dev c w out = out.map .output := by
  rw [acts, filling, settingsResult, if_neg fun h => hf h.1, if_neg hs]
  rfl

theorem exchange_reload (hs : c.clientInfo.state = .reload) :
    ∃ c', c'.searchOutMsg = c.searchOutMsg ∧ Exchange dev c ws c'
      ((reloads (Flags.has c.clientInfo.event eventSysReload)
        (Flags.has c.clientInfo.event eventNetReload)).map .output) := by
  have hacts := acts_of_ne dev (by rw [hs]; decide) (by rw [hs]; decide) (ws 0)
    (reloads (Flags.has c.clientInfo.event eventSysReload)
      (Flags.has c.clientInfo.event eventNetReload))
  rw [← hacts]
  refine ⟨_, ?_, .done (clientHandler_reload hs) rfl⟩
  rfl

/-- From `CLIENT_STATE_SEND` on: the message of the registered callback, and the
restarts that have been noted. -/
theorem exchange_send {f : SendMsg} (hs : c.clientInfo.state = .send)
    (hf : c.eventSendMsg c.clientInfo.msgType = some f) :
    ∃ c', c'.searchOutMsg = c.searchOutMsg ∧
      Exchange dev c ws c' ((if (ws 0).sendOk then [.output (.sendto (f.payload c))] else []) ++
        (reloads (Flags.has c.clientInfo.event eventSysReload)
          (Flags.has c.clientInfo.event eventNetReload)).map .output) := by
  obtain ⟨hinfo, -, -⟩ := clientSend_control (ws 0) (c.setState .reload)
  have hcall : clientSend (ws 0) (c.setState .reload) =
      ({ (f.run (ws 0) (c.setState .reload)).1 with
          eventSendMsg := Function.update c.eventSendMsg c.clientInfo.msgType none },
        (f.run (ws 0) (c.setState .reload)).2) := by
    unfold clientSend
    rw [show (c.setState .reload).eventSendMsg (c.setState .reload).clientInfo.msgType = some f
      from hf]
    rfl
  have hsent : (clientSend (ws 0) (c.setState .reload)).2 =
      if (ws 0).sendOk then [.sendto (f.payload c)] else [] := by
    rw [hcall]
    exact (sendMsg_run (ws 0) (c.setState .reload) f).trans (by cases f <;> rfl)
  obtain ⟨c', hsearch, hrest⟩ := exchange_reload dev (fun n => ws (n + 1))
    (c := (clientSend (ws 0) (c.setState .reload)).1) (by rw [hinfo]; rfl)
  rw [hinfo] at hrest
  refine ⟨c', ?_, ?_⟩
  · rw [hsearch, hcall]
    cases f <;> rfl
  · have hstep : clientHandler dev c (ws 0) = some ((clientSend (ws 0) (c.setState .reload)).1,
        (clientSend (ws 0) (c.setState .reload)).2) := clientHandler_send hs
    have hmore := Exchange.more hstep (by rw [hinfo]; simp) hrest
    rw [acts_of_ne dev (by rw [hs]; decide) (by rw [hs]; decide), hsent,
      apply_ite (List.map Act.output)] at hmore
    exact hmore

/-- From `CLIENT_STATE_FILL_MSG` on: the remaining callbacks, and the message. -/
theorem exchange_fill (n : Nat) (hs : c.clientInfo.state = .fillMsg)
    (hn : c.clientInfo.count + n = 5) (hc : Orderly c) (hsend : ∀ i, (ws i).sendOk = true) :
    ∃ c', c'.searchOutMsg 0 = ackFindDevice ∧ Exchange dev c ws c'
      ((registered.drop c.clientInfo.count).map .fill ++ [.output (.sendto
        (SendMsg.clientSendSearchMsg.payload { c with searchOutMsg := c'.searchOutMsg }))]) := by
  -- `n` is the number of callbacks that are still to be run.
  induction n generalizing c ws with
  | zero =>
    have hcount : ¬ c.clientInfo.count < 5 := by omega
    have hnone := hc.sends_none (by rw [hs]; decide)
    have hstep := clientHandler_ready dev hs hcount (hnone _) (ws 0)
    have hreload := noReload_clear_set (hc.reload (by rw [hs]; decide) (by rw [hs]; decide))
      (m := eventMsgReady) (by simp)
    obtain ⟨c', hsearch, hrest⟩ := exchange_send dev (fun n => ws (n + 1))
      (f := .clientSendSearchMsg) (c := { c with
        searchOutMsg := c.searchOutMsg.write 0 [ackFindDevice]
        eventSendMsg := Function.update c.eventSendMsg c.clientInfo.msgType
          (some .clientSendSearchMsg)
        clientInfo := { c.clientInfo with
          state := .send
          event := Flags.clear (Flags.set c.clientInfo.event eventMsgReady) eventMsgReady } })
      rfl (Function.update_self _ _ _)
    refine ⟨c', by rw [hsearch]; rfl, ?_⟩
    have hmore := Exchange.more hstep (by simp) hrest
    have hacts : acts dev c (ws 0) [] = [] := by
      rw [acts, filling, settingsResult, if_neg fun h => hcount h.2, if_neg (by rw [hs]; decide)]
      rfl
    rw [hacts, hreload.1, hreload.2, if_pos (hsend 1)] at hmore
    rw [show c.clientInfo.count = 5 by omega, hsearch]
    exact hmore
  | succ n ih =>
    have hcount : c.clientInfo.count < 5 := by omega
    obtain ⟨m, hstep⟩ := clientHandler_fill dev hs hcount hc.bits.2.2 (ws 0)
    obtain ⟨c', hack, hrest⟩ := ih (fun n => ws (n + 1)) (c := { c with
      searchOutMsg := m.write 0 [ackFindDevice]
      clientInfo := { c.clientInfo with count := c.clientInfo.count + 1 } })
      hs (by change c.clientInfo.count + 1 + n = 5; omega) (clientHandler_orderly hstep hc)
      fun i => hsend (i + 1)
    refine ⟨c', hack, ?_⟩
    have hlt : c.clientInfo.count < registered.length := hcount
    have hfilling : filling c = some registered[c.clientInfo.count] := by
      rw [filling, if_pos ⟨hs, hcount⟩, hc.fills, hs, if_neg (by decide),
        List.getElem?_eq_getElem hlt]
    have hacts : acts dev c (ws 0) [] = [.fill registered[c.clientInfo.count]] := by
      rw [acts, hfilling, settingsResult, if_neg (by rw [hs]; decide)]
      rfl
    have hmore := Exchange.more hstep (by simp [hs]) hrest
    rw [hacts] at hmore
    rw [List.drop_eq_getElem_cons hlt]
    exact hmore

/-- The restarts that `CLIENT_STATE_RELOAD` is told of. -/
theorem has_noted {event : BitVec 32} (h : noReload event) (info : SettingsInfo) :
    Flags.has (noted info event) eventSysReload = info.applySystem ∧
      Flags.has (noted info event) eventNetReload = info.applyNetwork := by
  obtain ⟨net, sys⟩ := info
  cases net <;> cases sys <;>
    simp (disch := decide) [noted, Flags.has_set_of_disjoint, Flags.has_set_self, h.1, h.2]

/-- The call that calls `client_settings`, and what is seen of it. -/
theorem call_settings {c₁ : Client} {e : ErrorCode} {out : List Output} {w : World}
    (hs : c.clientInfo.state = .settings) (h : clientSettings dev c w = some (c₁, e, out)) :
    clientHandler dev c w = some (afterSettings (acknowledge c₁ e) e, out) ∧
      acts dev c w out = .settings e :: out.map .output := by
  constructor
  · rw [clientHandler_settings hs, h]
    rfl
  · have hfill : ¬ (c.clientInfo.state = .fillMsg ∧ c.clientInfo.count < 5) := by
      rw [hs]
      rintro ⟨hf, -⟩
      cases hf
    rw [acts, filling, settingsResult, if_neg hfill, if_pos hs, h]
    rfl

/-- From `CLIENT_STATE_SETTINGS` on, for a request that is answered: what
`client_settings` does, the acknowledgement, and the restarts. -/
theorem exchange_settings {c₁ : Client} {e : ErrorCode} {out : List Output} {info : SettingsInfo}
    (hs : c.clientInfo.state = .settings) (hc : Orderly c)
    (h : clientSettings dev c (ws 0) = some (c₁, e, out))
    (he : e = .ok ∧ info = c₁.settingsInfo ∨ e = .errAuthentication ∧ info = ⟨false, false⟩) :
    ∃ c' msg, (2 ≤ c.bufferLen → msg.head? = some ackToSetConfig) ∧ Exchange dev c ws c'
      (.settings e :: out.map .output ++ ((if (ws 1).sendOk then [.output (.sendto msg)] else []) ++
        (reloads info.applySystem info.applyNetwork).map .output)) := by
  obtain ⟨hinfo, -, hsends⟩ := clientSettings_control h
  have hbuf : (acknowledge c₁ e).bufferLen = c.bufferLen := (clientSettings_sameInput h).2.1
  have hnone : (acknowledge c₁ e).eventSendMsg (acknowledge c₁ e).clientInfo.msgType = none :=
    (congrFun hsends _).trans (hc.sends_none (by rw [hs]; decide) _)
  have hreload : noReload (acknowledge c₁ e).clientInfo.event := by
    change noReload c₁.clientInfo.event
    rw [hinfo]
    exact hc.reload (by rw [hs]; decide) (by rw [hs]; decide)
  have hack : (acknowledge c₁ e).settMsg 0 = ackToSetConfig := rfl
  -- The two ways to be answered differ in the restarts that are noted.
  have hafter : ∃ event, Flags.has event eventSysReload = info.applySystem ∧
      Flags.has event eventNetReload = info.applyNetwork ∧
      afterSettings (acknowledge c₁ e) e = { acknowledge c₁ e with
        eventSendMsg := Function.update (acknowledge c₁ e).eventSendMsg
          (acknowledge c₁ e).clientInfo.msgType (some .clientSendSettMsg)
        clientInfo := { (acknowledge c₁ e).clientInfo with state := .send, event := event } } := by
    rcases he with ⟨rfl, rfl⟩ | ⟨rfl, rfl⟩
    · obtain ⟨hsys, hnet⟩ := has_noted hreload c₁.settingsInfo
      exact ⟨_, hsys, hnet, afterSettings_ok hnone⟩
    · exact ⟨_, hreload.2, hreload.1, afterSettings_errAuthentication hnone⟩
  obtain ⟨event, hsys, hnet, hafter⟩ := hafter
  obtain ⟨hstep, hacts⟩ := call_settings dev hs h
  rw [hafter] at hstep
  obtain ⟨c', -, hrest⟩ := exchange_send dev (fun n => ws (n + 1))
    (f := .clientSendSettMsg) (c := { acknowledge c₁ e with
      eventSendMsg := Function.update (acknowledge c₁ e).eventSendMsg
        (acknowledge c₁ e).clientInfo.msgType (some .clientSendSettMsg)
      clientInfo := { (acknowledge c₁ e).clientInfo with state := .send, event := event } })
    rfl (Function.update_self _ _ _)
  rw [hsys, hnet] at hrest
  rw [← hacts]
  refine ⟨c', _, fun hlen => ?_, .more hstep (by simp) hrest⟩
  rw [head_payload _ (by exact hbuf ▸ hlen)]
  exact congrArg some hack

/-- A request for another device ends the exchange at once. -/
theorem exchange_ignored {c₁ : Client} {out : List Output} (hs : c.clientInfo.state = .settings)
    (h : clientSettings dev c (ws 0) = some (c₁, .infoMacNotIdentical, out)) :
    ∃ c', Exchange dev c ws c' (.settings .infoMacNotIdentical :: out.map .output) := by
  obtain ⟨hstep, hacts⟩ := call_settings dev hs h
  rw [← hacts]
  exact ⟨_, .done hstep rfl⟩

end Exchanges

/-! ## One answer for each request -/

/-- The messages that are sent. -/
def sends (acts : List Act) : List (List UInt8) :=
  acts.filterMap fun
    | .output (.sendto msg) => some msg
    | _ => none

/-- What `client_settings` returned. -/
def results (acts : List Act) : List ErrorCode :=
  acts.filterMap fun
    | .settings e => some e
    | _ => none

/-- **One answer for each request**: what is seen of the exchange that a datagram
starts. -/
def Answered (d : List UInt8) (acts : List Act) : Prop :=
  if d.head? = some requestFindDevice then
    ∃ msg, acts = registered.map .fill ++ [.output (.sendto msg)] ∧
      msg.head? = some ackFindDevice
  else if d.head? = some requestSetConfig then
    (∃ e msg, (e = .ok ∨ e = .errAuthentication) ∧ results acts = [e] ∧ sends acts = [msg] ∧
        msg.head? = some ackToSetConfig) ∨
      results acts = [.infoMacNotIdentical] ∧ sends acts = []
  else acts = []

/-- The datagram is received, sockets and allocation succeed, and
`client_settings` returns if it is called. -/
structure Succeeds (dev : Device) (c : Client) (d : Datagram) (ws : Nat → World) : Prop where
  recv : (ws 0).recv = .datagram d
  malloc : ∀ i, (ws i).mallocOk = true
  send : ∀ i, (ws i).sendOk = true
  settings : ∀ r, clientHandler dev c (ws 0) = some r → r.1.clientInfo.state = .settings →
    (clientSettings dev r.1 (ws 1)).isSome = true

/-- What `client_settings` does: it sends nothing itself, and with memory for the
table it ends in one of three ways. -/
theorem clientSettings_result {dev : Device} {c c' : Client} {w : World} {e : ErrorCode}
    {out : List Output} (h : clientSettings dev c w = some (c', e, out)) :
    (∀ msg, Output.sendto msg ∉ out) ∧ (w.mallocOk = true → e ≠ .errObjNotFound) := by
  obtain ⟨c₁, -, h⟩ := Option.bind_eq_some_iff.mp h
  obtain hexec | ⟨e, he, heq⟩ := answerRequest_cases h
  · obtain ⟨-, calls, popens, info, -, -, -, heq⟩ | ⟨hm, heq⟩ := executeMsg_cases hexec
    · cases heq
      refine ⟨fun msg hmem => ?_, fun _ => by decide⟩
      unfold reloads at hmem
      split_ifs at hmem <;> simp at hmem
    · cases heq
      exact ⟨by simp, fun ht => by simp [ht] at hm⟩
  · cases heq
    refine ⟨by simp, fun _ => ?_⟩
    rcases he with rfl | rfl <;> decide

theorem sends_append (l l' : List Act) : sends (l ++ l') = sends l ++ sends l' :=
  List.filterMap_append

theorem sends_settings (e : ErrorCode) (l : List Act) : sends (.settings e :: l) = sends l := rfl

theorem sends_map_output {out : List Output} (h : ∀ msg, Output.sendto msg ∉ out) :
    sends (out.map .output) = [] := by
  rw [sends, List.filterMap_map, List.filterMap_eq_nil_iff]
  intro o ho
  cases o with
  | sendto msg => exact absurd ho (h msg)
  | settingsHandler => rfl
  | popen p => rfl

theorem sendto_not_mem_reloads (sys net : Bool) (msg : List UInt8) :
    Output.sendto msg ∉ reloads sys net := by
  cases sys <;> cases net <;> simp [reloads]

theorem results_append (l l' : List Act) : results (l ++ l') = results l ++ results l' :=
  List.filterMap_append

theorem results_settings (e : ErrorCode) (l : List Act) :
    results (.settings e :: l) = e :: results l := rfl

theorem results_map_output (out : List Output) : results (out.map .output) = [] := by
  rw [results, List.filterMap_map, List.filterMap_eq_nil_iff]
  exact fun o _ => rfl

/-- A request and the NUL behind it are two bytes at least. -/
theorem two_le_of_head {d : List UInt8} {b : UInt8} (h : d.head? = some b) :
    2 ≤ d.length + 1 := by
  have hpos := List.length_pos_iff.mpr (List.ne_nil_of_mem (List.mem_of_mem_head? h))
  omega

/-- A search request runs the callbacks and sends the search message, in the
length of the request. -/
theorem find_exchange {dev : Device} {c : Client} {d : Datagram} {ws : Nat → World}
    (hc : Orderly c) (hw : c.clientInfo.state = .wait) (hrecv : (ws 0).recv = .datagram d)
    (hsend : ∀ i, (ws i).sendOk = true) (hlen : d.bytes.length < maxBufferSize)
    (hd : d.bytes.head? = some requestFindDevice) :
    ∃ c', c'.searchOutMsg 0 = ackFindDevice ∧ Exchange dev c ws c'
      (registered.map .fill ++ [.output (.sendto (SendMsg.clientSendSearchMsg.payload
        { c.receive d.bytes with searchOutMsg := c'.searchOutMsg }))]) := by
  have hstep := clientHandler_wait dev hw hrecv hlen
  have horderly := orderly_wait hc hw d.bytes
  rw [afterWait_find hc.bits hd] at hstep horderly
  obtain ⟨c', hack, hrest⟩ := exchange_fill dev (fun n => ws (n + 1))
    5 (c := { c.receive d.bytes with clientInfo :=
      ⟨.fillMsg, Flags.clear (Flags.set c.clientInfo.event eventFind) eventFind, .searchMsg, 0⟩ })
    rfl rfl horderly fun i => hsend (i + 1)
  have hmore := Exchange.more hstep (by simp) hrest
  rw [acts_of_ne dev (by rw [hw]; decide) (by rw [hw]; decide)] at hmore
  exact ⟨c', hack, hmore⟩

section Answers
variable {dev : Device} {c : Client} {d : Datagram} {ws : Nat → World}
  (hc : Orderly c) (hw : c.clientInfo.state = .wait) (hok : Succeeds dev c d ws)
  (hlen : d.bytes.length < maxBufferSize)
include hc hw hok hlen

theorem answered_find (hd : d.bytes.head? = some requestFindDevice) :
    ∃ c' acts, Exchange dev c ws c' acts ∧ Answered d.bytes acts := by
  obtain ⟨c', hack, hex⟩ := find_exchange hc hw hok.recv hok.send hlen hd
  refine ⟨c', _, hex, ?_⟩
  rw [Answered, if_pos hd]
  refine ⟨_, rfl, ?_⟩
  rw [head_payload _ (two_le_of_head hd)]
  exact congrArg some hack

theorem answered_settings (hd : d.bytes.head? = some requestSetConfig) :
    ∃ c' acts, Exchange dev c ws c' acts ∧ Answered d.bytes acts := by
  have hne : d.bytes.head? ≠ some requestFindDevice := by
    rw [hd]
    decide
  have hpos := two_le_of_head hd
  have hstep := clientHandler_wait dev hw hok.recv hlen
  have horderly := orderly_wait hc hw d.bytes
  have hafter := afterWait_settings hc.bits hd
  have hs : (c.afterWait d.bytes).clientInfo.state = .settings := by rw [hafter]
  have hbuf : 2 ≤ (c.afterWait d.bytes).bufferLen := by
    rw [hafter]
    exact hpos
  obtain ⟨⟨c₁, e, out⟩, hset⟩ := Option.isSome_iff_exists.mp (hok.settings _ hstep hs)
  obtain ⟨hsend, hmalloc⟩ := clientSettings_result hset
  have hfirst := acts_of_ne dev (c := c) (by rw [hw]; decide) (by rw [hw]; decide)
    (ws 0) []
  have hanswered : ∀ info, (e = .ok ∧ info = c₁.settingsInfo ∨
      e = .errAuthentication ∧ info = ⟨false, false⟩) →
      ∃ c' acts, Exchange dev c ws c' acts ∧ Answered d.bytes acts := by
    intro info he
    obtain ⟨c', msg, hhead, hrest⟩ := exchange_settings dev (fun n => ws (n + 1)) hs horderly
      hset he
    have hmore := Exchange.more hstep (by rw [hs]; decide) hrest
    rw [hfirst, if_pos (hok.send 2), List.map_nil, List.nil_append] at hmore
    refine ⟨c', _, hmore, ?_⟩
    rw [Answered, if_neg hne, if_pos hd]
    refine Or.inl ⟨e, msg, he.imp And.left And.left, ?_, ?_, hhead hbuf⟩
    · rw [results_append, results_append, results_settings, results_map_output,
        results_map_output]
      rfl
    · rw [sends_append, sends_append, sends_settings, sends_map_output hsend,
        sends_map_output (sendto_not_mem_reloads _ _)]
      rfl
  cases he : e with
  | ok => exact hanswered c₁.settingsInfo (Or.inl ⟨he, rfl⟩)
  | errAuthentication => exact hanswered ⟨false, false⟩ (Or.inr ⟨he, rfl⟩)
  | errObjNotFound => exact absurd he (hmalloc (hok.malloc 1))
  | infoMacNotIdentical =>
    rw [he] at hset
    obtain ⟨c', hrest⟩ := exchange_ignored dev (fun n => ws (n + 1)) hs hset
    have hmore := Exchange.more hstep (by rw [hs]; decide) hrest
    rw [hfirst, List.map_nil, List.nil_append] at hmore
    refine ⟨c', _, hmore, ?_⟩
    rw [Answered, if_neg hne, if_pos hd]
    refine Or.inr ⟨?_, ?_⟩
    · rw [results_settings, results_map_output]
    · rw [sends_settings, sends_map_output hsend]

theorem answered_other (hf : d.bytes.head? ≠ some requestFindDevice)
    (hset : d.bytes.head? ≠ some requestSetConfig) :
    ∃ c' acts, Exchange dev c ws c' acts ∧ Answered d.bytes acts := by
  have hstep := clientHandler_wait dev hw hok.recv hlen
  obtain ⟨m, -, hafter⟩ := afterWait_other hc.bits hf hset
  rw [hafter] at hstep
  have hdone := Exchange.done hstep hw
  rw [acts_of_ne dev (by rw [hw]; decide) (by rw [hw]; decide)] at hdone
  refine ⟨_, _, hdone, ?_⟩
  rw [Answered, if_neg hf, if_neg hset]
  rfl

end Answers

/-- An exchange takes place only if the datagram leaves room for the NUL. -/
theorem exchange_fits {dev : Device} {c c' : Client} {d : Datagram} {ws : Nat → World}
    {acts : List Act} (hw : c.clientInfo.state = .wait) (hrecv : (ws 0).recv = .datagram d)
    (hex : Exchange dev c ws c' acts) : d.bytes.length < maxBufferSize := by
  obtain ⟨r, hr⟩ : ∃ r, clientHandler dev c (ws 0) = some r := by
    cases hex with
    | done call _ => exact ⟨_, call⟩
    | more call _ _ => exact ⟨_, call⟩
  obtain ⟨d', hrecv', hlen⟩ := of_clientHandler_wait hw hr
  rw [hrecv] at hrecv'
  cases hrecv'
  exact hlen

/-- **Every request gets its one answer, and nothing is left over at a wait,
exactly when the datagram leaves room for the NUL in the receive buffer**, in
every run of the client. -/
theorem one_answer_iff {dev : Device} {history : List World} {c : Client} {d : Datagram}
    {ws : Nat → World} (hrun : run dev history = some c) (hw : c.clientInfo.state = .wait)
    (hok : Succeeds dev c d ws) :
    (Idle c ∧ ∃ c' acts, Exchange dev c ws c' acts ∧ Answered d.bytes acts) ↔
      d.bytes.length < maxBufferSize := by
  have hc := run_orderly hrun
  constructor
  · rintro ⟨-, c', acts, hex, -⟩
    exact exchange_fits hw hok.recv hex
  · intro hlen
    refine ⟨hc.idle hw, ?_⟩
    by_cases hf : d.bytes.head? = some requestFindDevice
    · exact answered_find hc hw hok hlen hf
    · by_cases hset : d.bytes.head? = some requestSetConfig
      · exact answered_settings hc hw hok hlen hset
      · exact answered_other hc hw hok hlen hf hset

/-- The shortest search request. -/
def findRequest : Datagram := ⟨[requestFindDevice], by decide⟩

theorem one_answer_findRequest :
    (∃ c, run labDevice [calm findRequest] = some c ∧ c.clientInfo.state = .wait ∧
      Succeeds labDevice c findRequest fun _ => calm findRequest) ∧
    ∃ c, run labDevice [calm findRequest] = some c ∧ ((Idle c ∧ ∃ c' acts,
      Exchange labDevice c (fun _ => calm findRequest) c' acts ∧
        Answered findRequest.bytes acts) ↔ findRequest.bytes.length < maxBufferSize) := by
  have hok : Succeeds labDevice ((registerFillmsgs Client.start).setState .wait) findRequest
      fun _ => calm findRequest := by
    refine ⟨rfl, fun _ => rfl, fun _ => rfl, fun r hr hs => ?_⟩
    rw [clientHandler_wait labDevice rfl rfl (by decide)] at hr
    cases hr
    exact absurd hs (by decide)
  have hrun : run labDevice [calm findRequest] =
      some ((registerFillmsgs Client.start).setState .wait) := rfl
  exact ⟨⟨_, hrun, rfl, hok⟩, _, hrun, one_answer_iff hrun rfl hok⟩

/-- A search request that fills the receive buffer. -/
def longRequest : Datagram := ⟨requestFindDevice :: List.replicate 1549 0, by
  rw [List.length_cons, List.length_replicate]
  omega⟩

/-- The NUL goes behind the buffer, and no exchange takes place. -/
theorem long_request_not_answered :
    ∃ c, run labDevice [calm longRequest] = some c ∧ c.clientInfo.state = .wait ∧
      Succeeds labDevice c longRequest (fun _ => calm longRequest) ∧
      ¬ ∃ c' acts, Exchange labDevice c (fun _ => calm longRequest) c' acts ∧
        Answered longRequest.bytes acts := by
  have hnone : ∀ r, clientHandler labDevice ((registerFillmsgs Client.start).setState .wait)
      (calm longRequest) ≠ some r := by
    intro r hr
    obtain ⟨d, hrecv, hlen⟩ := of_clientHandler_wait rfl hr
    obtain rfl : longRequest = d := Recv.datagram.inj hrecv
    rw [longRequest, List.length_cons, List.length_replicate] at hlen
    exact absurd hlen (by decide)
  refine ⟨_, rfl, rfl, ⟨rfl, fun _ => rfl, fun _ => rfl, fun r hr => absurd hr (hnone r)⟩, ?_⟩
  rintro ⟨c', acts, hex, -⟩
  cases hex with
  | done call _ => exact hnone _ call
  | more call _ _ => exact hnone _ call

/-! ## What a search is answered with -/

/-- What is seen of an exchange is determined by the client and the world. -/
theorem Exchange.unique {dev : Device} {c c₁ c₂ : Client} {ws : Nat → World}
    {acts₁ acts₂ : List Act}
    (h₁ : Exchange dev c ws c₁ acts₁) (h₂ : Exchange dev c ws c₂ acts₂) :
    c₁ = c₂ ∧ acts₁ = acts₂ := by
  induction h₁ generalizing c₂ acts₂ with
  | done call wait =>
    cases h₂ with
    | done call' _ =>
      rw [call] at call'
      cases call'
      exact ⟨rfl, rfl⟩
    | more call' busy' _ =>
      rw [call] at call'
      cases call'
      exact absurd wait busy'
  | more call busy _ ih =>
    cases h₂ with
    | done call' wait' =>
      rw [call] at call'
      cases call'
      exact absurd wait' busy
    | more call' _ next' =>
      rw [call] at call'
      cases call'
      obtain ⟨rfl, rfl⟩ := ih next'
      exact ⟨rfl, rfl⟩

/-- The exchange takes place and sends the search message as it is afterwards,
all of it and nothing else. -/
def DescriptionSent (dev : Device) (c : Client) (ws : Nat → World) : Prop :=
  ∃ c' acts, Exchange dev c ws c' acts ∧
    sends acts = [c'.searchOutMsg.read 0 searchOutMsgSize]

/-- The exchange that a search request starts sends the description under a
buffer full of the request. -/
theorem sends_find (c : Client) (d : List UInt8) (m : Memory) :
    sends (registered.map .fill ++ [.output (.sendto (SendMsg.clientSendSearchMsg.payload
      { c.receive d with searchOutMsg := m }))]) =
      [((c.receive d).buffer.write 0 (m.read 0 searchOutMsgSize)).read 0 d.length] := rfl

/-- The answer has the length of the request. -/
theorem DescriptionSent.length_eq {dev : Device} {c : Client} {d : Datagram} {ws : Nat → World}
    (h : DescriptionSent dev c ws) (hc : Orderly c) (hw : c.clientInfo.state = .wait)
    (hrecv : (ws 0).recv = .datagram d) (hsend : ∀ i, (ws i).sendOk = true)
    (hd : d.bytes.head? = some requestFindDevice) :
    d.bytes.length = searchOutMsgSize := by
  obtain ⟨c', acts, hex, hsent⟩ := h
  have hlen : d.bytes.length < maxBufferSize := exchange_fits hw hrecv hex
  obtain ⟨c'', -, hex'⟩ := find_exchange hc hw hrecv hsend hlen hd
  obtain ⟨rfl, rfl⟩ := hex.unique hex'
  rw [sends_find] at hsent
  have hlength := congrArg List.length (List.singleton_inj.mp hsent)
  rwa [Memory.length_read, Memory.length_read] at hlength

/-- **A search is answered with the whole description exactly if the request is as
long as it**, in every run of the client. -/
theorem description_sent_iff {dev : Device} {history : List World} {c : Client} {d : Datagram}
    {ws : Nat → World} (hrun : run dev history = some c) (hw : c.clientInfo.state = .wait)
    (hrecv : (ws 0).recv = .datagram d) (hsend : ∀ i, (ws i).sendOk = true)
    (hd : d.bytes.head? = some requestFindDevice) :
    DescriptionSent dev c ws ↔ d.bytes.length = searchOutMsgSize := by
  have hc := run_orderly hrun
  constructor
  · intro h
    exact h.length_eq hc hw hrecv hsend hd
  · intro hlen
    obtain ⟨c', -, hex⟩ := find_exchange hc hw hrecv hsend (by rw [hlen]; decide) hd
    refine ⟨c', _, hex, ?_⟩
    have hself := Memory.read_write_self (c.receive d.bytes).buffer 0
      (c'.searchOutMsg.read 0 searchOutMsgSize)
    rw [Memory.length_read] at hself
    rw [sends_find, hlen, hself]

/-- A search request with the length of the answer. -/
def fullRequest : Datagram := ⟨requestFindDevice :: List.replicate 443 0, by
  rw [List.length_cons, List.length_replicate]
  omega⟩

theorem description_sent_fullRequest :
    ∃ c, run labDevice [calm fullRequest] = some c ∧
      (DescriptionSent labDevice c (fun _ => calm fullRequest) ↔
        fullRequest.bytes.length = searchOutMsgSize) := by
  have hrun : run labDevice [calm fullRequest] =
      some ((registerFillmsgs Client.start).setState .wait) := rfl
  exact ⟨_, hrun, description_sent_iff hrun rfl rfl (fun _ => rfl) rfl⟩

/-- The shortest search request is answered with one byte. -/
theorem short_request_cut :
    ∃ c, run labDevice [calm findRequest] = some c ∧ c.clientInfo.state = .wait ∧
      findRequest.bytes.head? = some requestFindDevice ∧
      ¬ DescriptionSent labDevice c (fun _ => calm findRequest) := by
  have hrun : run labDevice [calm findRequest] =
      some ((registerFillmsgs Client.start).setState .wait) := rfl
  refine ⟨_, hrun, rfl, rfl, fun h => ?_⟩
  exact absurd (h.length_eq (d := findRequest) (run_orderly hrun) rfl rfl (fun _ => rfl) rfl)
    (by decide)

end TfPackages.Dm
