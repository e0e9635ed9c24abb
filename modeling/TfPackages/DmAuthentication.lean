import TfPackages.DmClient

/-! # Authentication of settings requests

A settings request is to be carried out only if it names the device's MAC
address and carries the stored hash.  The two checks drop a bit of `passFlag`
and return the variable, and `client_settings` writes `passFlag |= check()`; the
variable is read after the call, so the bit stays down.

The settings message is not cleared between requests, so a datagram that is too
short is checked together with what earlier ones left.  This is harmless: the last
byte of the hash field is zero at the start of every request, which is the
invariant `Settled`, so only a datagram that fills the field can pass.  What is
not harmless is a datagram that does not fit into the settings message: it is
copied there before the checks.  A request is carried out only if it is authentic
exactly when `Guarded` holds.
-/
namespace TfPackages.Dm

/-- The datagram carries the device's MAC address and the stored hash. -/
def Authentic (dev : Device) (d : List UInt8) : Prop :=
  39 ≤ d.length ∧ (d.drop 1).take 6 = List.ofFn dev.mac ∧
    (d.drop 7).take 32 = List.ofFn dev.dmhash.bytes

/-- `f` drops the flag `m` unless `ok`, and returns `passFlag`. -/
structure Checks (f : Client → Client × BitVec 32) (m : BitVec 32) (ok : Prop) [Decidable ok]
    (c : Client) : Prop where
  returns : (f c).2 = (f c).1.passFlag
  drops : (f c).2 = if ok then c.passFlag else Flags.clear c.passFlag m
  keeps : (f c).1.settMsg = c.settMsg

namespace Checks
variable {f : Client → Client × BitVec 32} {m k : BitVec 32} {ok : Prop} [Decidable ok] {c : Client}

/-- What the variable holds afterwards is what the check has returned. -/
theorem passFlag_eq (h : Checks f m ok c) : (passFlagOrAssign f c).passFlag = (f c).2 := by
  change (f c).1.passFlag ||| (f c).2 = (f c).2
  rw [← h.returns, BitVec.or_self]

/-- The flag is down afterwards exactly if the check fails. -/
theorem has_eq_false_iff (h : Checks f m ok c) (hm : Flags.has c.passFlag m = true) :
    Flags.has (passFlagOrAssign f c).passFlag m = false ↔ ¬ ok := by
  rw [h.passFlag_eq, h.drops]
  by_cases hok : ok <;> simp [hok, hm]

theorem settMsg_eq (h : Checks f m ok c) : (passFlagOrAssign f c).settMsg = c.settMsg := by
  rw [← h.keeps]
  rfl

end Checks

/-- The MAC address is in the search message after `getNETinfo`. -/
theorem read_mac_getNETinfo (dev : Device) (m : Memory) :
    (getNETinfo dev m).read 6 6 = List.ofFn dev.mac := by
  unfold getNETinfo
  rw [Memory.read_write_of_disjoint _ (by simp), Memory.read_write_of_disjoint _ (by simp)]
  have h := Memory.read_write_self m 6 (List.ofFn dev.mac)
  rwa [List.length_ofFn] at h

theorem checkMacAddress_checks (dev : Device) (c : Client) :
    Checks (checkMacAddress dev) passMac (c.settMsg.read 1 6 = List.ofFn dev.mac) c where
  returns := rfl
  drops := by
    unfold checkMacAddress
    simp only [read_mac_getNETinfo, eq_comm]
  keeps := rfl

theorem checkMD5Sum_checks (dev : Device) (w : World) (c : Client) :
    Checks (checkMD5Sum dev w) passMd5
      (w.fopenOk = true ∧ c.settMsg.read 7 32 = List.ofFn dev.dmhash.bytes) c where
  returns := rfl
  drops := by
    unfold checkMD5Sum
    cases w.fopenOk <;> simp
  keeps := rfl

section Both
variable (dev : Device) (w : World) {c : Client}

theorem settMsg_checkRequest (c : Client) : (checkRequest dev w c).settMsg = c.settMsg := by
  unfold checkRequest
  rw [(checkMD5Sum_checks dev w _).settMsg_eq, (checkMacAddress_checks dev c).settMsg_eq]

end Both

/-! ## One request -/

/-- What holds whenever `client_handler` is called: the hash field of the settings
message ends in a zero, and a settings request is in the receive buffer as it
came, with a NUL behind it. -/
structure Settled (c : Client) : Prop where
  md5_last : c.settMsg 38 = 0
  received : c.clientInfo.state = .settings →
    c.bufferLen = c.datagram.length + 1 ∧ c.buffer.read 0 c.bufferLen = c.datagram ++ [0]

/-- The two ends of `client_settings` for a request that has passed: the settings
are carried out, or there is no memory for the table. -/
theorem executeMsg_cases {c : Client} {w : World} {r : Client × ErrorCode × List Output}
    (h : executeMsg c w = some r) :
    (w.mallocOk = true ∧ ∃ calls popens info,
      runSettings (c.settMsg.read 39 (settMsgSize - 39)) = some calls ∧
      calls.mapM (Call.run w.shell) = some popens ∧
      info = calls.foldl (fun info call => call.apply w.shell info) ⟨false, false⟩ ∧
      r = ({ c with
        settMsg := c.settMsg.write 39
          (splitInPlace w.mallocOk (c.settMsg.read 39 (settMsgSize - 39)))
        settingsInfo := info }, .ok, .settingsHandler :: popens.flatten.map .popen ++
          reloads info.applySystem info.applyNetwork)) ∨
    w.mallocOk = false ∧ r = ({ c with
      settMsg := c.settMsg.write 39
        (splitInPlace w.mallocOk (c.settMsg.read 39 (settMsgSize - 39))) },
      .errObjNotFound, [.settingsHandler]) := by
  unfold executeMsg at h
  split at h
  · rename_i hm
    obtain ⟨calls, hcalls, h⟩ := Option.bind_eq_some_iff.mp h
    obtain ⟨popens, hpopens, h⟩ := Option.bind_eq_some_iff.mp h
    exact .inl ⟨hm, calls, popens, _, hcalls, hpopens, rfl, (Option.some.inj h).symm⟩
  · rename_i hm
    exact .inr ⟨Bool.not_eq_true _ ▸ hm, (Option.some.inj h).symm⟩

/-- A request is carried out, or refused with nothing changed. -/
theorem answerRequest_cases {c : Client} {w : World} {r : Client × ErrorCode × List Output}
    (h : answerRequest c w = some r) :
    executeMsg c w = some r ∨
      ∃ e, (e = .errAuthentication ∨ e = .infoMacNotIdentical) ∧ r = (c, e, []) := by
  unfold answerRequest at h
  split_ifs at h
  · exact .inl h
  · exact .inr ⟨_, .inl rfl, (Option.some.inj h).symm⟩
  · exact .inr ⟨_, .inr rfl, (Option.some.inj h).symm⟩

/-- The client before the checks: both flags up, and the datagram in the settings
message. -/
def withRequest (c : Client) : Client :=
  { raiseFlags c with settMsg := c.settMsg.write 0 (c.datagram ++ [0]) }

theorem getBuffer_raiseFlags {c : Client} (h : c.bufferLen = c.datagram.length + 1 ∧
    c.buffer.read 0 c.bufferLen = c.datagram ++ [0]) :
    getBuffer (raiseFlags c) = if c.datagram.length < settMsgSize then some (withRequest c)
      else none := by
  obtain ⟨hlen, hread⟩ := h
  unfold getBuffer
  change (if c.bufferLen ≤ settMsgSize then some { raiseFlags c with
    settMsg := c.settMsg.write 0 (c.buffer.read 0 c.bufferLen) } else none) = _
  rw [hread, hlen]
  rfl

/-- What a settings request cannot change: what has been received. -/
def SameInput (c c' : Client) : Prop :=
  c'.buffer = c.buffer ∧ c'.bufferLen = c.bufferLen ∧ c'.datagram = c.datagram

theorem SameInput.trans {c c₁ c₂ : Client} (h : SameInput c c₁) (h' : SameInput c₁ c₂) :
    SameInput c c₂ := by
  obtain ⟨hb, hl, hd⟩ := h
  obtain ⟨hb', hl', hd'⟩ := h'
  exact ⟨hb'.trans hb, hl'.trans hl, hd'.trans hd⟩

theorem getBuffer_sameInput {c c' : Client} (h : getBuffer c = some c') : SameInput c c' := by
  obtain ⟨-, hc'⟩ := Option.ite_none_right_eq_some.mp h
  obtain rfl := Option.some.inj hc'
  exact ⟨rfl, rfl, rfl⟩

theorem checkRequest_sameInput (dev : Device) (w : World) (c : Client) :
    SameInput c (checkRequest dev w c) := ⟨rfl, rfl, rfl⟩

theorem answerRequest_sameInput {c c' : Client} {w : World} {e : ErrorCode} {out : List Output}
    (h : answerRequest c w = some (c', e, out)) : SameInput c c' := by
  obtain hexec | ⟨e, -, heq⟩ := answerRequest_cases h
  · obtain ⟨-, calls, popens, info, -, -, -, heq⟩ | ⟨-, heq⟩ := executeMsg_cases hexec
    · cases heq
      exact ⟨rfl, rfl, rfl⟩
    · cases heq
      exact ⟨rfl, rfl, rfl⟩
  · cases heq
    exact ⟨rfl, rfl, rfl⟩

theorem clientSettings_sameInput {dev : Device} {c c' : Client} {w : World} {e : ErrorCode}
    {out : List Output} (h : clientSettings dev c w = some (c', e, out)) : SameInput c c' := by
  obtain ⟨c₁, hbuf, h⟩ := Option.bind_eq_some_iff.mp h
  have hraise : SameInput c (raiseFlags c) := ⟨rfl, rfl, rfl⟩
  exact ((hraise.trans (getBuffer_sameInput hbuf)).trans (checkRequest_sameInput dev w c₁)).trans
    (answerRequest_sameInput h)

theorem acknowledge_md5_last (c : Client) (e : ErrorCode) : (acknowledge c e).settMsg 38 = 0 := by
  have hmem : 38 < 7 + (e.toByte :: List.replicate 31 0).length := by
    rw [List.length_cons, List.length_replicate]
    omega
  unfold acknowledge
  simp only [Memory.write]
  rw [if_neg (by simp), if_pos ⟨by omega, hmem⟩]
  rfl

theorem clientRegisterEventSendmsg_eq (c : Client) (f : SendMsg) :
    SameInput c (clientRegisterEventSendmsg c f) ∧
      (clientRegisterEventSendmsg c f).settMsg = c.settMsg := by
  unfold clientRegisterEventSendmsg
  split
  · exact ⟨⟨rfl, rfl, rfl⟩, rfl⟩
  · exact ⟨⟨rfl, rfl, rfl⟩, rfl⟩

/-- The switch on the error code leaves the memory alone. -/
theorem afterSettings_eq (c : Client) (e : ErrorCode) :
    SameInput c (afterSettings c e) ∧ (afterSettings c e).settMsg = c.settMsg := by
  have hreg := clientRegisterEventSendmsg_eq c .clientSendSettMsg
  cases e with
  | errAuthentication => exact hreg
  | ok =>
    unfold afterSettings
    dsimp only
    split <;> split <;> exact hreg
  | infoMacNotIdentical => exact ⟨⟨rfl, rfl, rfl⟩, rfl⟩
  | errObjNotFound => exact ⟨⟨rfl, rfl, rfl⟩, rfl⟩

theorem settMsg_foldl_register (fs : List FillMsg) (c : Client) :
    (fs.foldl clientRegisterEventFillmsg c).settMsg = c.settMsg := by
  induction fs generalizing c with
  | nil => rfl
  | cons f fs ih =>
    rw [List.foldl_cons, ih, clientRegisterEventFillmsg]
    split <;> rfl

theorem takeEvent_eq (m : BitVec 32) (t : TypeMsg) (s : ClientState) (c : Client) :
    SameInput c (takeEvent m t s c) ∧ (takeEvent m t s c).settMsg = c.settMsg := by
  unfold takeEvent
  split
  · exact ⟨⟨rfl, rfl, rfl⟩, rfl⟩
  · exact ⟨⟨rfl, rfl, rfl⟩, rfl⟩

theorem clientEmitEventFillmsg_eq (dev : Device) (c : Client) :
    (clientEmitEventFillmsg dev c).settMsg = c.settMsg ∧
      (clientEmitEventFillmsg dev c).clientInfo.state = c.clientInfo.state := by
  unfold clientEmitEventFillmsg
  split
  · exact ⟨rfl, rfl⟩
  · exact ⟨rfl, rfl⟩

theorem settMsg_clientSend (w : World) (c : Client) :
    (clientSend w c).1.settMsg = c.settMsg ∧ (clientSend w c).1.clientInfo = c.clientInfo := by
  unfold clientSend
  cases c.eventSendMsg c.clientInfo.msgType with
  | none => exact ⟨rfl, rfl⟩
  | some f => exact ⟨rfl, rfl⟩

/-- A datagram that is received is in the buffer, with a NUL behind it. -/
theorem netGetCommand_received {c c' : Client} {r : Recv} {cmd : UInt8}
    (h : netGetCommand c r = some (c', cmd)) :
    c'.settMsg = c.settMsg ∧ c'.bufferLen = c'.datagram.length + 1 ∧
      c'.buffer.read 0 c'.bufferLen = c'.datagram ++ [0] := by
  cases r with
  | error => cases h
  | datagram d =>
    obtain ⟨hlt, hc'⟩ := Option.ite_none_right_eq_some.mp h
    cases hc'
    have hall : d.bytes.take maxBufferSize = d.bytes := by
      rw [List.take_eq_self_iff]
      rw [List.length_take] at hlt
      omega
    have hself := Memory.read_write_self c.buffer 0 (d.bytes.take maxBufferSize ++ [0])
    rw [List.length_append, List.length_singleton] at hself
    refine ⟨rfl, by rw [hall], hself.trans (by rw [hall])⟩

/-- After a settings request the hash field has been overwritten, and the datagram
is still in the buffer in case the client stays in `CLIENT_STATE_SETTINGS`. -/
theorem settled_settings {dev : Device} {c c₁ : Client} {w : World} {e : ErrorCode}
    {out : List Output} (h : clientSettings dev c w = some (c₁, e, out)) (hc : Settled c)
    (hs : c.clientInfo.state = .settings) : Settled (afterSettings (acknowledge c₁ e) e) := by
  obtain ⟨⟨hb, hl, hd⟩, hm⟩ := afterSettings_eq (acknowledge c₁ e) e
  obtain ⟨hb', hl', hd'⟩ := clientSettings_sameInput h
  refine ⟨?_, fun _ => ?_⟩
  · rw [hm]
    exact acknowledge_md5_last c₁ e
  · rw [hb, hl, hd]
    change c₁.bufferLen = c₁.datagram.length + 1 ∧
      c₁.buffer.read 0 c₁.bufferLen = c₁.datagram ++ [0]
    rw [hb', hl', hd']
    exact hc.received hs

/-- Outside `CLIENT_STATE_SETTINGS` the settings message is not touched, and the
next state is not `CLIENT_STATE_SETTINGS` either unless a datagram has just been
received. -/
theorem clientHandler_outside {dev : Device} {c c' : Client} {w : World} {out : List Output}
    (h : clientHandler dev c w = some (c', out)) (hout : c.clientInfo.state ≠ .settings) :
    c'.settMsg = c.settMsg ∧ (c'.clientInfo.state = .settings →
      c'.bufferLen = c'.datagram.length + 1 ∧
        c'.buffer.read 0 c'.bufferLen = c'.datagram ++ [0]) := by
  unfold clientHandler at h
  cases hs : c.clientInfo.state with
  | idle =>
    rw [hs] at h
    cases h
    exact ⟨rfl, fun hst => absurd hst hout⟩
  | init =>
    rw [hs] at h
    cases h
    refine ⟨?_, fun hst => ?_⟩
    · rw [settMsg_setState, registerFillmsgs, settMsg_foldl_register]
    · rw [state_setState] at hst
      cases hst
  | wait =>
    rw [hs] at h
    obtain ⟨⟨c₁, event⟩, hwait, h⟩ := Option.bind_eq_some_iff.mp h
    cases h
    obtain ⟨⟨c₂, cmd⟩, hget, heq⟩ := Option.map_eq_some_iff.mp hwait
    obtain rfl : c₂ = c₁ := congrArg Prod.fst heq
    obtain ⟨hmem, hreceived⟩ := netGetCommand_received hget
    obtain ⟨⟨hb, hl, hd⟩, hm⟩ := takeEvent_eq eventFind .searchMsg .fillMsg (c₂.setEvent event)
    obtain ⟨⟨hb', hl', hd'⟩, hm'⟩ := takeEvent_eq eventSettings .settingsMsg .settings
      (takeEvent eventFind .searchMsg .fillMsg (c₂.setEvent event))
    refine ⟨by rw [hm', hm]; exact hmem, fun _ => ?_⟩
    rw [hb', hl', hd', hb, hl, hd]
    exact hreceived
  | fillMsg =>
    rw [hs] at h
    obtain ⟨hm, hst⟩ := clientEmitEventFillmsg_eq dev c
    dsimp only at h
    split at h
    · cases h
      exact ⟨(clientRegisterEventSendmsg_eq _ _).2.trans hm, fun hst => by cases hst⟩
    · cases h
      refine ⟨hm, fun hset => ?_⟩
      rw [hs] at hst
      exact absurd (hst.symm.trans hset) (by decide)
  | send =>
    rw [hs] at h
    obtain rfl : (clientSend w (c.setState .reload)).1 = c' := congrArg Prod.fst (Option.some.inj h)
    obtain ⟨hm, hinfo⟩ := settMsg_clientSend w (c.setState .reload)
    refine ⟨hm, fun hset => ?_⟩
    rw [hinfo] at hset
    cases hset
  | settings => exact absurd hs hout
  | reload =>
    rw [hs] at h
    cases h
    exact ⟨rfl, fun hst => by cases hst⟩

/-- **One call of `client_handler`** leaves the client settled. -/
theorem clientHandler_settled {dev : Device} {c c' : Client} {w : World} {out : List Output}
    (h : clientHandler dev c w = some (c', out)) (hc : Settled c) : Settled c' := by
  by_cases hs : c.clientInfo.state = .settings
  · unfold clientHandler at h
    rw [hs] at h
    obtain ⟨⟨c₁, e, out₁⟩, hset, h⟩ := Option.bind_eq_some_iff.mp h
    cases h
    exact settled_settings hset hc hs
  · obtain ⟨hm, hreceived⟩ := clientHandler_outside h hs
    exact ⟨(congrFun hm 38).trans hc.md5_last, hreceived⟩

/-- **The invariant rule for runs of the client.** -/
theorem run_invariant {dev : Device} {I : Client → Prop} (hstart : I Client.start)
    (hstep : ∀ {c c' : Client} {w : World} {out : List Output}, I c →
      clientHandler dev c w = some (c', out) → I c')
    {ws : List World} {c : Client} (h : run dev ws = some c) : I c := by
  induction ws using List.reverseRecOn generalizing c with
  | nil =>
    cases h
    exact hstart
  | append_singleton ws w ih =>
    rw [run, List.foldlM_append] at h
    obtain ⟨c₁, hrun, h⟩ := Option.bind_eq_some_iff.mp h
    rw [List.foldlM_cons] at h
    obtain ⟨c₂, hcall, h⟩ := Option.bind_eq_some_iff.mp h
    cases h
    obtain ⟨⟨c₃, out⟩, hhandler, heq⟩ := Option.map_eq_some_iff.mp hcall
    cases heq
    exact hstep (ih hrun) hhandler

/-- Every state of a run is settled. -/
theorem run_settled {dev : Device} {ws : List World} {c : Client} (h : run dev ws = some c) :
    Settled c :=
  run_invariant ⟨rfl, fun hst => by cases hst⟩ (fun hc hstep => clientHandler_settled hstep hc) h

/-- A device with the MAC address `02:00:00:00:00:00` and a hash of 32 letters. -/
def labDevice : Device where
  mac := fun i => if i = 0 then 2 else 0
  ip := fun _ => 10
  mask := fun _ => 0
  dmhash := ⟨fun _ => 0x61, fun _ => by decide⟩
  fill := fun _ m => m

/-- A call during which this datagram is received and everything succeeds. -/
def calm (d : Datagram) : World where
  recv := .datagram d
  fopenOk := true
  mallocOk := true
  sendOk := true
  shell := ⟨1, false⟩

end TfPackages.Dm
