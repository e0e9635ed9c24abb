import TfPackages.DmExchanges

/-! # Restarting services after a settings request

A request that has been carried out may need the system or the network service to
be restarted.  The client notes this in two event bits and restarts the services
in `CLIENT_STATE_RELOAD`, when the acknowledgement has been sent.  But
`settings_handler` restarts them too, at the end of its loop.  So services are
restarted once, and after the acknowledgement, only for the requests that ask for
no restart at all.
-/
namespace TfPackages.Dm

def systemRestart : Output := .popen (.fixed "/etc/init.d/system restart")
def networkRestart : Output := .popen (.fixed "/etc/init.d/network restart")

def outputs (acts : List Act) : List Output :=
  acts.filterMap fun
    | .output o => some o
    | _ => none

/-- **Services are restarted once, and after the acknowledgement.** -/
def RestartsAfterAck (acts : List Act) : Prop :=
  ∀ restart ∈ [systemRestart, networkRestart],
    (outputs acts).count restart ≤ 1 ∧ ∀ pre post, outputs acts = pre ++ restart :: post →
      ∃ msg, .sendto msg ∈ pre ∧ msg.head? = some ackToSetConfig

/-- The text of a request, as it stands in the settings message: the datagram,
and beyond its end and a NUL what earlier ones have left. -/
def requestBody (c : Client) : List UInt8 :=
  (c.settMsg.write 0 (c.datagram ++ [0])).read 39 (settMsgSize - 39)

/-- The items of a text that a handler is called for. -/
def handledItems (body : List UInt8) : List (List UInt8) :=
  (splitLine (CStrings.text body) hash).slots.filterMap fun
    | .token _ item => some item
    | _ => none

/-- The settings that need a restart.  An address needs one unless `uci` shows no
protocol for the interface. -/
def restartingNames (proto : Bool) : List (List UInt8) :=
  (["NETMASK", "GATEWAY", "SYSTEM_NAME", "SYSTEM_LOCATION", "SNMP_STATE"] ++
    if proto then ["IPADDRESS"] else []).map CStrings.lit

/-- The name that is looked up for an item is one of these. -/
def AsksRestart (env : ShellEnv) (item : List UInt8) : Prop :=
  ∃ num name, (splitLine item equals).tokens 0 = .token num name ∧
    name ∈ restartingNames (env.protoLines != 0)

/-- Some service is to be restarted. -/
def SettingsInfo.any (info : SettingsInfo) : Bool := info.applySystem || info.applyNetwork

/-- The handler asks for a restart, if its value is not empty. -/
def SettingsHandler.restarts (proto : Bool) : SettingsHandler → Bool
  | .runSetIp => proto
  | .runSetMask | .runSetGate | .runSetDescription | .runSetLocation | .runSetSnmp => true
  | _ => false

theorem apply_any (env : ShellEnv) {call : Call} (hv : call.value ≠ []) (info : SettingsInfo) :
    (call.apply env info).any = (info.any || call.handler.restarts (env.protoLines != 0)) := by
  have hlen : call.value.length > 0 := List.length_pos_iff.mpr hv
  obtain ⟨item, handler, value⟩ := call
  obtain ⟨net, sys⟩ := info
  cases handler <;>
    simp only [Call.apply, SettingsHandler.restarts, SettingsInfo.any, hlen, if_true,
      Bool.or_true, Bool.or_false, Bool.true_or]
  by_cases hp : env.protoLines = 0 <;> simp [hp]

theorem foldl_apply_any (env : ShellEnv) {calls : List Call} (hv : ∀ call ∈ calls, call.value ≠ [])
    (info : SettingsInfo) :
    (calls.foldl (fun info call => call.apply env info) info).any =
      (info.any || calls.any fun call => call.handler.restarts (env.protoLines != 0)) := by
  induction calls generalizing info with
  | nil => simp
  | cons call calls ih =>
    rw [List.foldl_cons, ih fun c hc => hv c (List.mem_cons_of_mem _ hc),
      apply_any env (hv call List.mem_cons_self), List.any_cons, Bool.or_assoc]

/-- The names that can be looked up, and what their handlers ask for. -/
theorem handlerOf_restarts {name : List UInt8} {h : SettingsHandler} (hne : name ≠ [])
    (hh : handlerOf name = some h) (proto : Bool) :
    (name ∈ restartingNames proto ↔ h.restarts proto = true) ∧ h ≠ .runSystemRestart ∧
      h ≠ .runNetworkRestart := by
  have key : ∀ proto : Bool, ∀ n ∈ settingsTable, n ≠ [] → ∀ h ∈ handlerOf n,
      (n ∈ restartingNames proto ↔ h.restarts proto = true) ∧ h ≠ .runSystemRestart ∧
        h ≠ .runNetworkRestart := by
    decide +kernel
  exact key proto name (mem_settingsTable_of_handlerOf hh) hne h hh

/-- The calls for a text ask for a restart exactly if an item of it does. -/
theorem any_restarts_iff {body : List UInt8} {calls : List Call}
    (h : runSettings body = some calls) (env : ShellEnv) :
    (calls.any fun call => call.handler.restarts (env.protoLines != 0)) = true ↔
      ∃ item ∈ handledItems body, AsksRestart env item := by
  rw [runSettings_eq] at h
  have hslot : ∀ {slot : Slot} {call : Call}, slot ∈ (splitLine (CStrings.text body) hash).slots →
      slotCall slot = some call → ∃ num item, slot = .token num item ∧
        (AsksRestart env item ↔ call.handler.restarts (env.protoLines != 0) = true) := by
    intro slot call hmem hcall
    cases slot with
    | unset => cases hcall
    | null => cases hcall
    | token num item =>
      obtain ⟨n, name, hname, hh⟩ := slotCall_name hcall
      have hne : name ≠ [] := CStrings.ne_nil_of_mem_tokens (mem_of_splitTokens hname)
      refine ⟨num, item, rfl, ?_⟩
      rw [← (handlerOf_restarts hne hh _).1]
      constructor
      · rintro ⟨n', name', hname', hmem'⟩
        rw [hname] at hname'
        cases hname'
        exact hmem'
      · exact fun hmem' => ⟨n, name, hname, hmem'⟩
  rw [List.any_eq_true]
  constructor
  · rintro ⟨call, hcall, hrestarts⟩
    obtain ⟨slot, hmem, heq⟩ := exists_of_mem_mapM h hcall
    obtain ⟨num, item, rfl, hiff⟩ := hslot hmem heq
    exact ⟨item, List.mem_filterMap.mpr ⟨_, hmem, rfl⟩, hiff.mpr hrestarts⟩
  · rintro ⟨item, hitem, hasks⟩
    obtain ⟨slot, hmem, heq⟩ := List.mem_filterMap.mp hitem
    obtain ⟨call, hcall, hsome⟩ := List.mem_map.mp (mapM_eq_some_iff.mp h ▸
      List.mem_map_of_mem hmem : slotCall slot ∈ calls.map some)
    obtain ⟨num, item', rfl, hiff⟩ := hslot hmem hsome.symm
    cases heq
    exact ⟨call, hcall, hiff.mp hasks⟩

/-- The calls for a text: none has an empty value, and none restarts by itself. -/
theorem runSettings_call {body : List UInt8} {calls : List Call}
    (h : runSettings body = some calls) {call : Call} (hcall : call ∈ calls) :
    call.value ≠ [] ∧ call.handler ≠ .runSystemRestart ∧ call.handler ≠ .runNetworkRestart := by
  rw [runSettings_eq] at h
  obtain ⟨slot, hmem, heq⟩ := exists_of_mem_mapM h hcall
  cases slot with
  | unset => cases heq
  | null => cases heq
  | token num item =>
    obtain ⟨i, -, hi⟩ := List.mem_map.mp hmem
    have h0 : (0 : UInt8) ∉ item :=
      CStrings.zero_not_mem_of_mem_tokens (mem_of_splitTokens hi)
    obtain ⟨n, name, hname, hh⟩ := slotCall_name heq
    have hne : name ≠ [] := CStrings.ne_nil_of_mem_tokens (mem_of_splitTokens hname)
    exact ⟨CStrings.ne_nil_of_mem_tokens (slotCall_value h0 heq).2.1,
      (handlerOf_restarts hne hh true).2⟩

/-- What a handler that asks for no restart runs. -/
theorem restart_not_mem_run {env : ShellEnv} {call : Call} {ps : List Popen}
    (h : call.run env = some ps) (hr : call.handler.restarts (env.protoLines != 0) = false)
    (hsys : call.handler ≠ .runSystemRestart) (hnet : call.handler ≠ .runNetworkRestart) :
    ∀ restart ∈ [systemRestart, networkRestart], restart ∉ ps.map .popen := by
  unfold Call.run at h
  cases hh : call.handler <;> rw [hh] at h hr hsys hnet
  case runReset =>
    cases h
    decide
  case runReboot =>
    cases h
    decide
  case runSetIp =>
    have hp : env.protoLines = 0 := by simpa [SettingsHandler.restarts] using hr
    simp only [runSetIp, hp] at h
    cases h
    decide
  case runSystemRestart => exact absurd rfl hsys
  case runNetworkRestart => exact absurd rfl hnet
  all_goals cases hr

theorem restart_not_mem_popens {body : List UInt8} {calls : List Call} {popens : List (List Popen)}
    {env : ShellEnv} (hcalls : runSettings body = some calls)
    (hpopens : calls.mapM (Call.run env) = some popens)
    (hquiet : (calls.any fun call => call.handler.restarts (env.protoLines != 0)) = false) :
    ∀ restart ∈ [systemRestart, networkRestart], restart ∉ popens.flatten.map .popen := by
  intro restart hr hmem
  obtain ⟨p, hp, heq⟩ := List.mem_map.mp hmem
  obtain ⟨ps, hps, hmem⟩ := List.mem_flatten.mp hp
  obtain ⟨call, hcall, hrun⟩ := exists_of_mem_mapM hpopens hps
  obtain ⟨-, hsys, hnet⟩ := runSettings_call hcalls hcall
  have hnone := Bool.eq_false_iff.mpr (List.any_eq_false.mp hquiet call hcall)
  exact restart_not_mem_run hrun hnone hsys hnet restart hr (List.mem_map.mpr ⟨p, hmem, heq⟩)

/-- A request that `client_settings` returns from has been copied and checked. -/
theorem answerRequest_of_clientSettings {dev : Device} {c : Client} {w : World}
    {r : Client × ErrorCode × List Output} (hc : Settled c) (hs : c.clientInfo.state = .settings)
    (h : clientSettings dev c w = some r) :
    c.datagram.length < settMsgSize ∧
      answerRequest (checkRequest dev w (withRequest c)) w = some r := by
  unfold clientSettings at h
  rw [getBuffer_raiseFlags (hc.received hs)] at h
  obtain ⟨c₂, hbuf, h⟩ := Option.bind_eq_some_iff.mp h
  obtain ⟨hlen, hc₂⟩ := Option.ite_none_right_eq_some.mp hbuf
  obtain rfl := Option.some.inj hc₂
  exact ⟨hlen, h⟩

/-- The checks leave the text of the request as it is. -/
theorem read_checkRequest (dev : Device) (w : World) (c : Client) :
    (checkRequest dev w (withRequest c)).settMsg.read 39 (settMsgSize - 39) = requestBody c := by
  rw [settMsg_checkRequest]
  rfl

/-- What `client_settings` does with a request it carries out. -/
theorem clientSettings_ok {dev : Device} {c c₁ : Client} {w : World} {out : List Output}
    (hc : Settled c) (hs : c.clientInfo.state = .settings)
    (h : clientSettings dev c w = some (c₁, .ok, out)) :
    ∃ calls popens, runSettings (requestBody c) = some calls ∧
      calls.mapM (Call.run w.shell) = some popens ∧
      c₁.settingsInfo = calls.foldl (fun info call => call.apply w.shell info) ⟨false, false⟩ ∧
      out = .settingsHandler :: popens.flatten.map .popen ++
        reloads c₁.settingsInfo.applySystem c₁.settingsInfo.applyNetwork := by
  obtain ⟨-, h⟩ := answerRequest_of_clientSettings hc hs h
  obtain hexec | ⟨e, he, heq⟩ := answerRequest_cases h
  · obtain ⟨-, calls, popens, info, hcalls, hpopens, hinfo, heq⟩ | ⟨-, heq⟩ :=
      executeMsg_cases hexec
    · rw [read_checkRequest] at hcalls
      cases heq
      exact ⟨calls, popens, hcalls, hpopens, hinfo, rfl⟩
    · cases heq
  · cases heq
    simp at he

theorem outputs_map_output (out : List Output) : outputs (out.map .output) = out := by
  rw [outputs, List.filterMap_map]
  exact List.filterMap_some

/-- The outputs of an exchange that answers a settings request. -/
theorem outputs_settings (e : ErrorCode) (out : List Output) (sendOk : Bool) (msg : List UInt8)
    (restarts : List Output) :
    outputs (.settings e :: out.map .output ++
      ((if sendOk then [.output (.sendto msg)] else []) ++ restarts.map .output)) =
      out ++ ((if sendOk then [.sendto msg] else []) ++ restarts) := by
  have hout := outputs_map_output out
  have hrestarts := outputs_map_output restarts
  unfold outputs at hout hrestarts ⊢
  cases sendOk <;> simp [hout, hrestarts]

/-- A service that is to be restarted is restarted at once. -/
theorem restart_mem_reloads {info : SettingsInfo} (h : info.any = true) :
    ∃ restart ∈ [systemRestart, networkRestart],
      restart ∈ reloads info.applySystem info.applyNetwork := by
  obtain ⟨net, sys⟩ := info
  cases sys with
  | true => exact ⟨systemRestart, by simp, by simp [reloads, systemRestart]⟩
  | false =>
    cases net with
    | true => exact ⟨networkRestart, by simp, by simp [reloads, networkRestart]⟩
    | false => cases h

theorem not_restartsAfterAck_of_mem {acts : List Act} {out after : List Output} {restart : Output}
    (hacts : outputs acts = out ++ after) (hr : restart ∈ [systemRestart, networkRestart])
    (hmem : restart ∈ out) (hsend : ∀ msg, Output.sendto msg ∉ out) : ¬ RestartsAfterAck acts := by
  intro h
  obtain ⟨pre, post, hout⟩ := List.append_of_mem hmem
  obtain ⟨msg, hmsg, -⟩ := (h restart hr).2 pre (post ++ after) (by rw [hacts, hout]; simp)
  exact hsend msg (by rw [hout]; exact List.mem_append_left _ hmsg)

theorem restartsAfterAck_of_not_mem {acts : List Act}
    (h : ∀ restart ∈ [systemRestart, networkRestart], restart ∉ outputs acts) :
    RestartsAfterAck acts := by
  intro restart hr
  refine ⟨?_, fun pre post hacts => ?_⟩
  · rw [List.count_eq_zero.mpr (h restart hr)]
    exact Nat.zero_le 1
  · exact absurd (hacts ▸ by simp) (h restart hr)

/-- **Services are restarted once and after the acknowledgement exactly when no
item of the request asks for a restart**, for every request that is carried out
in a run of the client. -/
theorem restarts_after_ack_iff {dev : Device} {history : List World} {c c₁ : Client}
    (ws : Nat → World) {out : List Output} (hrun : run dev history = some c)
    (hs : c.clientInfo.state = .settings)
    (hok : clientSettings dev c (ws 0) = some (c₁, .ok, out)) :
    ∃ c' acts, Exchange dev c ws c' acts ∧ (RestartsAfterAck acts ↔
      ∀ item ∈ handledItems (requestBody c), ¬ AsksRestart (ws 0).shell item) := by
  obtain ⟨calls, popens, hcalls, hpopens, hinfo, hout⟩ :=
    clientSettings_ok (run_settled hrun) hs hok
  obtain ⟨c', msg, -, hex⟩ := exchange_settings dev ws hs (run_orderly hrun) hok
    (Or.inl ⟨rfl, rfl⟩)
  refine ⟨c', _, hex, ?_⟩
  have hany : c₁.settingsInfo.any =
      calls.any fun call => call.handler.restarts ((ws 0).shell.protoLines != 0) := by
    rw [hinfo, foldl_apply_any _ fun call hcall => (runSettings_call hcalls hcall).1]
    rfl
  have houtputs := outputs_settings .ok out (ws 1).sendOk msg
    (reloads c₁.settingsInfo.applySystem c₁.settingsInfo.applyNetwork)
  constructor
  · intro h item hitem hasks
    -- the restart is in what `settings_handler` runs, before anything is sent
    have hasked := hany.trans ((any_restarts_iff hcalls _).mpr ⟨item, hitem, hasks⟩)
    obtain ⟨restart, hr, hmem⟩ := restart_mem_reloads hasked
    refine not_restartsAfterAck_of_mem houtputs hr ?_ (clientSettings_result hok).1 h
    rw [hout]
    exact List.mem_append_right _ hmem
  · intro hno
    have hquiet : (calls.any fun call =>
        call.handler.restarts ((ws 0).shell.protoLines != 0)) = false := by
      rw [← Bool.not_eq_true, any_restarts_iff hcalls]
      rintro ⟨item, hitem, hasks⟩
      exact hno item hitem hasks
    obtain ⟨hsys, hnet⟩ := Bool.or_eq_false_iff.mp (hany.trans hquiet)
    refine restartsAfterAck_of_not_mem fun restart hr hmem => ?_
    have hpopen := restart_not_mem_popens hcalls hpopens hquiet restart hr
    obtain ⟨p, rfl⟩ : ∃ p, restart = .popen p := by
      rcases List.mem_cons.mp hr with rfl | hr
      · exact ⟨_, rfl⟩
      · exact ⟨_, List.mem_singleton.mp hr⟩
    rw [houtputs, hout, hsys, hnet] at hmem
    simp only [reloads, Bool.false_eq_true, if_false, List.append_nil, List.cons_append,
      List.mem_cons, List.mem_append, reduceCtorEq, false_or, hpopen] at hmem
    split at hmem
    · simp at hmem
    · simp at hmem

/-- A request with the MAC address and the hash of the device. -/
def authenticRequest (body : List UInt8) (h : body.length ≤ 1024) : Datagram :=
  ⟨requestSetConfig :: List.ofFn labDevice.mac ++ List.ofFn labDevice.dmhash.bytes ++ body, by
    simp only [List.cons_append, List.length_cons, List.length_append, List.length_ofFn]
    omega⟩

/-- A request to reboot, and one to set the mask. -/
def rebootRequest : World := calm (authenticRequest (CStrings.lit "REBOOT_ALL=[1]") (by decide))
def maskRequest : World := calm (authenticRequest (CStrings.lit "NETMASK=[255.0.0.0]") (by decide))

/-- What `client_settings` does with a request that has just been received. -/
def settingsOutputs (w : World) : Option (ErrorCode × List Output) :=
  (run labDevice [w, w]).bind fun c => (clientSettings labDevice c w).map Prod.snd

theorem of_settingsOutputs {w : World} {e : ErrorCode} {out : List Output}
    (h : settingsOutputs w = some (e, out)) :
    ∃ c c₁, run labDevice [w, w] = some c ∧ clientSettings labDevice c w = some (c₁, e, out) := by
  obtain ⟨c, hrun, hset⟩ := Option.bind_eq_some_iff.mp h
  obtain ⟨⟨c₁, e, out⟩, hset, heq⟩ := Option.map_eq_some_iff.mp hset
  cases heq
  exact ⟨c, c₁, hrun, hset⟩

theorem restarts_after_ack_rebootRequest :
    ∃ c c₁ out c' acts, run labDevice [rebootRequest, rebootRequest] = some c ∧
      c.clientInfo.state = .settings ∧
      clientSettings labDevice c rebootRequest = some (c₁, .ok, out) ∧
      Exchange labDevice c (fun _ => rebootRequest) c' acts ∧ (RestartsAfterAck acts ↔
        ∀ item ∈ handledItems (requestBody c), ¬ AsksRestart rebootRequest.shell item) := by
  have hout : settingsOutputs rebootRequest =
      some (.ok, [.settingsHandler, .popen (.fixed "echo 'reboot'")]) := by
    decide +kernel
  obtain ⟨c, c₁, hrun, hset⟩ := of_settingsOutputs hout
  have hs : c.clientInfo.state = .settings := by
    cases hrun
    decide +kernel
  obtain ⟨c', acts, h⟩ := restarts_after_ack_iff (fun _ => rebootRequest) hrun hs hset
  exact ⟨c, c₁, _, c', acts, hrun, hs, hset, h⟩

/-- The network is restarted before the acknowledgement, and once more after it. -/
theorem mask_request_restarts_early :
    ∃ c c₁ out c' acts, run labDevice [maskRequest, maskRequest] = some c ∧
      c.clientInfo.state = .settings ∧
      clientSettings labDevice c maskRequest = some (c₁, .ok, out) ∧
      Exchange labDevice c (fun _ => maskRequest) c' acts ∧ ¬ RestartsAfterAck acts := by
  have hout : settingsOutputs maskRequest = some (.ok, [.settingsHandler,
      .popen (.built (CStrings.lit "uci set network.lan.netmask='255.0.0.0'")),
      networkRestart]) := by
    decide +kernel
  obtain ⟨c, c₁, hrun, hset⟩ := of_settingsOutputs hout
  have hs : c.clientInfo.state = .settings := by
    cases hrun
    decide +kernel
  obtain ⟨c', msg, -, hex⟩ := exchange_settings labDevice (fun _ => maskRequest) hs
    (run_orderly hrun) hset (Or.inl ⟨rfl, rfl⟩)
  refine ⟨c, c₁, _, c', _, hrun, hs, hset, hex, ?_⟩
  exact not_restartsAfterAck_of_mem (outputs_settings _ _ _ _ _)
    (List.mem_cons_of_mem _ List.mem_cons_self) (by simp) (by simp [networkRestart])

end TfPackages.Dm
