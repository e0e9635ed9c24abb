import TfPackages.DmSettingsShell
import TfPackages.Flags
import TfPackages.Memory

/-! # The device-manager client

The client is a loop around `client_handler`, a state machine that waits for a
datagram, answers a search or carries out a settings request, and sends the
answer.  One step here is one call of `client_handler`; what the system calls
return during it is given by a `World`.

Memory that is larger than what is written to it at a time is kept as it is: the
receive buffer and the settings message hold the bytes of earlier datagrams
beyond the end of the last one.  Steps are `none` when the client writes outside
an array or leaves what the language defines in another way.

Two things are left out: `checkMD5Sum` prints the hash without a NUL behind it, and no
descriptor that `fopen` or `popen` returns is closed, so that they run out in the end;
`popen` is taken to succeed.
-/
namespace TfPackages.Dm

/-- `MAX_BUFFER_SIZE`. -/
def maxBufferSize : Nat := 1550

/-- `sizeof(settingsMsg.settMsg.buff)`. -/
def settMsgSize : Nat := 1070

/-- `sizeof(searchOutMsg.buff)`. -/
def searchOutMsgSize : Nat := 444

def requestFindDevice : UInt8 := 0xe0
def ackFindDevice : UInt8 := 0xe1
def requestSetConfig : UInt8 := 0xe2
def ackToSetConfig : UInt8 := 0xe3
def requestToUpdate : UInt8 := 0xe4

/-- `error_code_t`, as far as `client_settings` returns it. -/
inductive ErrorCode where
  | ok
  | errAuthentication
  | errObjNotFound
  | infoMacNotIdentical
deriving DecidableEq, Repr

def ErrorCode.toByte : ErrorCode → UInt8
  | .ok => 0
  | .errAuthentication => 1
  | .errObjNotFound => 3
  | .infoMacNotIdentical => 6

def passMac : BitVec 32 := 0x001
def passMd5 : BitVec 32 := 0x002

/-- `CLIENT_STATE_e`. -/
inductive ClientState where
  | idle
  | init
  | wait
  | fillMsg
  | send
  | settings
  | reload
deriving DecidableEq, Repr

def eventFind : BitVec 32 := 0x0002
def eventMsgReady : BitVec 32 := 0x0008
def eventSettings : BitVec 32 := 0x0010
def eventUpdate : BitVec 32 := 0x0020
def eventNetReload : BitVec 32 := 0x0040
def eventSysReload : BitVec 32 := 0x0080

/-- `TYPE_MSG_e`. -/
inductive TypeMsg where
  | idle
  | searchMsg
  | settingsMsg
  | reload
deriving DecidableEq, Repr

/-- The functions registered with `client_registerEvent_fillmsg`. -/
inductive FillMsg where
  | getNETinfo
  | getSystemInfo
  | getBoardInfo
  | getUCInfo
  | getGateway
deriving DecidableEq, Repr

/-- The functions registered with `client_registerEvent_sendmsg`. -/
inductive SendMsg where
  | clientSendSearchMsg
  | clientSendSettMsg
deriving DecidableEq, Repr

/-- `clientInfo_t`. -/
structure ClientInfo where
  state : ClientState
  event : BitVec 32
  msgType : TypeMsg
  count : Nat

/-- `SETTINGS_INFO_t`, the fields that are read. -/
structure SettingsInfo where
  applyNetwork : Bool
  applySystem : Bool
deriving DecidableEq, Repr

/-- The variables of the client. -/
structure Client where
  clientInfo : ClientInfo
  passFlag : BitVec 32
  buffer : Memory
  bufferLen : Nat
  settMsg : Memory
  searchOutMsg : Memory
  settingsInfo : SettingsInfo
  eventFillMsg : List FillMsg
  eventSendMsg : TypeMsg → Option SendMsg
  /-- The datagram received last; the client itself only has it in `buffer`. -/
  datagram : List UInt8

/-- A UDP datagram. -/
structure Datagram where
  bytes : List UInt8
  length_le : bytes.length ≤ 65507

/-- What `recvfrom` returns. -/
inductive Recv where
  | error
  | datagram (d : Datagram)

/-- The hash in `etc/dmhash`: 32 characters and nothing else, so that `fread`, which is given
room for 32 times as many, reads what the array holds. -/
structure StoredHash where
  bytes : Fin 32 → UInt8
  nonzero : ∀ i, bytes i ≠ 0

/-- The device the client runs on.  `fill` is what the functions other than
`getNETinfo` write to the search message. -/
structure Device where
  mac : Fin 6 → UInt8
  ip : Fin 4 → UInt8
  mask : Fin 4 → UInt8
  dmhash : StoredHash
  fill : FillMsg → Memory → Memory

/-- What is left open during one call of `client_handler`. -/
structure World where
  recv : Recv
  fopenOk : Bool
  mallocOk : Bool
  sendOk : Bool
  shell : ShellEnv

/-- What the client does to the outside. -/
inductive Output where
  | settingsHandler
  | popen (p : Popen)
  | sendto (payload : List UInt8)
deriving DecidableEq, Repr

/-- The client when it is started. -/
def Client.start : Client where
  clientInfo := ⟨.init, 0, .idle, 0⟩
  passFlag := 0
  buffer := fun _ => 0
  bufferLen := 0
  settMsg := fun _ => 0
  searchOutMsg := fun _ => 0
  settingsInfo := ⟨false, false⟩
  eventFillMsg := []
  eventSendMsg := fun _ => none
  datagram := []

/-! ## Receiving -/

/-- `net_getCommand`.  After an error the length is the largest `size_t`, and the
NUL goes in front of the buffer; after a full buffer it goes behind it. -/
def netGetCommand (c : Client) : Recv → Option (Client × UInt8)
  | .error => none
  | .datagram d =>
    let received := d.bytes.take maxBufferSize
    if received.length < maxBufferSize then
      let buffer := c.buffer.write 0 (received ++ [0])
      some ({ c with buffer, bufferLen := received.length + 1, datagram := d.bytes }, buffer 0)
    else none

/-- `client_waitCommand`. -/
def clientWaitCommand (c : Client) (r : Recv) : Option (Client × BitVec 32) :=
  (netGetCommand c r).map fun (c, cmd) =>
    (c, if cmd = requestFindDevice then eventFind
      else if cmd = requestSetConfig then eventSettings
      else if cmd = requestToUpdate then eventUpdate
      else 0)

/-- `getBuffer` into `settingsMsg.settMsg.buff`, from index 0. -/
def getBuffer (c : Client) : Option Client :=
  if c.bufferLen ≤ settMsgSize then
    some { c with settMsg := c.settMsg.write 0 (c.buffer.read 0 c.bufferLen) }
  else none

/-! ## The checks -/

/-- `getNETinfo`. -/
def getNETinfo (dev : Device) (m : Memory) : Memory :=
  ((m.write 6 (List.ofFn dev.mac)).write 2 (List.ofFn dev.ip)).write 276 (List.ofFn dev.mask)

/-- `checkMacAddress`: the variables after it, and what it returns. -/
def checkMacAddress (dev : Device) (c : Client) : Client × BitVec 32 :=
  let searchOutMsg := getNETinfo dev c.searchOutMsg
  let passFlag := if searchOutMsg.read 6 6 = c.settMsg.read 1 6 then c.passFlag
    else Flags.clear c.passFlag passMac
  ({ c with searchOutMsg, passFlag }, passFlag)

/-- `checkMD5Sum`. -/
def checkMD5Sum (dev : Device) (w : World) (c : Client) : Client × BitVec 32 :=
  let passFlag :=
    if w.fopenOk then
      if c.settMsg.read 7 32 = List.ofFn dev.dmhash.bytes then c.passFlag
      else Flags.clear c.passFlag passMd5
    else Flags.clear c.passFlag passMd5
  ({ c with passFlag }, passFlag)

/-- `passFlag |= f()`.  With respect to the call the assignment is a single evaluation, so
the variable is read after it. -/
def passFlagOrAssign (f : Client → Client × BitVec 32) (c : Client) : Client :=
  let r := f c
  { r.1 with passFlag := r.1.passFlag ||| r.2 }

/-! ## Carrying out a request -/

/-- What `strtok` leaves of a text: a NUL for the delimiter that ends a token. -/
def cutTokens (d : UInt8) : Bool → List UInt8 → List UInt8
  | _, [] => []
  | inToken, c :: s =>
    if c = d then (if inToken then 0 else c) :: cutTokens d false s else c :: cutTokens d true s

/-- The pieces between `#` signs, after the items that are looked up have been
split again.  `j` counts the items. -/
def cutItems (visited : Nat → Bool) : Nat → List (List UInt8) → List (List UInt8)
  | _, [] => []
  | j, p :: ps =>
    if p = [] then p :: cutItems visited j ps
    else (if visited j then cutTokens equals false p else p) :: cutItems visited (j + 1) ps

/-- The message after `split_line` and, if there was memory for the table,
`getSettingsCmdArray`. -/
def splitInPlace (mallocOk : Bool) (msg : List UInt8) : List UInt8 :=
  let text := CStrings.text msg
  let visited := fun j => mallocOk && (splitLine text hash).slots.any fun
    | .token num _ => num == j
    | _ => false
  cutTokens hash false ([hash].intercalate (cutItems visited 0 (text.splitOn hash)))

/-- What a handler runs. -/
def Call.run (env : ShellEnv) (call : Call) : Option (List Popen) :=
  let value := CStrings.strncpy settingsValueLength call.value
  match call.handler with
  | .runReset => some [.fixed "echo 'firstboot -y && reboot'"]
  | .runReboot => some [.fixed "echo 'reboot'"]
  | .runSetIp => runSetIp env value
  | .runSetMask => runSetMask value
  | .runSetGate => runSetGate value
  | .runSetDescription => runSetDescription env value
  | .runSetLocation => runSetLocation env value
  | .runSetSnmp => runSetSnmp value
  | .runSystemRestart => some [.fixed "/etc/init.d/system restart"]
  | .runNetworkRestart => some [.fixed "/etc/init.d/network restart"]

/-- What a handler sets in `settingsInfo`. -/
def Call.apply (env : ShellEnv) (call : Call) (info : SettingsInfo) : SettingsInfo :=
  match call.handler with
  | .runSetIp => if env.protoLines ≠ 0 then { info with applyNetwork := true } else info
  | .runSetMask | .runSetGate => { info with applyNetwork := true }
  | .runSetDescription | .runSetLocation =>
    if call.value.length > 0 then { info with applySystem := true } else info
  | .runSetSnmp => if call.value.length > 0 then { info with applyNetwork := true } else info
  | _ => info

/-- `runSetingsCmd[SETTINGS_SYS_RELOAD]` and `runSetingsCmd[SETTINGS_NET_RELOAD]`,
each if asked for. -/
def reloads (applySystem applyNetwork : Bool) : List Output :=
  (if applySystem then [.popen (.fixed "/etc/init.d/system restart")] else []) ++
    (if applyNetwork then [.popen (.fixed "/etc/init.d/network restart")] else [])

/-- `client_settings` for a request that has passed. -/
def executeMsg (c : Client) (w : World) : Option (Client × ErrorCode × List Output) := do
  let msg := c.settMsg.read 39 (settMsgSize - 39)
  let settMsg := c.settMsg.write 39 (splitInPlace w.mallocOk msg)
  if w.mallocOk then
    let calls ← runSettings msg
    let popens ← calls.mapM (Call.run w.shell)
    let info := calls.foldl (fun info call => call.apply w.shell info) ⟨false, false⟩
    some ({ c with settMsg, settingsInfo := info }, .ok,
      .settingsHandler :: popens.flatten.map .popen ++ reloads info.applySystem info.applyNetwork)
  else some ({ c with settMsg }, .errObjNotFound, [.settingsHandler])

/-- `passFlag |= pass_mac; passFlag |= pass_md5;`. -/
def raiseFlags (c : Client) : Client :=
  { c with passFlag := Flags.set (Flags.set c.passFlag passMac) passMd5 }

/-- `passFlag |= checkMacAddress(); passFlag |= checkMD5Sum();`. -/
def checkRequest (dev : Device) (w : World) (c : Client) : Client :=
  passFlagOrAssign (checkMD5Sum dev w) (passFlagOrAssign (checkMacAddress dev) c)

/-- `client_settings` after the checks. -/
def answerRequest (c : Client) (w : World) : Option (Client × ErrorCode × List Output) :=
  if Flags.has c.passFlag passMac then
    if Flags.has c.passFlag passMd5 then executeMsg c w
    else some (c, .errAuthentication, [])
  else some (c, .infoMacNotIdentical, [])

/-- `client_settings`. -/
def clientSettings (dev : Device) (c : Client) (w : World) :
    Option (Client × ErrorCode × List Output) := do
  let c ← getBuffer (raiseFlags c)
  answerRequest (checkRequest dev w c) w

/-! ## Answering -/

/-- `client_emitEvent_fillmsg`. -/
def clientEmitEventFillmsg (dev : Device) (c : Client) : Client :=
  if c.clientInfo.count < 5 then
    let searchOutMsg := match c.eventFillMsg[c.clientInfo.count]? with
      | some .getNETinfo => getNETinfo dev c.searchOutMsg
      | some f => dev.fill f c.searchOutMsg
      | none => c.searchOutMsg
    { c with searchOutMsg, clientInfo := { c.clientInfo with count := c.clientInfo.count + 1 } }
  else { c with clientInfo := { c.clientInfo with
                  event := Flags.set c.clientInfo.event eventMsgReady } }

/-- `client_registerEvent_fillmsg`. -/
def clientRegisterEventFillmsg (c : Client) (f : FillMsg) : Client :=
  if c.eventFillMsg.length < 5 then { c with eventFillMsg := c.eventFillMsg ++ [f] } else c

/-- The registrations of `CLIENT_SATE_INIT`. -/
def registerFillmsgs (c : Client) : Client :=
  [.getNETinfo, .getSystemInfo, .getBoardInfo, .getUCInfo, .getGateway].foldl
    clientRegisterEventFillmsg c

/-- `client_registerEvent_sendmsg`. -/
def clientRegisterEventSendmsg (c : Client) (f : SendMsg) : Client :=
  match c.eventSendMsg c.clientInfo.msgType with
  | none => { c with eventSendMsg := Function.update c.eventSendMsg c.clientInfo.msgType (some f) }
  | some _ => c

/-- `client_sendSettMsg` and `client_sendSearchMsg`: the message is copied to the
receive buffer, and as many bytes of it are sent as were received. -/
def SendMsg.run (w : World) (c : Client) (f : SendMsg) : Client × List Output :=
  let buffer := match f with
    | .clientSendSettMsg => c.buffer.write 0 (c.settMsg.read 0 settMsgSize)
    | .clientSendSearchMsg => c.buffer.write 0 (c.searchOutMsg.read 0 searchOutMsgSize)
  ({ c with buffer }, if w.sendOk then [.sendto (buffer.read 0 (c.bufferLen - 1))] else [])

/-- `client_emitEvent_sendmsg` and `client_unRegisterEvent_sendmsg`. -/
def clientSend (w : World) (c : Client) : Client × List Output :=
  let sent := match c.eventSendMsg c.clientInfo.msgType with
    | some f => f.run w c
    | none => (c, [])
  ({ sent.1 with eventSendMsg := Function.update c.eventSendMsg c.clientInfo.msgType none }, sent.2)

/-! ## The state machine -/

def Client.setState (c : Client) (s : ClientState) : Client :=
  { c with clientInfo := { c.clientInfo with state := s } }

@[simp] theorem settMsg_setState (c : Client) (s : ClientState) :
    (c.setState s).settMsg = c.settMsg := rfl

@[simp] theorem state_setState (c : Client) (s : ClientState) :
    (c.setState s).clientInfo.state = s := rfl

def Client.setEvent (c : Client) (m : BitVec 32) : Client :=
  { c with clientInfo := { c.clientInfo with event := Flags.set c.clientInfo.event m } }

def Client.clearEvent (c : Client) (m : BitVec 32) : Client :=
  { c with clientInfo := { c.clientInfo with event := Flags.clear c.clientInfo.event m } }

/-- An event seen in `CLIENT_STATE_WAIT`. -/
def takeEvent (m : BitVec 32) (t : TypeMsg) (s : ClientState) (c : Client) : Client :=
  if Flags.has c.clientInfo.event m then
    { c with clientInfo := { state := s, event := Flags.clear c.clientInfo.event m
                             msgType := t, count := 0 } }
  else c

/-- The settings message as it is sent back. -/
def acknowledge (c : Client) (errorCode : ErrorCode) : Client :=
  { c with settMsg := (c.settMsg.write 7 (errorCode.toByte :: List.replicate 31 0)).write 0
             [ackToSetConfig] }

/-- The switch on the error code in `CLIENT_STATE_SETTINGS`.  An error without a
case leaves the state as it is. -/
def afterSettings (c : Client) : ErrorCode → Client
  | .errAuthentication => (clientRegisterEventSendmsg c .clientSendSettMsg).setState .send
  | .ok =>
    let c := clientRegisterEventSendmsg c .clientSendSettMsg
    let c := if c.settingsInfo.applySystem then c.setEvent eventSysReload else c
    let c := if c.settingsInfo.applyNetwork then c.setEvent eventNetReload else c
    c.setState .send
  | .infoMacNotIdentical => c.setState .wait
  | .errObjNotFound => c

/-- `client_handler`. -/
def clientHandler (dev : Device) (c : Client) (w : World) : Option (Client × List Output) :=
  match c.clientInfo.state with
  | .idle => some (c, [])
  | .init => some ((registerFillmsgs c).setState .wait, [])
  | .wait => do
    let (c, event) ← clientWaitCommand c w.recv
    let c := takeEvent eventFind .searchMsg .fillMsg (c.setEvent event)
    some (takeEvent eventSettings .settingsMsg .settings c, [])
  | .send => some (clientSend w (c.setState .reload))
  | .fillMsg =>
    let c := clientEmitEventFillmsg dev c
    let c := { c with searchOutMsg := c.searchOutMsg.write 0 [ackFindDevice] }
    if Flags.has c.clientInfo.event eventMsgReady then
      let c := clientRegisterEventSendmsg (c.clearEvent eventMsgReady) .clientSendSearchMsg
      some (c.setState .send, [])
    else some (c, [])
  | .settings => do
    let (c, errorCode, out) ← clientSettings dev c w
    some (afterSettings (acknowledge c errorCode) errorCode, out)
  | .reload =>
    let out := reloads (Flags.has c.clientInfo.event eventSysReload)
      (Flags.has c.clientInfo.event eventNetReload)
    some (((c.clearEvent eventSysReload).clearEvent eventNetReload).setState .wait, out)

/-- The client after a run of `client_app`, unless it has gone astray. -/
def run (dev : Device) (ws : List World) : Option Client :=
  ws.foldlM (fun c w => (clientHandler dev c w).map Prod.fst) Client.start

end TfPackages.Dm
