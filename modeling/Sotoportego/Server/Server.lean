import Sotoportego.Server.Profile
import Sotoportego.Tailscale.SessionState

/-!
# The server

The handlers of `SotoportegoServer` that connect, disconnect and reconnect, over any
backends. Each yields the daemon after it and what it did, in program order.
-/

set_option autoImplicit false

namespace Sotoportego.Server

open Octets CText
open Tailscale (VPNState)

/-- What `fBackend` points at. -/
inductive Instance where
  | openVPN
  | wireGuard
  | tailscale
  deriving DecidableEq

/-- The backends as the server calls them. An `Answer` is how the system answers a
`Connect`. -/
structure VPNBackends (Backends Answer : Type) where
  state : Instance → Backends → VPNState
  setCredentials : Instance → CString → CString → Backends → Backends
  connect : Instance → VPNProfile → Answer → Backends → Status × Backends
  disconnect : Instance → Backends → Backends

structure SotoportegoServer where
  backend : Instance := .openVPN
  lastState : VPNState := .disconnected
  connectedHost : CString := .empty
  reconnectProfile : Archive := []
  reconnectUser : CString := .empty
  reconnectPass : CString := .empty
  userInitiatedDisconnect : Bool := false
  reconnectArmed : Bool := false
  reconnectAttempt : Nat := 0
  reconnectSecondsLeft : Nat := 0
  reconnectTimer : Bool := false

/-- What a handler does, as far as the backends, the clients and the countdown go. -/
inductive Act where
  /-- The status update of a backend is taken up. -/
  | status (state : VPNState)
  /-- `fLastState` is set, and differs from before or not. -/
  | enter (state : VPNState) (changed : Bool)
  | armReconnect
  /-- `fReconnectAttempt` is raised, and a timer runs if one can be had. -/
  | raiseAttempt (timerStarts : Bool)
  | connect (backend : Instance) (profile : VPNProfile) (status : Status)
  /-- The `Connect` of a countdown that has run out. -/
  | reconnect (backend : Instance) (profile : VPNProfile) (status : Status)
  | disconnect (backend : Instance)
  | broadcast (state : VPNState) (detail : Option Bytes) (connectedHost : CString)
  | reply (state : VPNState) (detail : Bytes)
  /-- With the text that `strerror` has for the code. -/
  | replyFault (state : VPNState) (fault : Fault)

structure Daemon (Backends : Type) where
  server : SotoportegoServer
  backends : Backends

structure Handled (Backends : Type) where
  daemon : Daemon Backends
  acts : List Act

def liveState (state : VPNState) : Bool := state ≠ .disconnected && state ≠ .error

/-! ## The countdown -/

def kReconnectMaxAttempts : Nat := 5

def doubleDelay (delay : Nat) : Nat := if delay < 60 then delay * 2 else delay

def reconnectDelaySeconds (attempt : Nat) : Nat :=
  min (doubleDelay^[attempt - 1] 5) 60

namespace SotoportegoServer

variable (server : SotoportegoServer)

def cancelReconnect : SotoportegoServer :=
  { server with reconnectTimer := false, reconnectSecondsLeft := 0 }

def armReconnect (profile : Option Archive) (user pass : CString) : SotoportegoServer :=
  { server.cancelReconnect with
    reconnectProfile := profile.getD []
    reconnectUser := user
    reconnectPass := pass
    userInitiatedDisconnect := false
    reconnectArmed := true
    reconnectAttempt := 0 }

def stopped : SotoportegoServer :=
  { server.cancelReconnect with userInitiatedDisconnect := true }

def reconnectDetail : Bytes :=
  ascii ("retry in " ++ toString server.reconnectSecondsLeft ++ "s (attempt " ++
    toString server.reconnectAttempt ++ "/" ++ toString kReconnectMaxAttempts ++ ")")

def raised : SotoportegoServer :=
  { server.cancelReconnect with
    reconnectAttempt := server.reconnectAttempt + 1
    reconnectSecondsLeft := reconnectDelaySeconds (server.reconnectAttempt + 1) }

/-- What a countdown starts from: the server, whether it runs, and what was done. -/
structure Countdown where
  server : SotoportegoServer
  running : Bool
  acts : List Act

def startReconnectCountdown (timerStarts : Bool) : Countdown :=
  if server.userInitiatedDisconnect ∨ ¬ server.reconnectArmed ∨
      kReconnectMaxAttempts ≤ server.reconnectAttempt then
    ⟨server, false, []⟩
  else if timerStarts then
    ⟨{ server.raised with reconnectTimer := true }, true, [.raiseAttempt true]⟩
  else ⟨server.raised.cancelReconnect, false, [.raiseAttempt false]⟩

def broadcastReconnecting : Act :=
  .broadcast .reconnecting (some server.reconnectDetail) server.connectedHost

/-! ## Status updates -/

/-- An unexpected drop starts a countdown. -/
def dropped (state : VPNState) (timerStarts : Bool) : Countdown :=
  if state = .disconnected then server.startReconnectCountdown timerStarts
  else ⟨server, false, []⟩

/-- The state that is told in place of a drop. -/
def Countdown.told (countdown : Countdown) (state : VPNState) : VPNState :=
  if countdown.running then .reconnecting else state

def Countdown.detail (countdown : Countdown) (detail : Option Bytes) : Option Bytes :=
  if countdown.running then some countdown.server.reconnectDetail else detail

/-- A state that is not live ends the record of the host. -/
def entered (state : VPNState) : SotoportegoServer :=
  { server with
    lastState := state
    connectedHost := if liveState state then server.connectedHost else .empty }

end SotoportegoServer

/-! ## Requests -/

structure ConnectRequest where
  profile : Option Archive := none
  username : Option CString := none
  password : Option CString := none
  authKey : Option CString := none

structure VPNGateRequest where
  host : Option CString := none
  configBase64 : Option CString := none
  countryLong : Option CString := none
  username : Option CString := none
  password : Option CString := none

def ConnectRequest.unarchived (request : ConnectRequest) : VPNProfile :=
  VPNProfile.unarchive {} (request.profile.getD [])

/-- With the pre-authentication key that came along. -/
def ConnectRequest.keyed (request : ConnectRequest) : VPNProfile :=
  match request.authKey with
  | some authKey =>
      if authKey = .empty then request.unarchived else { request.unarchived with authKey }
  | none => request.unarchived

def ConnectRequest.user (request : ConnectRequest) : CString := request.username.getD .empty

def ConnectRequest.pass (request : ConnectRequest) : CString := request.password.getD .empty

/-- The profile of a VPN Gate server. -/
def gateProfile (host : CString) (countryLong : Option CString) (configPath : CString) :
    VPNProfile where
  backendType := .openvpn
  name :=
    let country := countryLong.getD .empty
    .ofBytes (ascii "VPNGate " ++ host.bytes ++
      if country = .empty then [] else ascii " (" ++ country.bytes ++ ascii ")")
  server := host
  port := 443
  configPath

/-- The connect that a VPN Gate request stands for, once its configuration is staged. -/
def VPNGateRequest.connect (request : VPNGateRequest) (host staged : CString) :
    ConnectRequest where
  profile := some (gateProfile host request.countryLong staged).archive
  username := request.username
  password := request.password

def VPNBackendType.served (type : VPNBackendType) : Instance :=
  if type = .wireguard then .wireGuard
  else if type = .tailscale then .tailscale
  else .openVPN

def VPNBackendType.needsConfigFile (type : VPNBackendType) : Bool :=
  type = .openvpn || type = .wireguard

def pathOk (path : CString) (readable : Bool) : Bool :=
  let traversal := path.bytes.tails.any (ascii "/../").isPrefixOf ||
    (ascii "/..").isSuffixOf path.bytes
  path.bytes.head? = some 47 && !traversal && readable

/-- What a message of the looper brings, with the answers of the system it asks. -/
inductive Message (Answer : Type) where
  /-- `readable` is what `access` says of the path. -/
  | connect (request : ConnectRequest) (readable : Bool) (answer : Answer)
  | disconnect
  /-- `staged` is the path of the staged file, empty where staging fails. -/
  | connectVPNGate (request : VPNGateRequest) (staged : CString) (readable : Bool)
      (answer : Answer)
  | statusUpdate (state : VPNState) (detail : Option Bytes) (timerStarts : Bool)
  | reconnectTick (answer : Answer) (timerStarts : Bool)
  /-- A lookup of the home position, which may bring nothing new. -/
  | homeGeoResult (changed : Bool)
  /-- A lookup of the country, which may have failed. -/
  | countryResult (known : Bool)

/-! ## Handlers -/

namespace Daemon

variable {Backends Answer : Type} (api : VPNBackends Backends Answer) (daemon : Daemon Backends)

def state : VPNState := api.state daemon.server.backend daemon.backends

def withServer (server : SotoportegoServer) : Daemon Backends := { daemon with server }

/-- Credentials are handed over unless there are none. -/
def setCredentials (user pass : CString) : Daemon Backends :=
  if user = .empty ∧ pass = .empty then daemon
  else
    { daemon with
      backends := api.setCredentials daemon.server.backend user pass daemon.backends }

def refuse (detail : String) : Handled Backends :=
  ⟨daemon, [.reply (daemon.state api) (ascii detail)]⟩

/-- `_SelectBackend`. -/
def select (type : VPNBackendType) : Daemon Backends :=
  daemon.withServer { daemon.server with backend := type.served }

def forgetHost : Daemon Backends :=
  daemon.withServer { daemon.server with connectedHost := .empty }

/-- `Connect` of the selected backend. -/
def connectBackend (profile : VPNProfile) (answer : Answer) : Status × Daemon Backends :=
  let result := api.connect daemon.server.backend profile answer daemon.backends
  (result.1, { daemon with backends := result.2 })

/-- A `Connect` that fails at once will never report an end. -/
def answered (status : Status) : Handled Backends :=
  match status with
  | .ok () => ⟨daemon, []⟩
  | .error fault => ⟨daemon.forgetHost, [.replyFault (daemon.state api) fault]⟩

def armed (request : ConnectRequest) : Daemon Backends :=
  let ready := daemon.setCredentials api request.user request.pass
  ready.withServer (ready.server.armReconnect request.profile request.user request.pass)

/-- `_HandleConnect` from the credentials on. -/
def launch (request : ConnectRequest) (answer : Answer) : Handled Backends :=
  let armed := daemon.armed api request
  let called := armed.connectBackend api request.keyed answer
  let handled := called.2.answered api called.1
  ⟨handled.daemon,
    .armReconnect :: .connect armed.server.backend request.keyed called.1 :: handled.acts⟩

def handleConnect (request : ConnectRequest) (readable : Bool) (answer : Answer) :
    Handled Backends :=
  if liveState (daemon.state api) then daemon.refuse api "already connected; disconnect first"
  else
    let selected := daemon.select request.unarchived.backendType
    if request.unarchived.backendType.needsConfigFile ∧
        ¬ pathOk request.unarchived.configPath readable then
      selected.forgetHost.refuse api "profile config path is missing, not absolute, or unreadable"
    else selected.launch api request answer

/-- `Disconnect` of the active backend, with the countdown stopped. -/
def stopped : Daemon Backends where
  server := daemon.server.stopped
  backends := api.disconnect daemon.server.backend daemon.backends

/-- A countdown has nothing to report its end, so that it is told here. -/
def handleDisconnect : Handled Backends :=
  let stopped := daemon.stopped api
  if daemon.server.reconnectTimer then
    ⟨stopped.withServer { stopped.server with lastState := .disconnected, connectedHost := .empty },
      [.disconnect daemon.server.backend,
        .broadcast .disconnected none daemon.server.connectedHost,
        .enter .disconnected (daemon.server.lastState ≠ .disconnected)]⟩
  else ⟨stopped, [.disconnect daemon.server.backend]⟩

/-- The end of `_HandleStatusForNotification`, with the state that clients are told. -/
def takeState (state : VPNState) : Handled Backends :=
  let entered := daemon.server.entered state
  if state = daemon.server.lastState then ⟨daemon.withServer entered, [.enter state false]⟩
  else if state = .connected then
    ⟨daemon.withServer { entered with reconnectAttempt := 0 }, [.enter state true]⟩
  else ⟨daemon.withServer entered, [.enter state true]⟩

/-- A status update, rewritten where the drop starts a countdown. -/
def handleStatus (state : VPNState) (detail : Option Bytes) (timerStarts : Bool) :
    Handled Backends :=
  let countdown := daemon.server.dropped state timerStarts
  let taken := (daemon.withServer countdown.server).takeState (countdown.told state)
  ⟨taken.daemon, .status state :: countdown.acts ++ taken.acts ++
    [.broadcast (countdown.told state) (countdown.detail detail)
      taken.daemon.server.connectedHost]⟩

/-- A retry that cannot start falls back to another countdown. -/
def retried (status : Status) (timerStarts : Bool) : Handled Backends :=
  match status with
  | .ok () => ⟨daemon, []⟩
  | .error _ =>
      let countdown := daemon.server.startReconnectCountdown timerStarts
      ⟨daemon.withServer countdown.server,
        countdown.acts ++ if countdown.running then [countdown.server.broadcastReconnecting] else []⟩

/-- The archived profile of the latest connect. -/
def retryProfile : VPNProfile := VPNProfile.unarchive {} daemon.server.reconnectProfile

/-- The backend of that connect, selected again and given its credentials. -/
def readied : Daemon Backends :=
  (daemon.select daemon.retryProfile.backendType).setCredentials api
    daemon.server.reconnectUser daemon.server.reconnectPass

def attemptReconnect (answer : Answer) (timerStarts : Bool) : Handled Backends :=
  let readied := daemon.readied api
  let called := readied.connectBackend api daemon.retryProfile answer
  let handled := called.2.retried called.1 timerStarts
  ⟨handled.daemon,
    .reconnect readied.server.backend daemon.retryProfile called.1 :: handled.acts⟩

def handleReconnectTick (answer : Answer) (timerStarts : Bool) : Handled Backends :=
  if ¬ daemon.server.reconnectTimer ∨ daemon.server.userInitiatedDisconnect then ⟨daemon, []⟩
  else if 1 < daemon.server.reconnectSecondsLeft then
    let later := { daemon.server with
      reconnectSecondsLeft := daemon.server.reconnectSecondsLeft - 1 }
    ⟨daemon.withServer later, [later.broadcastReconnecting]⟩
  else (daemon.withServer daemon.server.cancelReconnect).attemptReconnect api answer timerStarts

def withHost (host : CString) : Daemon Backends :=
  daemon.withServer { daemon.server with connectedHost := host }

def handleConnectVPNGate (request : VPNGateRequest) (staged : CString) (readable : Bool)
    (answer : Answer) : Handled Backends :=
  match request.host, request.configBase64 with
  | some host, some _ =>
      let recorded := daemon.withHost host
      if staged = .empty then recorded.forgetHost.refuse api "could not stage vpngate .ovpn"
      else recorded.handleConnect api (request.connect host staged) readable answer
  | _, _ => ⟨daemon, []⟩

/-- A fresh status for every client. -/
def broadcastStatus : Handled Backends :=
  ⟨daemon, [.broadcast (daemon.state api) none daemon.server.connectedHost]⟩

def handle : Message Answer → Handled Backends
  | .connect request readable answer => daemon.handleConnect api request readable answer
  | .disconnect => daemon.handleDisconnect api
  | .connectVPNGate request staged readable answer =>
      daemon.handleConnectVPNGate api request staged readable answer
  | .statusUpdate state detail timerStarts => daemon.handleStatus state detail timerStarts
  | .reconnectTick answer timerStarts => daemon.handleReconnectTick api answer timerStarts
  | .homeGeoResult changed => if changed then daemon.broadcastStatus api else ⟨daemon, []⟩
  | .countryResult known =>
      if daemon.server.lastState = .connected ∧ known then daemon.broadcastStatus api
      else ⟨daemon, []⟩

end Daemon

/-! ## Runs -/

/-- A message is taken off the queue, or the backends move on by themselves. -/
inductive Event (Backends Answer : Type) where
  | message (message : Message Answer)
  | backends (backends : Backends)

/-- A daemon and what it has done so far. -/
structure Watch (Backends : Type) where
  daemon : Daemon Backends
  log : List Act := []

namespace Watch

variable {Backends Answer : Type} (api : VPNBackends Backends Answer)

def started (backends : Backends) : Watch Backends where
  daemon := { server := {}, backends }

def step (watch : Watch Backends) : Event Backends Answer → Watch Backends
  | .message message =>
      let handled := watch.daemon.handle api message
      ⟨handled.daemon, watch.log ++ handled.acts⟩
  | .backends backends => { watch with daemon := { watch.daemon with backends } }

end Watch

end Sotoportego.Server
