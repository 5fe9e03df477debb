import Sotoportego.OpenVPN.Management
import Sotoportego.Server.Profile
import Sotoportego.Tailscale.Routes

/-!
# The OpenVPN backend

`OpenVPNBackend` on the looper, with the lines its stderr thread scans meanwhile. A handler
yields the backend after it and what it does to the system, in program order.
-/

set_option autoImplicit false

namespace Sotoportego.OpenVPN

open Octets CText
open Edits (Edit)
open Server (Fault Status VPNProfile)
open Tailscale (KernelRoute VPNState text)
open Tailscale.Routing (pin defaultVia)

/-! ## The system -/

/-- What the session file carries for the next start of the daemon. -/
structure SessionRecord where
  openvpnPid : Option Nat
  tunInterface : CString
  tunPeer : CString
  origGateway : CString
  origGatewayIface : CString
  serverIP : CString
  deriving DecidableEq

inductive SessionFile where
  | absent
  | truncated
  | record (record : SessionRecord)
  deriving DecidableEq

inductive Effect where
  /-- A status update posted to the observer. -/
  | notify (state : VPNState) (detail : Option Bytes)
  | notifyStats (bytesIn bytesOut : Nat)
  | route (edit : Edit KernelRoute)
  | eraseSession
  | writeSession (record : SessionRecord)
  | unlinkSession
  | tunDelete (interface : CString)
  | tunUp (interface : CString)
  | ifconfig (interface localIP peer : CString)
  | createFile (path : CString)
  | unlinkFile (path : CString)
  | spawn (pid : Nat)
  | terminate (pid : Nat)
  | reap (pid : Nat)
  | openSocket (fd : Nat)
  | send (fd : Nat) (line : Bytes)
  | closeSocket (fd : Nat)

/-- The kernel's table, the session file, and what is live of the backend's resources. -/
structure System where
  table : List KernelRoute := []
  sessionFile : SessionFile := .absent
  children : List Nat := []
  sockets : List Nat := []
  tuns : List CString := []
  passwordFiles : List CString := []

def System.apply (system : System) : Effect → System
  | .route edit => { system with table := Edits.apply system.table edit }
  | .eraseSession => { system with sessionFile := .truncated }
  | .writeSession record => { system with sessionFile := .record record }
  | .unlinkSession => { system with sessionFile := .absent }
  | .tunDelete interface => { system with tuns := system.tuns.filter (· ≠ interface) }
  | .tunUp interface => { system with tuns := interface :: system.tuns }
  | .createFile path => { system with passwordFiles := path :: system.passwordFiles }
  | .unlinkFile path => { system with passwordFiles := system.passwordFiles.filter (· ≠ path) }
  | .spawn pid => { system with children := pid :: system.children }
  | .reap pid => { system with children := system.children.filter (· ≠ pid) }
  | .openSocket fd => { system with sockets := fd :: system.sockets }
  | .closeSocket fd => { system with sockets := system.sockets.filter (· ≠ fd) }
  | .notify _ _ | .notifyStats _ _ | .ifconfig _ _ _ | .terminate _ | .send _ _ => system

/-! ## The backend -/

structure OpenVPNBackend where
  state : VPNState := .disconnected
  bytesIn : Nat := 0
  bytesOut : Nat := 0
  localIP : CString := .empty
  remoteIP : CString := .empty
  authUsername : CString := .empty
  authPassword : CString := .empty
  origGateway : CString := .empty
  origGatewayIface : CString := .empty
  /-- The tunnel peer of the latest reply. -/
  tunPeer : CString := .empty
  installedServerIP : CString := .empty
  /-- The tunnel peer the installed default route points at. -/
  installedTunPeer : CString := .empty
  routesInstalled : Bool := false
  tunInterface : CString := .empty
  tunNode : CString := .empty
  pid : Option Nat := none
  socket : Option Nat := none
  stderrFd : Bool := false
  mgmtPort : Nat := 0
  reader : Bool := false
  stderrReader : Bool := false
  stopRequested : Bool := false
  mgmtPoll : Bool := false
  mgmtAttempt : Nat := 0
  mgmtPassword : Bytes := []
  mgmtPasswordFile : CString := .empty

structure Reaction where
  backend : OpenVPNBackend
  effects : List Effect

def Reaction.andThen (reaction : Reaction) (next : OpenVPNBackend → Reaction) : Reaction where
  backend := (next reaction.backend).backend
  effects := reaction.effects ++ (next reaction.backend).effects

/-- How the system answers a `Connect`. -/
structure Launch where
  /-- The tun slots that come up. -/
  comesUp : Nat → Bool
  port : Nat
  token : Bytes
  /-- What `mkstemp` makes of the template, unless the file cannot be made and written. -/
  passwordFile : Option Bytes
  /-- The child, unless the pipe or the spawn fails. -/
  pid : Option Nat
  stderrThread : Bool
  pollStarts : Bool

/-- How the system answers a probe of the management port. -/
structure Probe where
  reaped : Bool
  /-- The connected socket. -/
  fd : Option Nat
  readerStarts : Bool

/-- What the stderr thread scans while the looper handles an event: before the routes are
looked at, and before the session record is filled in. -/
structure Meanwhile where
  beforeRoutes : List Bytes := []
  beforeRecord : List Bytes := []

def kMgmtConnectAttempts : Nat := 50

def tunName (slot : Nat) : CString := .ofBytes (ascii "tun/" ++ [.ofNat (48 + slot)])

def tunNodeName (slot : Nat) : CString := .ofBytes (ascii "/dev/tun/" ++ [.ofNat (48 + slot)])

def passwordPath (unique : Bytes) : CString := .ofBytes (ascii "/tmp/sotoportego.mgmt" ++ unique)

/-- `TunDevice::ProbeFreeSlot`: each slot is deleted, and the first that comes up is taken. -/
def probeFreeSlot (comesUp : Nat → Bool) : Option Nat × List Effect :=
  match (List.range 8).find? comesUp with
  | none => (none, (List.range 8).map fun slot => .tunDelete (tunName slot))
  | some slot =>
      (some slot, (List.range (slot + 1)).map (fun probed => .tunDelete (tunName probed)) ++
        [.tunUp (tunName slot)])

/-! ## Scanning -/

/-- The text from the first occurrence of a pattern. -/
def find (pattern source : Bytes) : Option Bytes :=
  source.tails.find? pattern.isPrefixOf

def takeToken (source : Bytes) : Bytes :=
  (source.dropWhile isBlank).takeWhile fun octet =>
    ¬ (isBlank octet ∨ octet = 44 ∨ octet = 39 ∨ octet = 34 ∨ octet = 10 ∨ octet = 13)

/-- The default route a line tells of: gateway and interface. -/
def routeGateway (line : Bytes) : Option (CString × CString) :=
  (find (ascii "ROUTE_GATEWAY ") line).bind fun found =>
    let gateway := takeToken (found.drop 14)
    let iface := ((find (ascii "IFACE=") found).map fun iface => takeToken (iface.drop 6)).getD []
    if gateway = [] ∨ iface = [] then none else some (.ofBytes gateway, .ofBytes iface)

/-- The tunnel peer a line tells of. -/
def pushedPeer (line : Bytes) : Option CString :=
  (find (ascii "route-gateway ") line).bind fun found =>
    let peer := takeToken (found.drop 14)
    if peer = [] then none else some (.ofBytes peer)

/-- `_ApplyRestore`: the route commands that undo a session. -/
def applyRestore (tunIface tunPeer origGateway origGatewayIface serverIP : CString) :
    List (Edit KernelRoute) :=
  let dropTun :=
    if tunIface ≠ .empty ∧ tunPeer ≠ .empty then [Edit.delete (defaultVia tunIface tunPeer)] else []
  let restoreDefault :=
    if origGateway ≠ .empty ∧ origGatewayIface ≠ .empty then
      [Edit.add (defaultVia origGatewayIface origGateway)]
    else []
  let dropPin :=
    if serverIP ≠ .empty ∧ origGateway ≠ .empty ∧ origGatewayIface ≠ .empty then
      [Edit.delete (pin origGatewayIface origGateway serverIP)]
    else []
  dropTun ++ restoreDefault ++ dropPin

/-- The detail of a state line, if it has one. -/
def OpenVPNEvent.detail (event : OpenVPNEvent) : Option Bytes :=
  if event.stateDetail = [] then none else some event.stateDetail

namespace OpenVPNBackend

variable (backend : OpenVPNBackend)

def scanLogLine (line : Bytes) : OpenVPNBackend :=
  let harvested :=
    if backend.origGateway = .empty then
      match routeGateway line with
      | some (gateway, iface) => { backend with origGateway := gateway, origGatewayIface := iface }
      | none => backend
    else backend
  match pushedPeer line with
  | some peer => { harvested with tunPeer := peer }
  | none => harvested

def scanLines (lines : List Bytes) : OpenVPNBackend :=
  lines.foldl scanLogLine backend

/-! ## State and commands -/

def quiet : Reaction := ⟨backend, []⟩

def setState (state : VPNState) (detail : Option Bytes) : Reaction :=
  ⟨{ backend with state }, [.notify state detail]⟩

/-- `_SendCommand`, which does nothing without a socket. -/
def sendCommand (line : Bytes) : List Effect :=
  backend.socket.toList.map fun fd => .send fd (line ++ [10])

/-! ## Routes -/

def sessionRecord : SessionRecord where
  openvpnPid := backend.pid
  tunInterface := backend.tunInterface
  tunPeer := backend.tunPeer
  origGateway := backend.origGateway
  origGatewayIface := backend.origGatewayIface
  serverIP := backend.installedServerIP

def writeSessionFile : List Effect :=
  [.eraseSession, .writeSession backend.sessionRecord]

/-- What the stderr thread scans before the record is filled in shows in the record. -/
def installRoutes (vpnServerIP : CString) (meanwhile : List Bytes) : Reaction :=
  if backend.routesInstalled then (backend.scanLines meanwhile).quiet
  else if backend.origGateway = .empty ∨ backend.origGatewayIface = .empty ∨
      backend.tunPeer = .empty ∨ vpnServerIP = .empty then
    (backend.scanLines meanwhile).quiet
  else
    let installed := { backend with
      installedServerIP := vpnServerIP
      installedTunPeer := backend.tunPeer
      routesInstalled := true }.scanLines meanwhile
    ⟨installed,
      [.route (.add (pin backend.origGatewayIface backend.origGateway vpnServerIP)),
        .route (.delete (defaultVia backend.origGatewayIface backend.origGateway)),
        .route (.add (defaultVia backend.tunInterface backend.tunPeer))] ++
      installed.writeSessionFile⟩

def refreshTunRoute (meanwhile : List Bytes) : Reaction :=
  if backend.tunPeer = .empty ∨ backend.tunPeer = backend.installedTunPeer then
    (backend.scanLines meanwhile).quiet
  else
    let refreshed := { backend with installedTunPeer := backend.tunPeer }.scanLines meanwhile
    ⟨refreshed,
      [.route (.delete (defaultVia backend.tunInterface backend.installedTunPeer)),
        .route (.add (defaultVia backend.tunInterface backend.tunPeer))] ++
      refreshed.writeSessionFile⟩

def removeRoutes : Reaction :=
  if ¬ backend.routesInstalled then backend.quiet
  else
    ⟨{ backend with
        routesInstalled := false, installedServerIP := .empty, installedTunPeer := .empty },
      (applyRestore backend.tunInterface backend.installedTunPeer backend.origGateway
        backend.origGatewayIface backend.installedServerIP).map .route ++ [.unlinkSession]⟩

/-! ## Lifecycle -/

/-- The threads are joined and the child is reaped, whatever it takes. -/
def stopAll : Reaction :=
  ⟨{ backend with
      mgmtPoll := false, socket := none, stderrFd := false, reader := false
      stderrReader := false, pid := none },
    backend.socket.toList.map .closeSocket ++ backend.pid.toList.map .reap⟩

def dropSlot : Reaction :=
  ⟨{ backend with
      localIP := .empty, authUsername := .empty, authPassword := .empty
      origGateway := .empty, origGatewayIface := .empty, tunPeer := .empty
      tunInterface := .empty, tunNode := .empty
      mgmtPassword := [], mgmtPasswordFile := .empty },
    (if backend.tunInterface = .empty then [] else [.tunDelete backend.tunInterface]) ++
      if backend.mgmtPasswordFile = .empty then [] else [.unlinkFile backend.mgmtPasswordFile]⟩

/-- `_Cleanup(true)`. -/
def cleanup : Reaction :=
  (backend.stopAll.andThen removeRoutes).andThen dropSlot

/-- The end of a failed attempt. -/
def fail (detail : String) : Reaction :=
  backend.cleanup.andThen fun cleaned => cleaned.setState .error (some (ascii detail))

/-- `_SpawnOpenVPN`, without the arguments of the command. -/
def spawnOpenVPN (launch : Launch) : Bool × Reaction :=
  match launch.passwordFile with
  | none => (false, ⟨{ backend with mgmtPort := launch.port, mgmtPassword := [] }, []⟩)
  | some unique =>
      let path := passwordPath unique
      let prepared := { backend with
        mgmtPort := launch.port, mgmtPassword := launch.token, mgmtPasswordFile := path }
      match launch.pid with
      | none => (false, ⟨prepared, [.createFile path]⟩)
      | some pid =>
          (true, ⟨{ prepared with stderrFd := true, pid := some pid },
            [.createFile path, .spawn pid]⟩)

def beginMgmtConnect (pollStarts : Bool) : Reaction :=
  let waiting := { backend with mgmtAttempt := 0, mgmtPoll := pollStarts }
  if pollStarts then waiting.quiet else waiting.fail "could not start management poll"

def withoutSlot : OpenVPNBackend :=
  { backend with tunInterface := .empty, tunNode := .empty }

def withSlot (slot : Nat) : OpenVPNBackend :=
  { backend with tunInterface := tunName slot, tunNode := tunNodeName slot }

/-- `Connect` after the spawn. -/
def spawned (launch : Launch) (running : Bool) : Reaction :=
  if running then
    { backend with stderrReader := launch.stderrThread }.beginMgmtConnect launch.pollStarts
  else backend.setState .error (some (ascii "could not start openvpn (is it installed?)"))

/-- `Connect` from the slot probe on. -/
def start (launch : Launch) : Status × Reaction :=
  match probeFreeSlot launch.comesUp with
  | (none, probed) =>
      (.error .general, (⟨backend.withoutSlot, probed⟩ : Reaction).andThen fun stuck =>
        stuck.setState .error
          (some (ascii "no usable tun slot (every /dev/tun/N is stuck; reboot needed?)")))
  | (some slot, probed) =>
      let (running, launched) := (backend.withSlot slot).spawnOpenVPN launch
      (if running then .ok () else .error .general,
        (⟨launched.backend, probed ++ launched.effects⟩ : Reaction).andThen fun ready =>
          ready.spawned launch running)

def requested (profile : VPNProfile) : OpenVPNBackend :=
  { backend with
    bytesIn := 0, bytesOut := 0, localIP := .empty, remoteIP := profile.server
    stopRequested := false }

def connect (profile : VPNProfile) (launch : Launch) : Status × Reaction :=
  if backend.state ≠ .disconnected ∧ backend.state ≠ .error then (.error .notAllowed, backend.quiet)
  else if profile.configPath = .empty then
    (.error .badValue, backend.setState .error (some (ascii "profile has no .ovpn config path")))
  else
    let connecting := (backend.requested profile).setState .connecting none
    ((connecting.backend.start launch).1, connecting.andThen fun ready => (ready.start launch).2)

def disconnect : Reaction :=
  if backend.state = .disconnected then backend.quiet
  else
    ⟨{ backend with stopRequested := true },
      if backend.socket.isSome then backend.sendCommand (ascii "signal SIGTERM")
      else backend.pid.toList.map .terminate⟩

def setCredentials (user pass : CString) : OpenVPNBackend :=
  { backend with authUsername := user, authPassword := pass }

/-- The first commands on the socket. -/
def greeting : List Effect :=
  [backend.mgmtPassword, ascii "state on", ascii "bytecount 1", ascii "hold off",
    ascii "hold release"].flatMap backend.sendCommand

def startReader (readerStarts : Bool) : Reaction :=
  if readerStarts then { backend with reader := true }.quiet
  else backend.fail "could not start reader thread"

def onMgmtConnected (readerStarts : Bool) : Reaction :=
  (⟨backend, backend.greeting⟩ : Reaction).andThen fun greeted => greeted.startReader readerStarts

def tryMgmtConnect (probe : Probe) : Reaction :=
  if ¬ backend.mgmtPoll then backend.quiet
  else if backend.stopRequested then
    backend.cleanup.andThen fun cleaned => cleaned.setState .disconnected (some (ascii "cancelled"))
  else if probe.reaped then
    (⟨{ backend with pid := none }, backend.pid.toList.map .reap⟩ : Reaction).andThen fun reaped =>
      reaped.fail "openvpn exited before management was ready"
  else
    match probe.fd with
    | some fd =>
        (⟨{ backend with socket := some fd, mgmtPoll := false }, [.openSocket fd]⟩ :
          Reaction).andThen fun connected => connected.onMgmtConnected probe.readerStarts
    | none =>
        let waiting := { backend with mgmtAttempt := backend.mgmtAttempt + 1 }
        if kMgmtConnectAttempts ≤ waiting.mgmtAttempt then
          waiting.fail "could not reach openvpn management port"
        else waiting.quiet

/-- The handler of `kMsgReaderExited`. -/
def readerExited : Reaction :=
  backend.cleanup.andThen fun cleaned =>
    if cleaned.state ≠ .error then cleaned.setState .disconnected none else cleaned.quiet

/-! ## Events -/

def addressed (event : OpenVPNEvent) : OpenVPNBackend :=
  { backend with
    localIP := if event.localIP = [] then backend.localIP else .ofBytes event.localIP
    remoteIP := if event.remoteIP = [] then backend.remoteIP else .ofBytes event.remoteIP }

/-- The addresses of the tun slot, once all are known. -/
def ifconfigUp : List Effect :=
  if backend.tunInterface ≠ .empty ∧ backend.localIP ≠ .empty ∧ backend.tunPeer ≠ .empty then
    [.ifconfig backend.tunInterface backend.localIP backend.tunPeer]
  else []

/-- A `CONNECTED` with the routes in place comes from a soft restart. -/
def fixRoutes (serverIP : CString) (meanwhile : List Bytes) : Reaction :=
  if backend.routesInstalled then backend.refreshTunRoute meanwhile
  else backend.installRoutes serverIP meanwhile

/-- What a `CONNECTED` does before the state is set. -/
def tunnelUp (event : OpenVPNEvent) (meanwhile : Meanwhile) : Reaction :=
  let addressed := backend.addressed event
  (⟨addressed.scanLines meanwhile.beforeRoutes, addressed.ifconfigUp⟩ : Reaction).andThen
    fun scanned => scanned.fixRoutes (.ofBytes event.remoteIP) meanwhile.beforeRecord

/-- An error that is already shown is not overwritten by the end of the process. -/
def handleState (event : OpenVPNEvent) (meanwhile : Meanwhile) : Reaction :=
  if event.mappedState = .disconnected ∧ backend.state = .error then backend.quiet
  else if event.mappedState = .connected then
    (backend.tunnelUp event meanwhile).andThen fun ready => ready.setState .connected event.detail
  else backend.setState event.mappedState event.detail

def handleManagementEvent (event : OpenVPNEvent) (meanwhile : Meanwhile) : Reaction :=
  match event.type with
  | .state => backend.handleState event meanwhile
  | .byteCount =>
      ⟨{ backend with bytesIn := event.bytesIn, bytesOut := event.bytesOut },
        [.notifyStats event.bytesIn event.bytesOut]⟩
  | .passwordRequest =>
      if backend.authUsername = .empty then
        backend.setState .authenticating (some (ascii "credentials required but none provided"))
      else backend.quiet
  | .authFailed => backend.setState .error (some (ascii "authentication failed"))
  | .fatal =>
      backend.setState .error
        (some (if event.message = [] then ascii "fatal error" else event.message))
  | .log | .info =>
      if event.message = [] then backend.quiet else (backend.scanLogLine event.message).quiet
  | _ => backend.quiet

end OpenVPNBackend

/-- The strings of an event as the posted message carries them. -/
def OpenVPNEvent.posted (event : OpenVPNEvent) : OpenVPNEvent :=
  let cut (field : Bytes) : Bytes := (CString.ofBytes field).bytes
  { event with
    raw := cut event.raw, stateName := cut event.stateName, stateDetail := cut event.stateDetail
    localIP := cut event.localIP, remoteIP := cut event.remoteIP, realm := cut event.realm
    message := cut event.message }

/-- `RecoverIfCrashed`, once openvpn of the run before is gone. -/
def recoverIfCrashed (system : System) : List Effect :=
  match system.sessionFile with
  | .absent => []
  | .truncated => [.unlinkSession]
  | .record record =>
      (applyRestore record.tunInterface record.tunPeer record.origGateway record.origGatewayIface
        record.serverIP).map .route ++ [.unlinkSession]

/-! ## Runs -/

structure Host where
  backend : OpenVPNBackend := {}
  system : System := {}

inductive Action where
  | connect (profile : VPNProfile) (launch : Launch)
  | setCredentials (user pass : CString)
  | disconnect
  | tryMgmtConnect (probe : Probe)
  | event (event : OpenVPNEvent) (meanwhile : Meanwhile)
  /-- A line that the stderr thread scans between two messages of the looper. -/
  | scan (line : Bytes)
  | readerExited

def OpenVPNBackend.react (backend : OpenVPNBackend) : Action → Reaction
  | .connect profile launch => (backend.connect profile launch).2
  | .setCredentials user pass => (backend.setCredentials user pass).quiet
  | .disconnect => backend.disconnect
  | .tryMgmtConnect probe => backend.tryMgmtConnect probe
  | .event event meanwhile => backend.handleManagementEvent event.posted meanwhile
  | .scan line => (backend.scanLogLine line).quiet
  | .readerExited => backend.readerExited

namespace Host

def after (host : Host) (reaction : Reaction) : Host where
  backend := reaction.backend
  system := Run.run System.apply host.system reaction.effects

def step (host : Host) (action : Action) : Host :=
  host.after (host.backend.react action)

end Host

end Sotoportego.OpenVPN
