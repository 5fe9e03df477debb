import Sotoportego.OpenVPN.Backend
import Sotoportego.WireGuard.Config
import Sotoportego.WireGuard.Network

/-!
# The WireGuard backend on the looper

`WireGuardBackend::Connect`, `Disconnect` and `MessageReceived`, around a reader thread that
posts its messages. What a `Connect` asks of the system is answered by a `Start`.
-/

set_option autoImplicit false

namespace Sotoportego.WireGuard

open Octets CText
open OpenVPN (System probeFreeSlot tunName)
open Server (Status VPNProfile)
open Tailscale (KernelRoute VPNState trim)

/-- The slots that are up after `ProbeFreeSlot`. -/
def probedSlots (comesUp : Nat → Bool) (slots : List CString) : List CString :=
  (Run.run System.apply { tuns := slots } (probeFreeSlot comesUp).2).tuns

structure WireGuardBackend where
  state : VPNState := .disconnected
  bytesIn : Nat := 0
  bytesOut : Nat := 0
  config : WireGuardConfig := {}
  keys : Option Keys := none
  localIP : CString := .empty
  remoteIP : CString := .empty
  /-- The tun slot, the endpoint and the routes. -/
  network : NetworkHost
  udpSocket : Bool := false
  tunFd : Bool := false
  reader : Bool := false
  stopRequested : Bool := false
  /-- The slots that the backend has brought up and not deleted. -/
  slots : List CString := []
  /-- The status updates it has posted. -/
  updates : List (VPNState × Option Bytes) := []

structure Start where
  /-- What `ParseFile` makes of the file, if it can be opened. -/
  config : Option WireGuardConfig
  comesUp : Nat → Bool
  /-- `ifconfig` assigns the address. -/
  assigned : Bool
  /-- The IPv4 address of the endpoint. -/
  resolved : Option CString
  socket : Bool
  connected : Bool
  tunOpens : Bool
  readerStarts : Bool

/-- What the reader thread posts. -/
inductive ReaderMessage where
  /-- `kMsgWgConnected`, with the kernel's table at that time. -/
  | connected (table : List KernelRoute)
  | stats (bytesIn bytesOut : Nat)
  | readerExited (detail : Bytes)

namespace WireGuardBackend

variable (backend : WireGuardBackend)

def setState (state : VPNState) (detail : Option Bytes) : WireGuardBackend :=
  { backend with state, updates := backend.updates ++ [(state, detail)] }

def cleanup : WireGuardBackend :=
  { backend with
    stopRequested := true
    reader := false
    network := backend.network.cleanup
    tunFd := false
    udpSocket := false
    slots :=
      if backend.network.tunInterface = .empty then backend.slots
      else backend.slots.filter (· ≠ backend.network.tunInterface) }

/-- The end of a failed attempt. -/
def fail (detail : String) : WireGuardBackend :=
  backend.cleanup.setState .error (some (ascii detail))

/-! ## `Connect` -/

/-- The address of the interface, without the width. -/
def tunAddress : CString :=
  trim (.ofBytes (backend.config.address.bytes.takeWhile (· ≠ 47)))

def withoutSlot (start : Start) : WireGuardBackend :=
  { backend with
    network := { backend.network with tunInterface := .empty }
    slots := probedSlots start.comesUp backend.slots }

def withSlot (start : Start) (slot : Nat) : WireGuardBackend :=
  { backend with
    network := { backend.network with
      tunInterface := tunName slot
      tunSelfIP := backend.tunAddress }
    slots := probedSlots start.comesUp backend.slots }

def bringUpTun (start : Start) : Bool × WireGuardBackend :=
  match (probeFreeSlot start.comesUp).1 with
  | none => (false, backend.withoutSlot start)
  | some slot => (backend.tunAddress = .empty || start.assigned, backend.withSlot start slot)

/-- The address is kept where the socket cannot be connected. -/
def openUdpSocket (start : Start) : Bool × WireGuardBackend :=
  match start.resolved with
  | none => (false, backend)
  | some endpointIP =>
      if start.socket then
        (start.connected,
          { backend with
            network := { backend.network with endpointIP }
            udpSocket := start.connected })
      else (false, backend)

def withTunFd : WireGuardBackend := { backend with tunFd := true }

/-- `Connect` from the tun slot on. -/
def raise (start : Start) : Status × WireGuardBackend :=
  let tun := backend.bringUpTun start
  let udp := tun.2.openUdpSocket start
  if tun.1 = false then (.error .general, tun.2.fail "could not bring up a tun slot")
  else if udp.1 = false then (.error .general, udp.2.fail "could not reach the WireGuard endpoint")
  else if start.tunOpens = false then (.error .general, udp.2.fail "could not open the tun device")
  else if start.readerStarts = false then
    (.error .general, udp.2.withTunFd.fail "could not start the WireGuard worker")
  else (.ok (), { udp.2.withTunFd with reader := true })

/-- The configuration is replaced even where it cannot be read. -/
def configured (config : WireGuardConfig) : WireGuardBackend :=
  { backend with
    config
    network := { backend.network with
      allowedIPs := config.peer.allowedIPs.bytes
      dns := config.dns.bytes } }

def requested : WireGuardBackend :=
  { backend with
    remoteIP := backend.config.peer.endpointHost
    localIP := backend.config.address
    stopRequested := false
    bytesIn := 0
    bytesOut := 0 }

/-- `Connect` with a complete configuration. -/
def begin (start : Start) : Status × WireGuardBackend :=
  match backend.config.decodeKeys with
  | none =>
      (.error .badValue,
        backend.setState .error (some (ascii "WireGuard config has an invalid key")))
  | some keys => ({ backend with keys := some keys }.setState .connecting none).raise start

def connect (profile : VPNProfile) (start : Start) : Status × WireGuardBackend :=
  if backend.state ≠ .disconnected ∧ backend.state ≠ .error then (.error .notAllowed, backend)
  else if profile.configPath = .empty then
    (.error .badValue,
      backend.setState .error (some (ascii "profile has no WireGuard config path")))
  else
    match start.config with
    | none =>
        (.error .general,
          (backend.configured {}).setState .error (some (ascii "cannot read WireGuard config")))
    | some config =>
        if config.isComplete then (backend.configured config).requested.begin start
        else
          (.error .badValue,
            (backend.configured config).setState .error
              (some (ascii "WireGuard config is missing a key or endpoint")))

/-! ## `Disconnect` and the messages of the reader -/

def disconnect : WireGuardBackend :=
  if backend.state = .disconnected then backend
  else
    let stopped := { backend with stopRequested := true }
    if backend.reader then stopped else stopped.cleanup.setState .disconnected none

def connected (table : List KernelRoute) : WireGuardBackend :=
  { backend with network := { backend.network with table }.installRoutes }.setState .connected none

def readerExited (detail : Bytes) : WireGuardBackend :=
  if detail = [] then backend.cleanup.setState .disconnected none
  else backend.cleanup.setState .error (some detail)

/-- Only a running reader posts. -/
def receive (message : ReaderMessage) : WireGuardBackend :=
  if backend.reader = false then backend
  else
    match message with
    | .connected table => backend.connected table
    | .stats bytesIn bytesOut => { backend with bytesIn, bytesOut }
    | .readerExited detail => backend.readerExited detail

end WireGuardBackend

end Sotoportego.WireGuard
