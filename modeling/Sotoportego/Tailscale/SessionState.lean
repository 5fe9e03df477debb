import Sotoportego.Tailscale.MagicDns
import Sotoportego.Tailscale.Routes

/-!
# The backend over its sessions

The state one tailnet session derives from its MapResponses, and the backend that connects,
takes responses, moves traffic, disconnects and connects again with the same object.
-/

set_option autoImplicit false

namespace Sotoportego.Tailscale

open Octets CText WireGuard

/-- The first IPv4 address of the node, its width cut off. -/
def TSNetmap.selfIPv4 (netmap : TSNetmap) : CString :=
  match netmap.selfAddresses.find? fun cidr => 58 ∉ cidr with
  | some cidr => .ofBytes (cidr.takeWhile (· ≠ 47))
  | none => .empty

structure SessionState where
  netmap : TSNetmap := {}
  peers : TSPeerSet := {}
  dns : MagicDns := {}
  selfIP : CString := .empty

/-- The return value, and the session left; `none` is an overrun in `Update`. -/
def SessionState.applyMapResponse (session : SessionState) (json : Bytes) :
    Option (Bool × SessionState) :=
  match session.netmap.parse json with
  | (false, _) => some (false, session)
  | (true, netmap) =>
      (session.peers.update netmap).map fun updated =>
        (true,
          { netmap
            peers := updated.1
            dns := session.dns.loadFromNetmap netmap
            selfIP := netmap.selfIPv4 })

inductive VPNState where
  | disconnected
  | connecting
  | authenticating
  | connected
  | reconnecting
  | error
  deriving DecidableEq

structure VPNProfile where
  name : CString
  server : CString := .empty
  authKey : CString := .empty

structure TailscaleBackend where
  state : VPNState := .disconnected
  localIP : CString := .empty
  hostname : CString := .empty
  authKey : CString := .empty
  /-- The private node key of the identity in use. -/
  nodePrivate : Option Key := none
  /-- A worker thread is running. -/
  worker : Bool := false
  stopRequested : Bool := false
  routing : Routing := {}
  session : SessionState := {}
  clock : Int := 0
  derpUp : Bool := false
  tunOpen : Bool := false

namespace TailscaleBackend

inductive Event where
  /-- The identity is what `LoadOrCreate` yields for the profile. -/
  | connect (profile : VPNProfile) (identity : Option Key)
  | disconnect
  /-- A MapResponse the worker reads. -/
  | mapResponse (json : Bytes)
  | bringUpTun (iface : CString)
  | traffic (event : Tailscale.Event)
  | setExitNode (id : CString)
  /-- The worker has ended and its `kMsgTsFailed` is handled. -/
  | failed (detail : CString)

def defaultControlHost : CString := text "controlplane.tailscale.com"

variable (crypto : Crypto) (backend : TailscaleBackend)

def connect (profile : VPNProfile) (identity : Option Key) : TailscaleBackend :=
  if profile.name = .empty then { backend with state := .error }
  else if backend.worker then { backend with state := .error }
  else
    match identity with
    | none => { backend with state := .error }
    | some nodePrivate =>
        { backend with
          nodePrivate
          routing := { backend.routing with
            controlHost := if profile.server ≠ .empty then profile.server else defaultControlHost
            desiredExitNode := .empty
            activeExitNode := .empty }
          hostname := profile.name
          authKey := profile.authKey
          stopRequested := false
          state := .connecting
          worker := true }

def disconnect : TailscaleBackend :=
  { backend with
    stopRequested := true
    state := if backend.worker then backend.state else .disconnected }

/-- An accepted response is also announced: the looper takes its address over. -/
def mapResponse (json : Bytes) : Option TailscaleBackend :=
  if backend.worker then
    (backend.session.applyMapResponse json).map fun applied =>
      if applied.1 then
        { backend with
          session := applied.2
          localIP := applied.2.selfIP
          state := if backend.tunOpen then .connected else .authenticating }
      else { backend with session := applied.2 }
  else some backend

def bringUpTun (iface : CString) : TailscaleBackend :=
  if backend.worker then
    { backend with
      routing := backend.routing.bringUpTun iface backend.session.selfIP
      tunOpen := true }
  else backend

/-- The reader threads work on the peers of the session while the tun is open. -/
def traffic (event : Tailscale.Event) : Option TailscaleBackend :=
  match backend.nodePrivate, event with
  | none, _ => some backend
  | _, .mapResponse _ => some backend
  | some nodePrivate, event =>
      if backend.tunOpen then
        let plane : DataPlane :=
          { clock := backend.clock
            netmap := backend.session.netmap
            set := backend.session.peers
            derpUp := backend.derpUp
            tunOpen := backend.tunOpen }
        (plane.step crypto nodePrivate event).map fun next =>
          { backend with
            clock := next.clock
            derpUp := next.derpUp
            session := { backend.session with peers := next.set } }
      else some backend

def stopDataPlane : TailscaleBackend :=
  { backend with
    stopRequested := true
    derpUp := false
    routing := { backend.routing with derpHost := .empty }
    tunOpen := false }

/-- Only a running worker posts the message. -/
def failed (detail : CString) : TailscaleBackend :=
  if backend.worker then
    let stopped := { backend with worker := false }.stopDataPlane
    { stopped with
      routing := stopped.routing.teardownTun.1
      state := if detail = .empty then .disconnected else .error }
  else backend

def step : Event → Option TailscaleBackend
  | .connect profile identity => some (backend.connect profile identity)
  | .disconnect => some backend.disconnect
  | .mapResponse json => backend.mapResponse json
  | .bringUpTun iface => some (backend.bringUpTun iface)
  | .traffic event => backend.traffic crypto event
  | .setExitNode id => some { backend with routing := backend.routing.setExitNode id }
  | .failed detail => some (backend.failed detail)

end TailscaleBackend

end Sotoportego.Tailscale
