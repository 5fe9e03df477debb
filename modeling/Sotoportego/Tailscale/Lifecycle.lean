import Sotoportego.Tailscale.SessionState
import Sotoportego.WireGuard.Lifecycle

/-!
# The Tailscale backend and its threads

The requests of the looper, what the control worker does with a map, and the messages it
posts. The worker brings up the tun slot, the relay and the resolver; the exit node follows on
the tun reader.
-/

set_option autoImplicit false

namespace Sotoportego.Tailscale

open Octets CText WireGuard
open OpenVPN (probeFreeSlot tunName)
open Server (Fault)

/-- The backend, and the threads and tun slots it has on its host. -/
structure TailscaleHost where
  backend : TailscaleBackend := {}
  dnsFd : Bool := false
  dnsThread : Bool := false
  derpReader : Bool := false
  /-- DERP readers that `fDerpReader` has been overwritten over. -/
  strays : Nat := 0
  /-- The slots it has brought up and not deleted. -/
  slots : List CString := []
  /-- The status updates it has posted. -/
  updates : List (VPNState × Option Bytes) := []

/-- How the system answers a `Connect`. -/
structure Enrolment where
  /-- What `LoadOrCreate` yields. -/
  identity : Except Fault Key
  workerStarts : Bool

inductive HostEvent where
  | authURL (url : CString)
  | authorized
  /-- The worker has applied a MapResponse. -/
  | mapResponse (session : SessionState)
  | bringUpTun (comesUp : Nat → Bool) (assigned : Bool)
  | startDataPlane (opened : Bool)
  | bringUpDerp (reaches readerStarts : Bool)
  | startMagicDns (bound threadStarts : Bool)
  | syncRoutes
  /-- `kMsgTsNetmap`. -/
  | netmap (peers : Nat) (selfIP : CString) (up : Bool)
  /-- A tick of the tun reader. -/
  | syncExitNode (resolver : Resolver) (table : List KernelRoute)
  | setExitNode (id : CString)
  /-- A DERP reader finds its relay dropped, or has connected to it again. -/
  | derpTurn (up : Bool)
  /-- A DERP reader that nobody waits for sees the stop flag. -/
  | strayEnds
  /-- `kMsgTsFailed`, the last message of a worker. -/
  | failed (detail : CString)

/-- The relay that `_BringUpDerp` turns to: that of the first peer with a home, or any. -/
def SessionState.relayHost (session : SessionState) : CString :=
  let home := session.peers.peers.find? fun peer => 0 < peer.derpRegion
  let wanted := home.bind fun peer =>
    (session.netmap.derpRegions.find? (·.regionID = peer.derpRegion)).bind (·.nodes.head?)
  let nodes := wanted.toList ++ session.netmap.derpRegions.filterMap (·.nodes.head?)
  ((nodes.map fun node => CString.ofBytes node.hostName).find? (· ≠ .empty)).getD .empty

namespace TailscaleHost

variable (host : TailscaleHost)

/-- A new state of the backend, which is announced. -/
def announce (backend : TailscaleBackend) (detail : Option Bytes) : TailscaleHost :=
  { host with backend, updates := host.updates ++ [(backend.state, detail)] }

def setState (state : VPNState) (detail : Option Bytes) : TailscaleHost :=
  host.announce { host.backend with state } detail

def withRouting (routing : Routing) : TailscaleHost :=
  { host with backend := { host.backend with routing } }

def connect (profile : Server.VPNProfile) (answer : Enrolment) : Server.Status × TailscaleHost :=
  let asked : VPNProfile :=
    { name := profile.name, server := profile.server, authKey := profile.authKey }
  let next := host.backend.connect asked answer.identity.toOption
  if profile.name = .empty then
    (.error .badValue, host.announce next (some (ascii "Tailscale profile has no name")))
  else if host.backend.worker then
    (.error .notAllowed,
      host.announce next (some (ascii "a Tailscale connection is already in flight")))
  else
    match answer.identity with
    | .error fault =>
        (.error fault, host.announce next (some (ascii "could not establish node identity")))
    | .ok _ =>
        if answer.workerStarts then (.ok (), host.announce next none)
        else
          (.error .general,
            ((host.announce next none).announce { next with worker := false, state := .error }
              (some (ascii "could not start the Tailscale control worker"))))

/-- Announced only where no worker will do it. -/
def disconnect : TailscaleHost :=
  if host.backend.worker then { host with backend := host.backend.disconnect }
  else host.announce host.backend.disconnect none

/-! ## On the worker -/

/-- A slot whose address cannot be assigned stays up without a name. -/
def bringUpTun (comesUp : Nat → Bool) (assigned : Bool) : TailscaleHost :=
  if host.backend.routing.tunInterface ≠ .empty ∨ host.backend.session.selfIP = .empty then host
  else
    let probed := { host with slots := probedSlots comesUp host.slots }
    match (probeFreeSlot comesUp).1 with
    | none => probed
    | some slot =>
        if assigned then
          probed.withRouting
            (host.backend.routing.bringUpTun (tunName slot) host.backend.session.selfIP)
        else probed

def startDataPlane (opened : Bool) : TailscaleHost :=
  if host.backend.tunOpen ∨ host.backend.routing.tunInterface = .empty then host
  else { host with backend := { host.backend with tunOpen := opened } }

/-- The relay is connected where `fDerpUp` does not hold, whatever reader there is. -/
def bringUpDerp (reaches readerStarts : Bool) : TailscaleHost :=
  if host.backend.derpUp ∨ host.backend.session.relayHost = .empty ∨ ¬ reaches then host
  else
    { host with
      backend := { host.backend with
        derpUp := true
        routing := { host.backend.routing with derpHost := host.backend.session.relayHost } }
      derpReader := readerStarts
      strays := host.strays + host.derpReader.toNat }

def startMagicDns (bound threadStarts : Bool) : TailscaleHost :=
  if host.dnsFd ∨ host.backend.session.selfIP = .empty ∨ ¬ bound then host
  else { host with dnsFd := true, dnsThread := threadStarts }

def syncRoutes : TailscaleHost :=
  host.withRouting (host.backend.routing.syncRoutes host.backend.session.peers).1

/-! ## Messages of the worker -/

def peersText (peers : Nat) : Bytes :=
  ascii (toString peers ++ if peers = 1 then " peer" else " peers")

def netmapDetail (peers : Nat) (selfIP : CString) (up : Bool) : Bytes :=
  if up then
    (if selfIP = .empty then [] else selfIP.bytes ++ [32, 0xc2, 0xb7, 32]) ++ peersText peers
  else
    ascii "netmap: " ++ peersText peers ++
      (if selfIP = .empty then [] else ascii ", self " ++ selfIP.bytes) ++
      [32, 0xe2, 0x80, 0x94] ++ ascii " bringing up tunnel"

def netmap (peers : Nat) (selfIP : CString) (up : Bool) : TailscaleHost :=
  host.announce
    { host.backend with
      localIP := selfIP
      state := if up then .connected else .authenticating }
    (some (netmapDetail peers selfIP up))

/-- `_TeardownTun` deletes the slot that has a name. -/
def keptSlots : List CString :=
  if host.backend.routing.tunInterface = .empty then host.slots
  else host.slots.filter (· ≠ host.backend.routing.tunInterface)

/-- The resolver and the DERP reader end with the data plane. -/
def joined : TailscaleHost :=
  { host with dnsFd := false, dnsThread := false, derpReader := false, slots := host.keptSlots }

def failed (detail : CString) : TailscaleHost :=
  host.joined.announce (host.backend.failed detail)
    (if detail = .empty then none else some detail.bytes)

/-- Without a host to connect to the relay stays down. -/
def derpTurn (up : Bool) : TailscaleHost :=
  { host with
    backend := { host.backend with
      derpUp := up && host.backend.routing.derpHost ≠ .empty } }

/-- What a thread does or posts. -/
def threaded : HostEvent → TailscaleHost
  | .authURL url => host.setState .authenticating (some url.bytes)
  | .authorized =>
      host.setState .authenticating (some (ascii "authorized -- fetching network map"))
  | .mapResponse session => { host with backend := { host.backend with session } }
  | .bringUpTun comesUp assigned => host.bringUpTun comesUp assigned
  | .startDataPlane opened => host.startDataPlane opened
  | .bringUpDerp reaches readerStarts => host.bringUpDerp reaches readerStarts
  | .startMagicDns bound threadStarts => host.startMagicDns bound threadStarts
  | .syncRoutes => host.syncRoutes
  | .netmap peers selfIP up => host.netmap peers selfIP up
  | .failed detail => host.failed detail
  | .syncExitNode resolver table =>
      host.withRouting
        (host.backend.routing.syncExitNode host.backend.session.peers resolver table).1
  | .setExitNode id => host.withRouting (host.backend.routing.setExitNode id)
  | .derpTurn up => host.derpTurn up
  | .strayEnds => { host with strays := host.strays - 1 }

/-- The thread that an event is of runs. -/
def runs : HostEvent → Bool
  | .setExitNode _ => true
  | .syncExitNode _ _ => host.backend.tunOpen
  | .derpTurn _ => host.derpReader || 0 < host.strays
  | .strayEnds => host.backend.stopRequested && 0 < host.strays
  | _ => host.backend.worker

def step (event : HostEvent) : TailscaleHost :=
  if host.runs event then host.threaded event else host

end TailscaleHost

end Sotoportego.Tailscale
