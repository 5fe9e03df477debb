import Sotoportego.Lib.Run
import Sotoportego.Tailscale.PeerSet

/-!
# The Tailscale data plane

The tun reader with its maintenance tick, the datagram handler shared by the socket and
the relay reader, disco pongs and map responses, as steps on the peer set. Each event runs
under the session lock at one reading of the clock. The log records what was done for
which peer; it is not read back by any step.
-/

set_option autoImplicit false

namespace Sotoportego.Tailscale

open Octets CText
open WireGuard

inductive Route where
  | direct (address : Nat) (port : Int)
  | derp
  deriving DecidableEq

inductive Action where
  | expired
  | initiated (index : UInt32)
  | installed (index : UInt32) (sendKey recvKey : Key)
  | answered (msg : Bytes)
  | sealed (sendKey : Key)
  | delivered (recvKey : Key) (packet : Bytes)
  | sent (route : Route) (message : Bytes)
  | pinged (endpoints : List Bytes)
  deriving DecidableEq

structure Entry where
  peer : CString
  time : Int
  action : Action
  deriving DecidableEq

/-! ## Addresses -/

/-- One decimal field of `inet_pton`: one to three digits, at most 255, no leading zero. -/
def inetField (digits : Bytes) : Option Nat :=
  if digits ≠ [] ∧ digits.all isDigit = true ∧ digits.length ≤ 3 ∧ decimal digits ≤ 255 ∧
      (octetAt digits 0 ≠ 48 ∨ digits.length = 1) then
    some (decimal digits)
  else none

def inetPton (host : CString) : Option Nat :=
  match host.bytes.splitOn 46 with
  | [first, second, third, fourth] => do
      let a ← inetField first
      let b ← inetField second
      let c ← inetField third
      let d ← inetField fourth
      return ((a * 256 + b) * 256 + c) * 256 + d
  | _ => none

/-- The host part and the text after the last colon. -/
def splitPort (endpoint : Bytes) : Option (Bytes × Bytes) :=
  if 58 ∈ endpoint then
    let port := (endpoint.reverse.takeWhile (· ≠ 58)).reverse
    some (endpoint.take (endpoint.length - port.length - 1), port)
  else none

/-- A direct destination, once a pong has confirmed one. -/
def peerSockaddr (peer : ManagedPeer) : Option (Nat × Int) :=
  if peer.path.mode ≠ .direct ∨ peer.path.endpoint = [] then none
  else do
    let (host, portText) ← splitPort peer.path.endpoint
    let port := atoi (.ofBytes portText)
    if port ≤ 0 then none
    else return (← inetPton (.ofBytes host), port % 2 ^ 16)

def dottedQuad (packet : Bytes) (offset : Nat) : CString :=
  let field (position : Nat) : Bytes := ascii (toString (octetAt packet (offset + position)).toNat)
  .ofBytes (field 0 ++ [46] ++ field 1 ++ [46] ++ field 2 ++ [46] ++ field 3)

/-! ## One peer -/

/-- A peer after some work on it, and the actions taken. -/
abbrev Outcome := ManagedPeer × List Action

def Outcome.andThen (first : Outcome) (next : ManagedPeer → Outcome) : Outcome :=
  ((next first.1).1, first.2 ++ (next first.1).2)

/-- What is the same for every step of one event. -/
structure Context where
  crypto : Crypto
  nodePrivate : Key
  now : Int
  derpUp : Bool

namespace Context

variable (context : Context)

def sendPeerBytes (peer : ManagedPeer) (message : Bytes) : List Action :=
  match peerSockaddr peer with
  | some (address, port) => [.sent (.direct address port) message]
  | none => if context.derpUp then [.sent .derp message] else []

def sendDiscoPing (peer : ManagedPeer) : Outcome :=
  if peer.discoKey = .empty ∨ peer.endpoints = [] then (peer, [])
  else if context.now - peer.lastDiscoPing < 2000000 then (peer, [])
  else
    match fromHex 32 peer.discoKey with
    | none => ({ peer with lastDiscoPing := context.now }, [])
    | some _ => ({ peer with lastDiscoPing := context.now }, [.pinged peer.endpoints])

def probe (peer : ManagedPeer) : Outcome :=
  if peer.path.mode = .direct then (peer, []) else context.sendDiscoPing peer

def expire (peer : ManagedPeer) : Outcome :=
  let checked := peer.wg.expireIfStale context.now
  ({ peer with wg := checked.1 }, if checked.2 then [.expired] else [])

/-- `BuildInitiation` towards the peer's node key, sent when it was built. -/
def initiate (draw : Draw) (peer : ManagedPeer) : Outcome :=
  let built := peer.wg.buildInitiation context.crypto { draw with systemTime := context.now }
    context.nodePrivate peer.wg.nodeKey
  match built.2 with
  | some init =>
      ({ peer with wg := built.1, lastHandshake := context.now },
        .initiated built.1.senderIndex :: context.sendPeerBytes peer init)
  | none => ({ peer with wg := built.1 }, [])

def encapsulate (packet : Bytes) (peer : ManagedPeer) : Outcome :=
  let result := peer.wg.encapsulate context.crypto context.now packet
  match result.2 with
  | some message =>
      ({ peer with wg := result.1 },
        .sealed peer.wg.sendKey :: context.sendPeerBytes peer message)
  | none => ({ peer with wg := result.1 }, [])

def rekeyIfDue (draw : Draw) (peer : ManagedPeer) : Outcome :=
  if peer.wg.shouldInitiateRekey context.now then context.initiate draw peer else (peer, [])

/-- `_SendToPeer` after the expiry check. Without keys a handshake is started, at most every
five seconds, and the packet is dropped. -/
def transmit (packet : Bytes) (draw : Draw) (peer : ManagedPeer) : Outcome :=
  if peer.wg.hasKeys = false then
    if context.now - peer.lastHandshake > 5000000 then context.initiate draw peer else (peer, [])
  else (context.rekeyIfDue draw peer).andThen (context.encapsulate packet)

def sendToPeer (packet : Bytes) (draw : Draw) (peer : ManagedPeer) : Outcome :=
  ((context.probe peer).andThen context.expire).andThen (context.transmit packet draw)

/-- The loop body of `_MaintainPeers` after the expiry check. -/
def upkeep (draw : Draw) (peer : ManagedPeer) : Outcome :=
  if peer.wg.hasKeys = false then (peer, [])
  else if peer.wg.shouldInitiateRekey context.now then context.initiate draw peer
  else if peer.wg.shouldKeepalive context.now then context.encapsulate [] peer
  else (peer, [])

def maintainPeer (draw : Draw) (peer : ManagedPeer) : Outcome :=
  if peer.wg.hasKeys = false then (peer, [])
  else (context.expire peer).andThen (context.upkeep draw)

/-- The type-1 branch, on the peer the initiation is from. -/
def answer (msg : Bytes) (draw : Draw) (peer : ManagedPeer) : Outcome :=
  let result := peer.wg.answerInitiation context.crypto { draw with systemTime := context.now }
    context.nodePrivate msg
  match result.2 with
  | some response =>
      ({ peer with wg := result.1 },
        .installed result.1.senderIndex result.1.sendKey result.1.recvKey :: .answered msg ::
          context.sendPeerBytes peer response)
  | none => ({ peer with wg := result.1 }, [])

/-- The type-2 branch, on the peer whose index the response carries. -/
def consumeResponse (resp : Bytes) (peer : ManagedPeer) : Outcome :=
  let result := peer.wg.consumeResponse context.crypto context.now resp
  ({ peer with wg := result.1 },
    if result.2 then [.installed result.1.senderIndex result.1.sendKey result.1.recvKey] else [])

/-- The type-4 branch: only a non-empty packet reaches an open tun. -/
def receive (tunOpen : Bool) (datagram : Bytes) (peer : ManagedPeer) : Outcome :=
  let result := peer.wg.decapsulate context.crypto datagram
  match result.2 with
  | some packet =>
      ({ peer with wg := result.1 },
        if packet ≠ [] ∧ tunOpen = true then [.delivered peer.wg.recvKey packet] else [])
  | none => ({ peer with wg := result.1 }, [])

end Context

/-! ## The data plane -/

structure DataPlane where
  clock : Int := 0
  netmap : TSNetmap := {}
  set : TSPeerSet := {}
  derpUp : Bool := false
  tunOpen : Bool := false
  log : List Entry := []

inductive Event where
  | elapse (micros : Nat)
  | tunPacket (packet : Bytes) (draw : Draw)
  /-- One draw for each position of the walk. -/
  | tick (draws : Nat → Draw)
  | datagram (bytes : Bytes) (draw : Draw)
  /-- A pong that opened under our disco key, with the address it came from. -/
  | pong (sender : Key) (endpoint : Bytes)
  | mapResponse (json : Bytes)
  | derp (up : Bool)
  | tun (isOpen : Bool)

namespace DataPlane

variable (crypto : Crypto) (nodePrivate : Key)

def context (plane : DataPlane) : Context :=
  { crypto, nodePrivate, now := plane.clock, derpUp := plane.derpUp }

/-- Work on the peer a pointer refers to. -/
def updatePeer (plane : DataPlane) (position : Nat) (work : ManagedPeer → Outcome) : DataPlane :=
  match plane.set.peers[position]? with
  | none => plane
  | some peer =>
      let outcome := work peer
      { plane with
        set := { peers := plane.set.peers.set position outcome.1 }
        log := plane.log ++ outcome.2.map fun action =>
          { peer := peer.nodeKeyHex, time := plane.clock, action } }

def updateFound (plane : DataPlane) (found : Option Nat) (work : ManagedPeer → Outcome) :
    DataPlane :=
  match found with
  | some position => plane.updatePeer position work
  | none => plane

/-- The peer a packet read from the tun is routed to: IPv4 only. -/
def route (plane : DataPlane) (packet : Bytes) : Option Nat :=
  if packet.length < 20 ∨ octetAt packet 0 >>> 4 ≠ 4 then none
  else plane.set.findByAllowedIP (dottedQuad packet 16)

/-- The walk of `_MaintainPeers` over the positions. -/
def maintainPeers (draws : Nat → Draw) (plane : DataPlane) : DataPlane :=
  (List.range plane.set.peers.length).foldl
    (fun current position =>
      current.updatePeer position
        ((plane.context crypto nodePrivate).maintainPeer (draws position)))
    plane

def handleWireGuardPacket (bytes : Bytes) (draw : Draw) (plane : DataPlane) : DataPlane :=
  let context := plane.context crypto nodePrivate
  if bytes.length < 4 then plane
  else if octetAt bytes 0 = 1 ∧ bytes.length = 148 then
    match WGPeer.recoverInitiatorStatic crypto nodePrivate bytes with
    | none => plane
    | some peerStatic =>
        plane.updateFound (plane.set.find (toHex peerStatic.bytes)) (context.answer bytes draw)
  else if octetAt bytes 0 = 2 ∧ bytes.length = 92 then
    plane.updateFound (plane.set.findBySenderIndex (load32Le bytes 8))
      (context.consumeResponse bytes)
  else if octetAt bytes 0 = 4 ∧ 32 ≤ bytes.length then
    plane.updateFound (plane.set.findBySenderIndex (load32Le bytes 4))
      (context.receive plane.tunOpen bytes)
  else plane

def upgradePath (endpoint : Bytes) (now : Int) (peer : ManagedPeer) : Outcome :=
  ({ peer with path := peer.path.upgradeToDirect endpoint now }, [])

/-- `ApplyMapResponse`. `none` is the undefined behaviour of an overrun in `Update`. -/
def applyMapResponse (json : Bytes) (plane : DataPlane) : Option DataPlane :=
  match plane.netmap.parse json with
  | (false, _) => some plane
  | (true, netmap) =>
      (plane.set.update netmap).map fun updated => { plane with netmap, set := updated.1 }

def step (plane : DataPlane) : Event → Option DataPlane
  | .elapse micros => some { plane with clock := plane.clock + micros }
  | .tunPacket packet draw =>
      some (plane.updateFound (plane.route packet)
        ((plane.context crypto nodePrivate).sendToPeer packet draw))
  | .tick draws => some (plane.maintainPeers crypto nodePrivate draws)
  | .datagram bytes draw => some (plane.handleWireGuardPacket crypto nodePrivate bytes draw)
  | .pong sender endpoint =>
      some (plane.updateFound (plane.set.findByDiscoKey (toHex sender.bytes))
        (upgradePath endpoint plane.clock))
  | .mapResponse json => plane.applyMapResponse json
  | .derp up => some { plane with derpUp := up }
  | .tun isOpen => some { plane with tunOpen := isOpen }

/-- A run of events; undefined behaviour ends it. -/
def run (plane : DataPlane) (events : List Event) : Option DataPlane :=
  Run.runPartial (step crypto nodePrivate) plane events

end DataPlane

end Sotoportego.Tailscale
