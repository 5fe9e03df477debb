import Sotoportego.WireGuard.Backend
import Sotoportego.WireGuard.Channel

/-!
# A backend and a peer object

`WireGuardBackend` and `ts::WGPeer` are two implementations of one protocol. What their packets
depend on is an `Endpoint`, and they meet here over a network that may lose, repeat and
reorder datagrams and bring in others.
-/

set_option autoImplicit false

namespace Sotoportego.WireGuard

open Octets

/-- The fields of either implementation that its packets depend on. -/
structure Endpoint where
  ephemeralPriv : Key
  ephemeralPub : Key
  chainingKey : Key
  hash : Key
  senderIndex : UInt32
  receiverIndex : UInt32
  sendKey : Key
  recvKey : Key
  sendCounter : UInt64
  replay : ReplayWindow

def Backend.endpoint (backend : Backend) : Endpoint where
  ephemeralPriv := backend.ephemeralPrivate
  ephemeralPub := backend.ephemeralPublic
  chainingKey := backend.chainingKey
  hash := backend.hash
  senderIndex := backend.senderIndex
  receiverIndex := backend.receiverIndex
  sendKey := backend.sendKey
  recvKey := backend.recvKey
  sendCounter := backend.sendCounter
  replay := backend.replay

def WGPeer.endpoint (peer : WGPeer) : Endpoint where
  ephemeralPriv := peer.ephemeralPriv
  ephemeralPub := peer.ephemeralPub
  chainingKey := peer.chainingKey
  hash := peer.hash
  senderIndex := peer.senderIndex
  receiverIndex := peer.receiverIndex
  sendKey := peer.sendKey
  recvKey := peer.recvKey
  sendCounter := peer.sendCounter
  replay := peer.replay

/-- A peer object in the state of a backend. -/
def Backend.asPeer (backend : Backend) : WGPeer where
  hasKeys := true
  sendKey := backend.sendKey
  recvKey := backend.recvKey
  receiverIndex := backend.receiverIndex
  sendCounter := backend.sendCounter
  replay := backend.replay
  ephemeralPriv := backend.ephemeralPrivate
  ephemeralPub := backend.ephemeralPublic
  chainingKey := backend.chainingKey
  hash := backend.hash
  senderIndex := backend.senderIndex

/-! ## One call on either -/

inductive Call where
  | handshake (exchange : Exchange)
  | send (plain : Bytes)
  | receive (packet : Bytes)

/-- What a call gives out: the initiation, a message or a packet, and whether it succeeded. -/
structure Given where
  out : Option Bytes
  success : Bool
  deriving DecidableEq

/-- A successful `_PerformHandshake`, with the counter and the window that its callers reset. -/
def Backend.call (crypto : Crypto) (backend : Backend) : Call → Backend × Given
  | .handshake exchange =>
      let out := (backend.buildInitiation crypto exchange).2
      match backend.performHandshake crypto exchange with
      | (backend, true) => ({ backend with sendCounter := 0, replay := {} }, ⟨out, true⟩)
      | (backend, false) => (backend, ⟨out, false⟩)
  | .send plain =>
      let (backend, out) := backend.encapsulate crypto plain
      (backend, ⟨out, out.isSome⟩)
  | .receive packet =>
      let (backend, out) := backend.decapsulate crypto packet
      (backend, ⟨out, out.isSome⟩)

/-- The same handshake on a peer object: the response is the one that the backend waits for. -/
def WGPeer.handshake (crypto : Crypto) (ourPriv peerPub : Key) (exchange : Exchange)
    (peer : WGPeer) : WGPeer × Given :=
  match peer.buildInitiation crypto exchange.draw ourPriv peerPub with
  | (peer, none) => (peer, ⟨none, false⟩)
  | (peer, some msg) =>
      if exchange.sent = false then (peer, ⟨some msg, false⟩)
      else
        match Backend.awaitResponse 64 exchange.received with
        | none => (peer, ⟨some msg, false⟩)
        | some resp =>
            let (peer, done) := peer.consumeResponse crypto exchange.draw.systemTime resp
            (peer, ⟨some msg, done⟩)

def WGPeer.call (crypto : Crypto) (ourPriv peerPub : Key) (systemTime : Int) (peer : WGPeer) :
    Call → WGPeer × Given
  | .handshake exchange => peer.handshake crypto ourPriv peerPub exchange
  | .send plain =>
      let (peer, out) := peer.encapsulate crypto systemTime plain
      (peer, ⟨out, out.isSome⟩)
  | .receive packet =>
      let (peer, out) := peer.decapsulate crypto packet
      (peer, ⟨out, out.isSome⟩)

/-- A backend and a peer object under the same calls, and what each of them gives out. -/
structure Twins where
  backend : Backend
  peer : WGPeer
  fromBackend : List Given := []
  fromPeer : List Given := []

def Twins.step (crypto : Crypto) (twins : Twins) (call : Int × Call) : Twins :=
  let (backend, first) := twins.backend.call crypto call.2
  let (peer, second) := twins.peer.call crypto twins.backend.privateKey
    twins.backend.peerPublicKey call.1 call.2
  ⟨backend, peer, twins.fromBackend ++ [first], twins.fromPeer ++ [second]⟩

/-! ## A session between them -/

/-- Packets with the datagrams made from them, each way, and what became of the datagrams that
arrived. -/
structure Duplex where
  backend : Backend
  peer : WGPeer
  up : List (Bytes × Bytes) := []
  down : List (Bytes × Bytes) := []
  upReturned : List (Nat × Option Bytes) := []
  downReturned : List (Nat × Option Bytes) := []
  /-- What became of the datagrams that neither of them sent. -/
  strays : List (Option Bytes) := []

namespace Duplex

inductive Event where
  | sendUp (packet : Bytes)
  | sendDown (systemTime : Int) (packet : Bytes)
  | deliverUp (number : Nat)
  | deliverDown (number : Nat)
  /-- A datagram of somebody else arrives. -/
  | injectUp (datagram : Bytes)
  | injectDown (datagram : Bytes)

def step (crypto : Crypto) (duplex : Duplex) : Event → Duplex
  | .sendUp packet =>
      match duplex.backend.encapsulate crypto packet with
      | (backend, none) => { duplex with backend }
      | (backend, some datagram) =>
          { duplex with backend, up := duplex.up ++ [(packet, datagram)] }
  | .sendDown systemTime packet =>
      match duplex.peer.encapsulate crypto systemTime packet with
      | (peer, none) => { duplex with peer }
      | (peer, some datagram) =>
          { duplex with peer, down := duplex.down ++ [(packet, datagram)] }
  | .deliverUp number =>
      match duplex.up[number]? with
      | none => duplex
      | some (_, datagram) =>
          let (peer, out) := duplex.peer.decapsulate crypto datagram
          { duplex with peer, upReturned := duplex.upReturned ++ [(number, out)] }
  | .deliverDown number =>
      match duplex.down[number]? with
      | none => duplex
      | some (_, datagram) =>
          let (backend, out) := duplex.backend.decapsulate crypto datagram
          { duplex with backend, downReturned := duplex.downReturned ++ [(number, out)] }
  | .injectUp datagram =>
      let (peer, out) := duplex.peer.decapsulate crypto datagram
      { duplex with peer, strays := duplex.strays ++ [out] }
  | .injectDown datagram =>
      let (backend, out) := duplex.backend.decapsulate crypto datagram
      { duplex with backend, strays := duplex.strays ++ [out] }

def run (crypto : Crypto) (duplex : Duplex) (events : List Event) : Duplex :=
  Run.run (step crypto) duplex events

end Duplex

end Sotoportego.WireGuard
