import Sotoportego.Lib.Run
import Sotoportego.Lib.SealLog
import Sotoportego.WireGuard.Backend

/-!
# What has been mixed into the keys

A peer, or the backend's reader, together with the transcripts it installed keys
from and the (send key, counter) pair of every encapsulation. The records only
observe: the peer and the reader take their own steps unchanged.
-/

set_option autoImplicit false

namespace Sotoportego.WireGuard

open Octets

/-- The inputs mixed by `Kdf1`, `Kdf2` and `Kdf3` since the chaining key was last set
to `HASH(construction)`, or since the constructor zeroed it. -/
structure Transcript where
  rooted : Bool := false
  inputs : List Bytes := []
  deriving DecidableEq

namespace Transcript

def chain (crypto : Crypto) (transcript : Transcript) : Key :=
  transcript.inputs.foldl (kdf1 crypto)
    (if transcript.rooted = true then crypto.hash kConstruction else Buffer.zero 32)

def extend (transcript : Transcript) (inputs : List Bytes) : Transcript :=
  { transcript with inputs := transcript.inputs ++ inputs }

end Transcript

inductive Role where
  | initiator
  | responder
  deriving DecidableEq

/-- The send key `Kdf2` gives each role at the end of a transcript. -/
def transportKey (crypto : Crypto) (session : Role × Transcript) : Key :=
  match session.1 with
  | .initiator => (kdf2 crypto (session.2.chain crypto) []).1
  | .responder => (kdf2 crypto (session.2.chain crypto) []).2

namespace WGPeer

/-- What `BuildInitiation` mixes once its own public key is known. -/
def initiationInputs (crypto : Crypto) (draw : Draw) (ourPriv peerPub staticPub : Key) :
    List Bytes :=
  match draw.ephemeral with
  | none => []
  | some (ephemeralPriv, ephemeralPub) =>
      match crypto.dh ephemeralPriv peerPub with
      | none => [ephemeralPub.bytes]
      | some es =>
          let ck := kdf1 crypto (crypto.hash kConstruction) ephemeralPub.bytes
          let h := crypto.hash ((crypto.hash kConstruction).bytes ++ kIdentifier)
          let h := mixHash crypto (mixHash crypto h peerPub.bytes) ephemeralPub.bytes
          match aeadEncrypt crypto (kdf2 crypto ck es.bytes).2 0 staticPub.bytes h.bytes,
            crypto.dh ourPriv peerPub with
          | some _, some ss => [ephemeralPub.bytes, es.bytes, ss.bytes]
          | _, _ => [ephemeralPub.bytes, es.bytes]

/-- What either side mixes for the response: the responder's ephemeral, then ee, se
and the zero preshared key as far as the exchanges succeed. -/
def exchangeInputs (ephemeral : Key) (ee se : Option Key) : List Bytes :=
  match ee, se with
  | none, _ => [ephemeral.bytes]
  | some ee, none => [ephemeral.bytes, ee.bytes]
  | some ee, some se => [ephemeral.bytes, ee.bytes, se.bytes, (Buffer.zero 32).bytes]

end WGPeer

structure Observed where
  peer : WGPeer := {}
  transcript : Transcript := {}
  /-- Whether the peer drew an ephemeral of its own since the chaining key was last
  set from outside or reset without one. -/
  armed : Bool := true
  sessions : SealLog.Machine (Role × Transcript) := {}
  sealed : List (Key × UInt64) := []

namespace Observed

inductive Call where
  | buildInitiation (draw : Draw) (ourPriv peerPub : Key)
  | consumeInitiation (ourPriv : Key) (msg : Bytes)
  | buildResponse (draw : Draw)
  | consumeResponse (systemTime : Int) (resp : Bytes)
  | encapsulate (systemTime : Int) (plain : Bytes)
  | decapsulate (packet : Bytes)
  | expireIfStale (now : Int)

def install (observed : Observed) (role : Role) : SealLog.Machine (Role × Transcript) :=
  observed.sessions.install (role, observed.transcript)

def step (crypto : Crypto) (observed : Observed) : Call → Observed
  | .buildInitiation draw ourPriv peerPub =>
      let peer := (observed.peer.buildInitiation crypto draw ourPriv peerPub).1
      match crypto.dhPublic ourPriv with
      | none => { observed with peer }
      | some staticPub =>
          { observed with
            peer
            transcript := {
              rooted := true
              inputs := WGPeer.initiationInputs crypto draw ourPriv peerPub staticPub }
            armed := draw.ephemeral.isSome }
  | .consumeInitiation ourPriv msg =>
      let peer := (observed.peer.consumeInitiation crypto ourPriv msg).1
      match WGPeer.responderConsume crypto ourPriv msg with
      | none => { observed with peer }
      | some consumed =>
          { observed with
            peer
            transcript := {
              rooted := true
              inputs := [consumed.peerEphemeral.bytes,
                ((crypto.dh ourPriv consumed.peerEphemeral).getD (Buffer.zero 32)).bytes,
                ((crypto.dh ourPriv consumed.initiatorStatic).getD (Buffer.zero 32)).bytes] }
            armed := false }
  | .buildResponse draw =>
      let (peer, resp) := observed.peer.buildResponse crypto draw
      match draw.ephemeral with
      | none => { observed with peer }
      | some (ephemeralPriv, ephemeralPub) =>
          let observed := { observed with
            peer
            transcript := observed.transcript.extend (WGPeer.exchangeInputs ephemeralPub
              (crypto.dh ephemeralPriv observed.peer.peerEphemeral)
              (crypto.dh ephemeralPriv observed.peer.peerStatic))
            armed := true }
          if resp.isSome = true then { observed with sessions := observed.install .responder }
          else observed
  | .consumeResponse systemTime resp =>
      let (peer, completed) := observed.peer.consumeResponse crypto systemTime resp
      if resp.length ≠ 92 ∨ octetAt resp 0 ≠ 2 ∨ load32Le resp 8 ≠ observed.peer.senderIndex then
        { observed with peer }
      else
        let ephemeral : Key := slice 32 resp 12
        let observed := { observed with
          peer
          transcript := observed.transcript.extend (WGPeer.exchangeInputs ephemeral
            (crypto.dh observed.peer.ephemeralPriv ephemeral)
            (crypto.dh observed.peer.ourPriv ephemeral)) }
        if completed = true then { observed with sessions := observed.install .initiator }
        else observed
  | .encapsulate systemTime plain =>
      let (peer, datagram) := observed.peer.encapsulate crypto systemTime plain
      if datagram.isSome = true then
        { observed with
          peer
          sessions := observed.sessions.send
          sealed := observed.sealed ++ [(observed.peer.sendKey, observed.peer.sendCounter)] }
      else { observed with peer }
  | .decapsulate packet =>
      { observed with peer := (observed.peer.decapsulate crypto packet).1 }
  | .expireIfStale now => { observed with peer := (observed.peer.expireIfStale now).1 }

def run (crypto : Crypto) (calls : List Call) : Observed :=
  Run.run (step crypto) {} calls

/-- An ephemeral that no installed transcript contains. -/
def Fresh (observed : Observed) (draw : Draw) : Prop :=
  ∀ pair, draw.ephemeral = some pair →
    ∀ session ∈ observed.sessions.installed, pair.2.bytes ∉ session.2.inputs

/-- Fresh ephemerals, and no response consumed between an accepted initiation and the
ephemeral drawn to answer it. -/
def Allowed (observed : Observed) : Call → Prop
  | .buildInitiation draw _ _ => observed.Fresh draw
  | .consumeInitiation _ _ => True
  | .buildResponse draw => observed.Fresh draw
  | .consumeResponse _ _ => observed.armed = true
  | .encapsulate _ _ => True
  | .decapsulate _ => True
  | .expireIfStale _ => True

end Observed

/-- What a handshake of the backend mixes when it succeeds. -/
def Backend.transcript (crypto : Crypto) (exchange : Exchange) (backend : Backend) : Transcript :=
  let shared (priv pub : Key) : Bytes := ((crypto.dh priv pub).getD (Buffer.zero 32)).bytes
  match exchange.draw.ephemeral, awaitResponse 64 exchange.received with
  | some (ephemeralPrivate, ephemeralPublic), some resp =>
      let peerEphemeral : Key := slice 32 resp 12
      { rooted := true
        inputs := [ephemeralPublic.bytes, shared ephemeralPrivate backend.peerPublicKey,
          shared backend.privateKey backend.peerPublicKey, peerEphemeral.bytes,
          shared ephemeralPrivate peerEphemeral, shared backend.privateKey peerEphemeral,
          (backend.presharedKey.getD (Buffer.zero 32)).bytes] }
  | _, _ => {}

structure ObservedReader where
  reader : Reader
  sessions : SealLog.Machine (Role × Transcript) := {}
  sealed : List (Key × UInt64) := []

namespace ObservedReader

def move (observed : ObservedReader) (reader : Reader) : ObservedReader :=
  { observed with reader }

/-- Records an encapsulation under the keys the reader held before it. -/
def sent (observed : ObservedReader) (result : Reader × Option Bytes) : ObservedReader :=
  if result.2.isSome = true then
    { reader := result.1
      sessions := observed.sessions.send
      sealed := observed.sealed ++
        [(observed.reader.backend.sendKey, observed.reader.backend.sendCounter)] }
  else observed.move result.1

def keyed (crypto : Crypto) (exchange : Exchange) (observed : ObservedReader)
    (result : Reader × Bool) : ObservedReader :=
  if result.2 = true then
    { observed with
      reader := result.1
      sessions := observed.sessions.install
        (.initiator, observed.reader.backend.transcript crypto exchange) }
  else observed.move result.1

def attempt (crypto : Crypto) (input : Attempt) (count : Nat) (observed : ObservedReader) :
    ObservedReader :=
  observed.keyed crypto input.exchange (observed.reader.attempt crypto input count,
    decide (count < kHandshakeAttempts) && !input.stopRequested &&
      (observed.reader.backend.performHandshake crypto input.exchange).2)

/-- `Reader.round`, stage by stage. -/
def round (crypto : Crypto) (input : Round) (observed : ObservedReader) : ObservedReader :=
  if input.stopRequested = true then observed.move (observed.reader.round crypto input)
  else
    match input.select with
    | .interrupted => observed.move (observed.reader.round crypto input)
    | .failed => observed.move (observed.reader.round crypto input)
    | .ready tun udp =>
        let observed := observed.sent (observed.reader.forwardTunReady crypto input tun)
        let observed := observed.move (observed.reader.forwardUdpReady crypto udp)
        let observed := observed.sent (observed.reader.sendKeepalive crypto input.now)
        let observed := observed.move (observed.reader.report input.now)
        observed.keyed crypto input.exchange (observed.reader.rekey crypto input)

def step (crypto : Crypto) (observed : ObservedReader) : Reader.Event → ObservedReader
  | .attempt input =>
      match observed.reader.phase with
      | .handshaking count => observed.attempt crypto input count
      | _ => observed
  | .round input =>
      match observed.reader.phase with
      | .running => observed.round crypto input
      | _ => observed

def run (crypto : Crypto) (reader : Reader) (events : List Reader.Event) : ObservedReader :=
  Run.run (step crypto) { reader } events

/-- The exchange an event may run. -/
def exchange : Reader.Event → Exchange
  | .attempt input => input.exchange
  | .round input => input.exchange

def Allowed (observed : ObservedReader) (event : Reader.Event) : Prop :=
  ∀ pair, (exchange event).draw.ephemeral = some pair →
    ∀ session ∈ observed.sessions.installed, pair.2.bytes ∉ session.2.inputs

end ObservedReader

end Sotoportego.WireGuard
