import Sotoportego.WireGuard.Peer

/-!
# The WireGuard backend's reader thread

`WireGuardBackend::_PerformHandshake`, `_Encapsulate`, `_Decapsulate` and the two
loops of `_RunReaderLoop`, one iteration at a time. The socket, the tun device, the
clock and the stop flag are inputs of each iteration.
-/

set_option autoImplicit false

namespace Sotoportego.WireGuard

open Octets

structure Backend where
  privateKey : Key
  peerPublicKey : Key
  /-- `none` while `fHavePresharedKey` is false. -/
  presharedKey : Option Key
  ephemeralPrivate : Key := Buffer.zero 32
  ephemeralPublic : Key := Buffer.zero 32
  chainingKey : Key := Buffer.zero 32
  hash : Key := Buffer.zero 32
  senderIndex : UInt32 := 0
  receiverIndex : UInt32 := 0
  sendKey : Key := Buffer.zero 32
  recvKey : Key := Buffer.zero 32
  sendCounter : UInt64 := 0
  replay : ReplayWindow := {}

/-- What one handshake gets from outside: its draws, whether `send` took the whole
initiation, and what each `recv` returned (`none` for a timeout or an error). -/
structure Exchange where
  draw : Draw
  sent : Bool
  received : List (Option Bytes)

namespace Backend

/-- The loop that skips interleaved packets: the response, if one arrives within the
given number of tries. The receive buffer holds 256 bytes. -/
def awaitResponse : Nat → List (Option Bytes) → Option Bytes
  | 0, _ => none
  | _ + 1, [] => none
  | _ + 1, none :: _ => none
  | tries + 1, some datagram :: received =>
      let resp := datagram.take 256
      if resp.length = 0 then none
      else if resp.length = 92 ∧ octetAt resp 0 = 2 then some resp
      else awaitResponse tries received

/-- `_PerformHandshake` up to the initiation it hands to `send`. -/
def buildInitiation (crypto : Crypto) (exchange : Exchange) (backend : Backend) :
    Backend × Option Bytes :=
  match crypto.dhPublic backend.privateKey with
  | none => (backend, none)
  | some staticPub =>
    let ck := crypto.hash kConstruction
    let h := crypto.hash (ck.bytes ++ kIdentifier)
    let h := mixHash crypto h backend.peerPublicKey.bytes
    let backend := { backend with chainingKey := ck, hash := h }
    match exchange.draw.ephemeral with
    | none => (backend, none)
    | some (ephemeralPrivate, ephemeralPublic) =>
      let ck := kdf1 crypto ck ephemeralPublic.bytes
      let h := mixHash crypto h ephemeralPublic.bytes
      let backend :=
        { backend with ephemeralPrivate, ephemeralPublic, chainingKey := ck, hash := h }
      match crypto.dh ephemeralPrivate backend.peerPublicKey with
      | none => (backend, none)
      | some dh =>
        let (ck, key) := kdf2 crypto ck dh.bytes
        let backend := { backend with chainingKey := ck }
        match aeadEncrypt crypto key 0 staticPub.bytes h.bytes with
        | none => (backend, none)
        | some sealed =>
          let encStatic : Buffer 48 := slice 48 sealed 0
          let h := mixHash crypto h encStatic.bytes
          let backend := { backend with hash := h }
          match crypto.dh backend.privateKey backend.peerPublicKey with
          | none => (backend, none)
          | some dh =>
            let (ck, key) := kdf2 crypto ck dh.bytes
            let backend := { backend with chainingKey := ck }
            match aeadEncrypt crypto key 0 (tai64n exchange.draw.unixTime).bytes h.bytes with
            | none => (backend, none)
            | some sealed =>
              let encTs : Buffer 28 := slice 28 sealed 0
              let h := mixHash crypto h encTs.bytes
              let backend := { backend with hash := h }
              match exchange.draw.index with
              | none => (backend, none)
              | some senderIndex =>
                let front := [1, 0, 0, 0] ++ (store32Le senderIndex ++
                  (ephemeralPublic.bytes ++ (encStatic.bytes ++ encTs.bytes)))
                let mac1Key := crypto.hash (kLabelMac1 ++ backend.peerPublicKey.bytes)
                let mac1 := crypto.mac16 mac1Key front
                ({ backend with senderIndex },
                  some (front ++ (mac1.bytes ++ List.replicate 16 0)))

/-- `_PerformHandshake` from the response on. The receiver index is overwritten before
the response is authenticated. -/
def consumeResponse (crypto : Crypto) (resp : Bytes) (backend : Backend) : Backend × Bool :=
  if load32Le resp 8 ≠ backend.senderIndex then (backend, false)
  else
    let peerEphemeral : Key := slice 32 resp 12
    let encNothing : Buffer 16 := slice 16 resp 44
    let ck := kdf1 crypto backend.chainingKey peerEphemeral.bytes
    let h := mixHash crypto backend.hash peerEphemeral.bytes
    let backend :=
      { backend with receiverIndex := load32Le resp 4, chainingKey := ck, hash := h }
    match crypto.dh backend.ephemeralPrivate peerEphemeral with
    | none => (backend, false)
    | some dh =>
      let ck := kdf1 crypto ck dh.bytes
      let backend := { backend with chainingKey := ck }
      match crypto.dh backend.privateKey peerEphemeral with
      | none => (backend, false)
      | some dh =>
        let ck := kdf1 crypto ck dh.bytes
        let psk := backend.presharedKey.getD (Buffer.zero 32)
        let (ck, tau, key) := kdf3 crypto ck psk.bytes
        let h := mixHash crypto h tau.bytes
        let backend := { backend with chainingKey := ck, hash := h }
        match aeadDecrypt crypto key 0 encNothing.bytes h.bytes with
        | none => (backend, false)
        | some _ =>
          let h := mixHash crypto h encNothing.bytes
          let (sendKey, recvKey) := kdf2 crypto ck []
          ({ backend with hash := h, sendKey, recvKey }, true)

def performHandshake (crypto : Crypto) (exchange : Exchange) (backend : Backend) :
    Backend × Bool :=
  match backend.buildInitiation crypto exchange with
  | (backend, none) => (backend, false)
  | (backend, some _) =>
      if exchange.sent = false then (backend, false)
      else
        match awaitResponse 64 exchange.received with
        | none => (backend, false)
        | some resp => backend.consumeResponse crypto resp

/-- The message, or `none` where the source returns 0. -/
def encapsulate (crypto : Crypto) (backend : Backend) (plain : Bytes) :
    Backend × Option Bytes :=
  let padded := WGPeer.paddedLength plain.length
  if padded > 2048 then (backend, none)
  else
    let scratch := plain ++ List.replicate (padded - plain.length) 0
    match aeadEncrypt crypto backend.sendKey backend.sendCounter scratch [] with
    | none => (backend, none)
    | some cipher =>
        ({ backend with sendCounter := backend.sendCounter + 1 },
          some ([4, 0, 0, 0] ++ (store32Le backend.receiverIndex ++
            (store64Le backend.sendCounter ++ cipher))))

/-- Unlike the peer's copy, an unrecognised header keeps the whole plaintext. -/
def ipPacketLength (packet : Bytes) (maxLen : Nat) : Nat :=
  if maxLen = 0 then 0
  else
    let version := (octetAt packet 0) >>> 4
    if version = 4 ∧ maxLen ≥ 20 then
      min ((octetAt packet 2).toNat <<< 8 ||| (octetAt packet 3).toNat) maxLen
    else if version = 6 ∧ maxLen ≥ 40 then
      min (40 + ((octetAt packet 4).toNat <<< 8 ||| (octetAt packet 5).toNat)) maxLen
    else maxLen

def decapsulate (crypto : Crypto) (backend : Backend) (packet : Bytes) :
    Backend × Option Bytes :=
  if packet.length < 32 ∨ octetAt packet 0 ≠ 4 then (backend, none)
  else
    let counter := load64Le packet 8
    let cipher := packet.drop 16
    match aeadDecrypt crypto backend.recvKey counter cipher [] with
    | none => (backend, none)
    | some plain =>
        let (replay, fresh) := backend.replay.validate counter
        let backend := { backend with replay }
        if fresh = false then (backend, none)
        else (backend, some (plain.take (ipPacketLength plain (cipher.length - 16))))

end Backend

def kHandshakeAttempts : Nat := 3

inductive Output where
  | connected
  | datagram (bytes : Bytes)
  | tunWrite (packet : Bytes)
  | stats (bytesIn bytesOut : UInt64)
  | exited (detail : String)

inductive Phase where
  | handshaking (attempt : Nat)
  | running
  | exited

structure Reader where
  backend : Backend
  phase : Phase := .handshaking 0
  /-- In microseconds; 0 disables keepalives. -/
  keepalive : Int
  lastSend : Int := 0
  lastStats : Int := 0
  handshakeTime : Int := 0
  bytesIn : UInt64 := 0
  bytesOut : UInt64 := 0
  outputs : List Output := []

/-- One iteration of the handshake loop. `startTime` is read only when it succeeds. -/
structure Attempt where
  stopRequested : Bool
  exchange : Exchange
  startTime : Int

/-- The outcome of `select`; a readable descriptor comes with the bytes then read
from it, and `none` covers one that is not readable or gives nothing. -/
inductive Select where
  | interrupted
  | failed
  | ready (tun udp : Option Bytes)

/-- One iteration of the transport loop. -/
structure Round where
  stopRequested : Bool
  select : Select
  /-- Whether `send` took the whole tun packet, and the clock read after it. -/
  tunSent : Bool
  sendTime : Int
  now : Int
  stopAtRekey : Bool
  exchange : Exchange
  rekeyTime : Int

namespace Reader

def emit (reader : Reader) (output : Output) : Reader :=
  { reader with outputs := reader.outputs ++ [output] }

/-- The initiation a handshake puts on the wire. -/
def emitInitiation (crypto : Crypto) (exchange : Exchange) (reader : Reader) : Reader :=
  match (reader.backend.buildInitiation crypto exchange).2 with
  | none => reader
  | some msg => reader.emit (.datagram msg)

/-- Both callers of a successful `_PerformHandshake` reset the counter and window. -/
def startSession (reader : Reader) (backend : Backend) (time : Int) : Reader :=
  { reader with
    backend := { backend with sendCounter := 0, replay := {} }
    handshakeTime := time
    lastSend := time }

def attempt (crypto : Crypto) (input : Attempt) (count : Nat) (reader : Reader) : Reader :=
  if count < kHandshakeAttempts ∧ input.stopRequested = false then
    let handshake := reader.backend.performHandshake crypto input.exchange
    let reader := reader.emitInitiation crypto input.exchange
    match handshake with
    | (backend, true) =>
        { reader.startSession backend input.startTime with
          phase := .running, lastStats := input.startTime }.emit .connected
    | (backend, false) => { reader with backend, phase := .handshaking (count + 1) }
  else
    { reader with phase := .exited }.emit
      (.exited (if input.stopRequested = true then "" else "handshake failed"))

/-- Outbound: tun, encrypt, UDP; at most 1500 bytes are read. -/
def forwardTun (crypto : Crypto) (round : Round) (plain : Bytes) (reader : Reader) :
    Reader × Option Bytes :=
  let plain := plain.take 1500
  if plain.length = 0 then (reader, none)
  else
    match reader.backend.encapsulate crypto plain with
    | (backend, none) => ({ reader with backend }, none)
    | (backend, some wire) =>
        let reader := { reader with backend }.emit (.datagram wire)
        if round.tunSent = true then
          ({ reader with
              bytesOut := reader.bytesOut + plain.length.toUInt64
              lastSend := round.sendTime },
            some wire)
        else (reader, some wire)

/-- Inbound: UDP, decrypt, tun. -/
def forwardUdp (crypto : Crypto) (wire : Bytes) (reader : Reader) : Reader :=
  let wire := wire.take 2048
  if wire.length = 0 then reader
  else
    match reader.backend.decapsulate crypto wire with
    | (backend, none) => { reader with backend }
    | (backend, some plain) =>
        let reader := { reader with backend }
        if plain.length > 0 then
          { reader with bytesIn := reader.bytesIn + plain.length.toUInt64 }.emit (.tunWrite plain)
        else reader

def sendKeepalive (crypto : Crypto) (now : Int) (reader : Reader) : Reader × Option Bytes :=
  if reader.keepalive > 0 ∧ now - reader.lastSend ≥ reader.keepalive then
    match reader.backend.encapsulate crypto [] with
    | (backend, none) => ({ reader with backend, lastSend := now }, none)
    | (backend, some wire) =>
        ({ reader with backend, lastSend := now }.emit (.datagram wire), some wire)
  else (reader, none)

def report (now : Int) (reader : Reader) : Reader :=
  if now - reader.lastStats ≥ 1000000 then
    { reader with lastStats := now }.emit (.stats reader.bytesIn reader.bytesOut)
  else reader

/-- The rekey at the end of an iteration, with whether new keys were installed. -/
def rekey (crypto : Crypto) (round : Round) (reader : Reader) : Reader × Bool :=
  if round.now - reader.handshakeTime ≥ kRekeyAfterTime ∧ round.stopAtRekey = false then
    let handshake := reader.backend.performHandshake crypto round.exchange
    let reader := reader.emitInitiation crypto round.exchange
    match handshake with
    | (backend, true) => (reader.startSession backend round.rekeyTime, true)
    | (backend, false) =>
        if round.now - reader.handshakeTime ≥ kRejectAfterTime then
          ({ reader with backend, phase := .exited }.emit (.exited ""), false)
        else ({ reader with backend }, false)
  else (reader, false)

def forwardTunReady (crypto : Crypto) (round : Round) (tun : Option Bytes) (reader : Reader) :
    Reader × Option Bytes :=
  match tun with
  | none => (reader, none)
  | some plain => reader.forwardTun crypto round plain

def forwardUdpReady (crypto : Crypto) (udp : Option Bytes) (reader : Reader) : Reader :=
  match udp with
  | none => reader
  | some wire => reader.forwardUdp crypto wire

def round (crypto : Crypto) (input : Round) (reader : Reader) : Reader :=
  if input.stopRequested = true then { reader with phase := .exited }.emit (.exited "")
  else
    match input.select with
    | .interrupted => reader
    | .failed => { reader with phase := .exited }.emit (.exited "")
    | .ready tun udp =>
        let reader := (reader.forwardTunReady crypto input tun).1
        let reader := reader.forwardUdpReady crypto udp
        let reader := (reader.sendKeepalive crypto input.now).1
        let reader := reader.report input.now
        (reader.rekey crypto input).1

inductive Event where
  | attempt (input : Attempt)
  | round (input : Round)

/-- An event that the current phase does not wait for changes nothing. -/
def step (crypto : Crypto) (reader : Reader) : Event → Reader
  | .attempt input =>
      match reader.phase with
      | .handshaking count => reader.attempt crypto input count
      | _ => reader
  | .round input =>
      match reader.phase with
      | .running => reader.round crypto input
      | _ => reader

end Reader

end Sotoportego.WireGuard
