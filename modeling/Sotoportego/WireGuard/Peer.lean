import Sotoportego.WireGuard.Replay

/-!
# One WireGuard peer

`ts::WGPeer`: the Noise IKpsk2 handshake in both roles, the type-4 transport
framing and the session timers, as functions on the object's fields. A function that
returns early keeps the fields it had already written.
-/

set_option autoImplicit false

namespace Sotoportego.WireGuard

open Octets

/-! The session timers, in microseconds. -/

def kRekeyAfterTime : Int := 120 * 1000000
def kRejectAfterTime : Int := 180 * 1000000
def kRekeyTimeout : Int := 5 * 1000000
def kKeepaliveTimeout : Int := 25 * 1000000

def kConstruction : Bytes := ascii "Noise_IKpsk2_25519_ChaChaPoly_BLAKE2s"
def kIdentifier : Bytes := ascii "WireGuard v1 zx2c4 Jason@zx2c4.com"
def kLabelMac1 : Bytes := ascii "mac1----"

structure WGPeer where
  nodeKey : Key := Buffer.zero 32
  sendKey : Key := Buffer.zero 32
  recvKey : Key := Buffer.zero 32
  hasKeys : Bool := false
  receiverIndex : UInt32 := 0
  sendCounter : UInt64 := 0
  /-- `fReplayCounter` and `fReplayBitmap`. -/
  replay : ReplayWindow := {}
  ourPriv : Key := Buffer.zero 32
  peerStatic : Key := Buffer.zero 32
  ephemeralPriv : Key := Buffer.zero 32
  ephemeralPub : Key := Buffer.zero 32
  /-- Responder: the initiator's ephemeral. -/
  peerEphemeral : Key := Buffer.zero 32
  chainingKey : Key := Buffer.zero 32
  hash : Key := Buffer.zero 32
  senderIndex : UInt32 := 0
  /-- Responder: the initiator's index. -/
  pendingReceiverIndex : UInt32 := 0
  established : Int := 0
  lastInitiation : Int := 0
  lastSend : Int := 0
  /-- Zero selects the system clock. -/
  testClock : Int := 0
  txBytes : UInt64 := 0
  rxBytes : UInt64 := 0

/-- What one handshake call obtains from outside: `DhGenerate`, `RandomBytes`,
`time(NULL)` and `system_time()`. -/
structure Draw where
  ephemeral : Option (Key × Key)
  index : Option UInt32
  unixTime : UInt64
  systemTime : Int

namespace WGPeer

def now (peer : WGPeer) (systemTime : Int) : Int :=
  if peer.testClock ≠ 0 then peer.testClock else systemTime

def setNodeKey (peer : WGPeer) (nodeKey : Key) : WGPeer :=
  { peer with nodeKey }

def resetReplay (peer : WGPeer) : WGPeer :=
  { peer with replay := {} }

def setTransport (peer : WGPeer) (systemTime : Int) (sendKey recvKey : Key)
    (receiverIndex : UInt32) : WGPeer :=
  let established := peer.now systemTime
  resetReplay { peer with
    sendKey, recvKey, receiverIndex, sendCounter := 0, hasKeys := true
    established, lastSend := established }

/-! ## Transport -/

/-- The length field of the IP header, capped at the decrypted length; 0 for
anything that is not IPv4 or IPv6. -/
def ipPacketLength (packet : Bytes) (maxLen : Nat) : Nat :=
  if maxLen = 0 then 0
  else
    let version := (octetAt packet 0) >>> 4
    if version = 4 ∧ maxLen ≥ 20 then
      min ((octetAt packet 2).toNat <<< 8 ||| (octetAt packet 3).toNat) maxLen
    else if version = 6 ∧ maxLen ≥ 40 then
      min (40 + ((octetAt packet 4).toNat <<< 8 ||| (octetAt packet 5).toNat)) maxLen
    else 0

/-- `(plainLen + 15) & ~15`. -/
def paddedLength (plainLen : Nat) : Nat :=
  (plainLen + 15) / 16 * 16

/-- The message, or `none` where the source returns 0. -/
def encapsulate (crypto : Crypto) (systemTime : Int) (peer : WGPeer) (plain : Bytes) :
    WGPeer × Option Bytes :=
  if peer.hasKeys = false then (peer, none)
  else
    let padded := paddedLength plain.length
    if padded > 2048 then (peer, none)
    else
      let scratch := plain ++ List.replicate (padded - plain.length) 0
      match aeadEncrypt crypto peer.sendKey peer.sendCounter scratch [] with
      | none => (peer, none)
      | some cipher =>
          ({ peer with
              sendCounter := peer.sendCounter + 1
              lastSend := peer.now systemTime
              txBytes := peer.txBytes + plain.length.toUInt64 },
            some ([4, 0, 0, 0] ++ (store32Le peer.receiverIndex ++
              (store64Le peer.sendCounter ++ cipher))))

/-- The decrypted IP packet (empty for a keepalive), or `none` where the source
returns -1. Anti-replay runs only once the tag has verified. -/
def decapsulate (crypto : Crypto) (peer : WGPeer) (packet : Bytes) : WGPeer × Option Bytes :=
  if peer.hasKeys = false ∨ packet.length < 32 ∨ octetAt packet 0 ≠ 4 then (peer, none)
  else
    let counter := load64Le packet 8
    let cipher := packet.drop 16
    match aeadDecrypt crypto peer.recvKey counter cipher [] with
    | none => (peer, none)
    | some plain =>
        let (replay, fresh) := peer.replay.validate counter
        let peer := { peer with replay }
        if fresh = false then (peer, none)
        else
          let appLen := ipPacketLength plain (cipher.length - 16)
          let peer :=
            if appLen > 0 then { peer with rxBytes := peer.rxBytes + appLen.toUInt64 } else peer
          (peer, some (plain.take appLen))

/-! ## Handshake, initiator -/

def buildInitiation (crypto : Crypto) (draw : Draw) (peer : WGPeer) (ourPriv peerPub : Key) :
    WGPeer × Option Bytes :=
  let peer := { peer with ourPriv, peerStatic := peerPub }
  match crypto.dhPublic peer.ourPriv with
  | none => (peer, none)
  | some staticPub =>
    let ck := crypto.hash kConstruction
    let h := crypto.hash (ck.bytes ++ kIdentifier)
    let h := mixHash crypto h peer.peerStatic.bytes
    let peer := { peer with chainingKey := ck, hash := h }
    match draw.ephemeral with
    | none => (peer, none)
    | some (ephemeralPriv, ephemeralPub) =>
      let ck := kdf1 crypto ck ephemeralPub.bytes
      let h := mixHash crypto h ephemeralPub.bytes
      let peer := { peer with ephemeralPriv, ephemeralPub, chainingKey := ck, hash := h }
      match crypto.dh ephemeralPriv peer.peerStatic with
      | none => (peer, none)
      | some dh =>
        let (ck, key) := kdf2 crypto ck dh.bytes
        let peer := { peer with chainingKey := ck }
        match aeadEncrypt crypto key 0 staticPub.bytes h.bytes with
        | none => (peer, none)
        | some sealed =>
          let encStatic : Buffer 48 := slice 48 sealed 0
          let h := mixHash crypto h encStatic.bytes
          let peer := { peer with hash := h }
          match crypto.dh peer.ourPriv peer.peerStatic with
          | none => (peer, none)
          | some dh =>
            let (ck, key) := kdf2 crypto ck dh.bytes
            let peer := { peer with chainingKey := ck }
            match aeadEncrypt crypto key 0 (tai64n draw.unixTime).bytes h.bytes with
            | none => (peer, none)
            | some sealed =>
              let encTs : Buffer 28 := slice 28 sealed 0
              let h := mixHash crypto h encTs.bytes
              let peer := { peer with hash := h }
              match draw.index with
              | none => (peer, none)
              | some senderIndex =>
                let front := [1, 0, 0, 0] ++ (store32Le senderIndex ++
                  (ephemeralPub.bytes ++ (encStatic.bytes ++ encTs.bytes)))
                let mac1Key := crypto.hash (kLabelMac1 ++ peer.peerStatic.bytes)
                let mac1 := crypto.mac16 mac1Key front
                ({ peer with senderIndex, lastInitiation := peer.now draw.systemTime },
                  some (front ++ (mac1.bytes ++ List.replicate 16 0)))

/-- `true` once the response authenticated and its keys are installed. The
chaining key and hash advance in place before the tag is checked. -/
def consumeResponse (crypto : Crypto) (systemTime : Int) (peer : WGPeer) (resp : Bytes) :
    WGPeer × Bool :=
  if resp.length ≠ 92 ∨ octetAt resp 0 ≠ 2 then (peer, false)
  else if load32Le resp 8 ≠ peer.senderIndex then (peer, false)
  else
    let receiverIndex := load32Le resp 4
    let peerEphemeral : Key := slice 32 resp 12
    let encNothing : Buffer 16 := slice 16 resp 44
    let ck := kdf1 crypto peer.chainingKey peerEphemeral.bytes
    let h := mixHash crypto peer.hash peerEphemeral.bytes
    let peer := { peer with chainingKey := ck, hash := h }
    match crypto.dh peer.ephemeralPriv peerEphemeral with
    | none => (peer, false)
    | some dh =>
      let ck := kdf1 crypto ck dh.bytes
      let peer := { peer with chainingKey := ck }
      match crypto.dh peer.ourPriv peerEphemeral with
      | none => (peer, false)
      | some dh =>
        let ck := kdf1 crypto ck dh.bytes
        -- No preshared key for Tailscale peers.
        let (ck, tau, key) := kdf3 crypto ck (Buffer.zero 32).bytes
        let h := mixHash crypto h tau.bytes
        let peer := { peer with chainingKey := ck, hash := h }
        match aeadDecrypt crypto key 0 encNothing.bytes h.bytes with
        | none => (peer, false)
        | some _ =>
          let h := mixHash crypto h encNothing.bytes
          let peer := { peer with hash := h }
          let (sendKey, recvKey) := kdf2 crypto ck []
          (peer.setTransport systemTime sendKey recvKey receiverIndex, true)

/-! ## Handshake, responder -/

/-- What `_ResponderConsume` writes through its out-parameters. -/
structure Consumed where
  chainingKey : Key
  hash : Key
  peerEphemeral : Key
  initiatorStatic : Key
  recvIndex : UInt32

/-- The timestamp is only decrypted, its value is not kept. -/
def responderConsume (crypto : Crypto) (ourPriv : Key) (msg : Bytes) : Option Consumed :=
  if msg.length ≠ 148 ∨ octetAt msg 0 ≠ 1 then none
  else
    let peerEphemeral : Key := slice 32 msg 8
    let encStatic : Buffer 48 := slice 48 msg 40
    let encTs : Buffer 28 := slice 28 msg 88
    match crypto.dhPublic ourPriv with
    | none => none
    | some ourPub =>
      let ck := crypto.hash kConstruction
      let h := crypto.hash (ck.bytes ++ kIdentifier)
      let h := mixHash crypto h ourPub.bytes
      let ck := kdf1 crypto ck peerEphemeral.bytes
      let h := mixHash crypto h peerEphemeral.bytes
      match crypto.dh ourPriv peerEphemeral with
      | none => none
      | some dh =>
        let (ck, key) := kdf2 crypto ck dh.bytes
        match aeadDecrypt crypto key 0 encStatic.bytes h.bytes with
        | none => none
        | some opened =>
          let initiatorStatic : Key := slice 32 opened 0
          let h := mixHash crypto h encStatic.bytes
          match crypto.dh ourPriv initiatorStatic with
          | none => none
          | some dh =>
            let (ck, key) := kdf2 crypto ck dh.bytes
            match aeadDecrypt crypto key 0 encTs.bytes h.bytes with
            | none => none
            | some _timestamp =>
              let h := mixHash crypto h encTs.bytes
              some {
                chainingKey := ck
                hash := h
                peerEphemeral
                initiatorStatic
                recvIndex := load32Le msg 4 }

def recoverInitiatorStatic (crypto : Crypto) (ourPriv : Key) (msg : Bytes) : Option Key :=
  (responderConsume crypto ourPriv msg).map Consumed.initiatorStatic

def consumeInitiation (crypto : Crypto) (peer : WGPeer) (ourPriv : Key) (msg : Bytes) :
    WGPeer × Bool :=
  match responderConsume crypto ourPriv msg with
  | none => (peer, false)
  | some consumed =>
      ({ peer with
          chainingKey := consumed.chainingKey
          hash := consumed.hash
          peerEphemeral := consumed.peerEphemeral
          pendingReceiverIndex := consumed.recvIndex
          ourPriv
          peerStatic := consumed.initiatorStatic },
        true)

def buildResponse (crypto : Crypto) (draw : Draw) (peer : WGPeer) : WGPeer × Option Bytes :=
  match draw.ephemeral with
  | none => (peer, none)
  | some (ephemeralPriv, ephemeralPub) =>
    let ck := kdf1 crypto peer.chainingKey ephemeralPub.bytes
    let h := mixHash crypto peer.hash ephemeralPub.bytes
    let peer := { peer with ephemeralPriv, ephemeralPub, chainingKey := ck, hash := h }
    match crypto.dh ephemeralPriv peer.peerEphemeral with
    | none => (peer, none)
    | some dh =>
      let ck := kdf1 crypto ck dh.bytes
      let peer := { peer with chainingKey := ck }
      match crypto.dh ephemeralPriv peer.peerStatic with
      | none => (peer, none)
      | some dh =>
        let ck := kdf1 crypto ck dh.bytes
        let (ck, tau, key) := kdf3 crypto ck (Buffer.zero 32).bytes
        let h := mixHash crypto h tau.bytes
        let peer := { peer with chainingKey := ck, hash := h }
        match aeadEncrypt crypto key 0 [] h.bytes with
        | none => (peer, none)
        | some sealed =>
          let encNothing : Buffer 16 := slice 16 sealed 0
          let h := mixHash crypto h encNothing.bytes
          let peer := { peer with hash := h }
          match draw.index with
          | none => (peer, none)
          | some senderIndex =>
            let front := [2, 0, 0, 0] ++ (store32Le senderIndex ++
              (store32Le peer.pendingReceiverIndex ++ (ephemeralPub.bytes ++ encNothing.bytes)))
            let mac1Key := crypto.hash (kLabelMac1 ++ peer.peerStatic.bytes)
            let mac1 := crypto.mac16 mac1Key front
            let (recvKey, sendKey) := kdf2 crypto ck []
            let peer :=
              peer.setTransport draw.systemTime sendKey recvKey peer.pendingReceiverIndex
            ({ peer with senderIndex },
              some (front ++ (mac1.bytes ++ List.replicate 16 0)))

/-- The type-1 branch of `_HandleWireGuardPacket` on the peer it found:
`ConsumeInitiation`, then `BuildResponse`. -/
def answerInitiation (crypto : Crypto) (draw : Draw) (peer : WGPeer) (ourPriv : Key)
    (msg : Bytes) : WGPeer × Option Bytes :=
  match peer.consumeInitiation crypto ourPriv msg with
  | (peer, false) => (peer, none)
  | (peer, true) => peer.buildResponse crypto draw

/-! ## Session lifetime -/

def shouldInitiateRekey (peer : WGPeer) (now : Int) : Bool :=
  peer.hasKeys && decide (now - peer.established ≥ kRekeyAfterTime) &&
    decide (now - peer.lastInitiation ≥ kRekeyTimeout)

def shouldKeepalive (peer : WGPeer) (now : Int) : Bool :=
  peer.hasKeys && decide (now - peer.lastSend ≥ kKeepaliveTimeout)

def expireIfStale (peer : WGPeer) (now : Int) : WGPeer × Bool :=
  if peer.hasKeys = true ∧ now - peer.established > kRejectAfterTime then
    ({ peer with hasKeys := false }, true)
  else (peer, false)

end WGPeer

end Sotoportego.WireGuard
