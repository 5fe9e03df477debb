import Sotoportego.Tailscale.DataPlane

/-!
# Disco

Pings and pongs in NaCl boxes that look for a direct path, and what the backend does with a
disco datagram. The box itself is a parameter.
-/

set_option autoImplicit false

namespace Sotoportego.Tailscale

open Octets CText WireGuard

/-- `BoxSeal` and `BoxOpen`: nonce, public key of the other side, own private key, text. -/
structure Box where
  sealBox : Buffer 24 → Key → Key → Bytes → Option Bytes
  openBox : Buffer 24 → Key → Key → Bytes → Option Bytes

/-- The keys of the node. -/
structure TSIdentity where
  nodePrivate : Key
  nodePublic : Key
  discoPrivate : Key
  discoPublic : Key

namespace Disco

def ping : UInt8 := 1
def pong : UInt8 := 2

def magic : Bytes := [0x54, 0x53, 0xf0, 0x9f, 0x92, 0xac]

structure DiscoPing where
  txid : Buffer 12
  nodeKey : Option Key

structure DiscoPong where
  txid : Buffer 12
  srcIP : CString
  srcPort : Nat

/-! ## Messages -/

def encodePing (txid : Buffer 12) (nodeKey : Option Key) : Bytes :=
  [ping, 0] ++ (txid.bytes ++
    match nodeKey with
    | some key => key.bytes
    | none => [])

/-- `::ffff:a.b.c.d`, or nothing for a text that is no address. -/
def encodeIpv4Mapped (ip : CString) : Option (Buffer 16) :=
  (TSPeerSet.parseIpv4 ip).map fun address =>
    ⟨List.replicate 10 0 ++ [0xff, 0xff] ++
      [UInt8.ofNat (address / 2 ^ 24), UInt8.ofNat (address / 2 ^ 16),
        UInt8.ofNat (address / 2 ^ 8), UInt8.ofNat address], by simp⟩

def encodePong (txid : Buffer 12) (srcIP : CString) (srcPort : UInt16) : Bytes :=
  [pong, 0] ++ (txid.bytes ++ (((encodeIpv4Mapped srcIP).getD (.zero 16)).bytes ++
    [(srcPort >>> 8).toUInt8, srcPort.toUInt8]))

def messageType (msg : Bytes) : UInt8 :=
  if msg.length < 2 then 0 else octetAt msg 0

def decodePing (msg : Bytes) : Option DiscoPing :=
  if msg.length < 14 ∨ octetAt msg 0 ≠ ping then none
  else
    some
      { txid := slice 12 msg 2
        nodeKey := if 46 ≤ msg.length then some (slice 32 msg 14) else none }

def decodePong (msg : Bytes) : Option DiscoPong :=
  if msg.length < 32 ∨ octetAt msg 0 ≠ pong then none
  else
    some
      { txid := slice 12 msg 2
        srcIP := dottedQuad msg 26
        srcPort := (octetAt msg 30).toNat * 256 + (octetAt msg 31).toNat }

/-! ## Packets -/

variable (box : Box)

/-- The packet in a buffer of `outCap` octets. -/
def discoSeal (outCap : Nat) (nonce : Buffer 24) (senderDiscoPub senderDiscoPriv peerDiscoPub : Key)
    (payload : Bytes) : Option Bytes :=
  if outCap < 62 + payload.length + 16 then none
  else
    (box.sealBox nonce peerDiscoPub senderDiscoPriv payload).map fun cipher =>
      magic ++ (senderDiscoPub.bytes ++ (nonce.bytes ++ cipher))

/-- The sender's key and the payload. -/
def discoOpen (outCap : Nat) (packet : Bytes) (myDiscoPriv : Key) : Option (Key × Bytes) :=
  if packet.length < 62 + 16 then none
  else if packet.take 6 ≠ magic then none
  else
    let senderPub : Key := slice 32 packet 6
    let nonce : Buffer 24 := slice 24 packet 38
    let cipher := packet.drop 62
    if outCap < cipher.length - 16 then none
    else (box.openBox nonce senderPub myDiscoPriv cipher).map fun payload => (senderPub, payload)

/-! ## The backend -/

/-- The address a datagram came from. -/
structure Source where
  address : Buffer 4
  port : UInt16

def Source.ip (source : Source) : CString := dottedQuad source.address.bytes 0

def Source.endpoint (source : Source) : Bytes :=
  source.ip.bytes ++ 58 :: ascii (toString source.port.toNat)

inductive Reaction where
  | ignored
  /-- A pong for the address the ping came from. -/
  | reply (packet : Bytes)
  /-- A pong: the sender's disco key, and the message. -/
  | ponged (sender : Key) (payload : Bytes)

def react (identity : TSIdentity) (nonce : Buffer 24) (packet : Bytes) (source : Source) :
    Reaction :=
  match discoOpen box 128 packet identity.discoPrivate with
  | none => .ignored
  | some (sender, payload) =>
      if messageType payload = ping then
        match decodePing payload with
        | none => .ignored
        | some decoded =>
            match discoSeal box 256 nonce identity.discoPublic identity.discoPrivate sender
              (encodePong decoded.txid source.ip source.port) with
            | some sealed => .reply sealed
            | none => .ignored
      else if messageType payload = pong then .ponged sender payload
      else .ignored

/-- The packet `_SendDiscoPing` sends to every endpoint of the peer. -/
def pingPacket (identity : TSIdentity) (txid : Buffer 12) (nonce : Buffer 24)
    (peer : ManagedPeer) : Option Bytes :=
  (fromHex 32 peer.discoKey).bind fun peerDisco =>
    discoSeal box 256 nonce identity.discoPublic identity.discoPrivate peerDisco
      (encodePing txid (some identity.nodePublic))

end Disco

/-! ## The data plane with its pings and pongs -/

inductive DiscoEntry where
  | pinged (peer : CString) (txid : Buffer 12) (packet : Bytes)
  | upgraded (peer : CString) (endpoint payload : Bytes)
  deriving DecidableEq

structure DiscoPlane where
  plane : DataPlane := {}
  log : List DiscoEntry := []

namespace DiscoPlane

open Disco

inductive Event where
  /-- Any event but a disco datagram, with the draws of a ping. -/
  | plane (event : Tailscale.Event) (txid : Buffer 12) (nonce : Buffer 24)
  | datagram (packet : Bytes) (source : Source) (nonce : Buffer 24)

variable (crypto : Crypto) (box : Box) (identity : TSIdentity) (disco : DiscoPlane)

/-- The ping `_SendToPeer` sends before it looks at the session. -/
def pingOf (packet : Bytes) (txid : Buffer 12) (nonce : Buffer 24) : List DiscoEntry :=
  match (disco.plane.route packet).bind fun position => disco.plane.set.peers[position]? with
  | none => []
  | some peer =>
      if .pinged peer.endpoints ∈ ((disco.plane.context crypto identity.nodePrivate).probe peer).2 then
        ((pingPacket box identity txid nonce peer).map (.pinged peer.nodeKeyHex txid)).toList
      else []

/-- The peer a disco key finds. -/
def peerOf (sender : Key) : Option ManagedPeer :=
  (disco.plane.set.findByDiscoKey (toHex sender.bytes)).bind fun position =>
    disco.plane.set.peers[position]?

def step : Event → Option DiscoPlane
  -- A pong reaches the peers as a datagram only.
  | .plane (.pong _ _) _ _ => some disco
  | .plane event txid nonce =>
      let pings :=
        match event with
        | .tunPacket packet _ => disco.pingOf crypto box identity packet txid nonce
        | _ => []
      (disco.plane.step crypto identity.nodePrivate event).map fun plane =>
        { plane, log := disco.log ++ pings }
  | .datagram packet source nonce =>
      match react box identity nonce packet source with
      | .ponged sender payload =>
          (disco.plane.step crypto identity.nodePrivate (.pong sender source.endpoint)).map
            fun plane =>
              { plane
                log := disco.log ++ ((disco.peerOf sender).map fun peer =>
                  .upgraded peer.nodeKeyHex source.endpoint payload).toList }
      | _ => some disco

end DiscoPlane

end Sotoportego.Tailscale
