import Sotoportego.Tailscale.ControlConn
import Sotoportego.Tailscale.Disco
import Sotoportego.Tailscale.Register

/-!
# The DERP relay connection

`DerpClient`: frames behind five octets of type and length, read through one buffer over
the TLS stream, from the HTTP upgrade on. A session that is closed reads and writes nothing,
and a write on an open one takes everything.
-/

set_option autoImplicit false

namespace Sotoportego.Tailscale

open Octets CText Deliveries
open WireGuard (Key)

def derpServerKey : UInt8 := 0x01

def derpClientInfo : UInt8 := 0x02

def derpSendPacket : UInt8 := 0x04

def derpRecvPacket : UInt8 := 0x05

def derpPing : UInt8 := 0x12

def derpPong : UInt8 := 0x13

def kDerpMagicLen : Nat := 8

def kDerpKeyLen : Nat := 32

def kDerpMagic : Bytes := [0x44, 0x45, 0x52, 0x50, 0xf0, 0x9f, 0x94, 0x91]

def kDerpMaxFrame : Nat := 65535

/-- The size of `DerpClient::fBuf`. -/
def kDerpBufSize : Nat := 65536

/-- The size of the header buffer of `_ReadUpgrade`. -/
def kDerpUpgradeSize : Nat := 4096

structure DerpFrame where
  type : UInt8
  payload : Bytes
  deriving DecidableEq

structure DerpClient where
  /-- What the reads of the session will meet. -/
  tls : Option (List (Delivery UInt8)) := none
  serverKey : Key := .zero 32
  nodePriv : Key := .zero 32
  nodePub : Key := .zero 32
  lastError : Bytes := []
  bufOff : Nat := 0
  /-- `fBuf` from `fBufOff` to `fBufLen`. -/
  live : Bytes := []
  /-- What the coming polls of `*fStopFlag` will see; after them it is not set. -/
  polls : List Bool := []
  /-- Everything written so far. -/
  sent : Bytes := []
  /-- The room of every TLS read so far; nothing reads it. -/
  rooms : List Nat := []

namespace DerpClient

def bufLen (client : DerpClient) : Nat :=
  client.bufOff + client.live.length

/-- What is left of `fBuf` after `fBufLen`. -/
def room (client : DerpClient) : Nat :=
  kDerpBufSize - client.bufLen

/-- Moves the live part to the front when the tail is short. -/
def compact (client : DerpClient) : DerpClient :=
  if 0 < client.bufOff ∧ kDerpBufSize < client.bufLen + 4096 then { client with bufOff := 0 }
  else client

@[simp] theorem live_compact (client : DerpClient) : client.compact.live = client.live := by
  unfold compact
  split
  · rfl
  · rfl

@[simp] theorem tls_compact (client : DerpClient) : client.compact.tls = client.tls := by
  unfold compact
  split
  · rfl
  · rfl

@[simp] theorem polls_compact (client : DerpClient) : client.compact.polls = client.polls := by
  unfold compact
  split
  · rfl
  · rfl

@[simp] theorem rooms_compact (client : DerpClient) : client.compact.rooms = client.rooms := by
  unfold compact
  split
  · rfl
  · rfl

/-- `fTls.Read`. -/
def tlsRead (size : Nat) (client : DerpClient) : Answer UInt8 × DerpClient :=
  match client.tls with
  | none => (.ended, { client with rooms := client.rooms ++ [size] })
  | some stream =>
      let (answer, rest) := Deliveries.read size stream
      (answer, { client with tls := some rest, rooms := client.rooms ++ [size] })

/-- `fTls.Close`. -/
def close (client : DerpClient) : DerpClient :=
  { client with tls := none }

/-- How many deliveries the session still has. -/
def deliveries (client : DerpClient) : Nat :=
  (client.tls.getD []).length

theorem tlsRead_live {size : Nat} {client next : DerpClient} {answer : Answer UInt8}
    (answered : client.tlsRead size = (answer, next)) : next.live = client.live := by
  rw [tlsRead] at answered
  split at answered
  next =>
    cases answered
    rfl
  next =>
    cases answered
    rfl

theorem tlsRead_timeout {size : Nat} {client next : DerpClient}
    (answered : client.tlsRead size = (.timeout, next)) : next.deliveries < client.deliveries := by
  rw [tlsRead] at answered
  split at answered
  next => cases answered
  next stream opened =>
    rw [deliveries, deliveries, opened]
    cases stream with
    | nil => cases answered
    | cons delivery rest =>
        cases delivery with
        | chunk first more => cases answered
        | timeout =>
            cases answered
            exact Nat.lt_succ_self _

def fail (message : Bytes) (client : DerpClient) : DerpClient :=
  { client with lastError := message }

/-- The loop of `_Fill`. A read of nothing returns nothing, which is an end. -/
def fillLoop (need : Nat) (client : DerpClient) : Status × DerpClient :=
  if need ≤ client.live.length then (.ok, client)
  else
    match _ : client.compact.tlsRead client.compact.room with
    | (.timeout, next) =>
        if next.polls.headD false then
          (.canceled, { next with polls := next.polls.tail }.fail (ascii "stopped"))
        else fillLoop need { next with polls := next.polls.tail }
    | (.bytes (first :: more), next) =>
        fillLoop need { next with live := next.live ++ first :: more }
    | (_, next) => (.ioError, next.fail (ascii "DERP connection closed"))
termination_by (need - client.live.length, client.deliveries)
decreasing_by
  · have same := tlsRead_live (by assumption)
    have fewer := tlsRead_timeout (by assumption)
    rw [live_compact] at same
    rw [deliveries, deliveries, tls_compact] at fewer
    simp only [same, deliveries]
    exact Prod.Lex.right _ fewer
  · have same := tlsRead_live (by assumption)
    rw [live_compact] at same
    apply Prod.Lex.left
    simp only [same, List.length_append, List.length_cons]
    omega

def fill (need : Nat) (client : DerpClient) : Status × DerpClient :=
  if kDerpBufSize < need then (.badValue, client) else client.fillLoop need

def readRaw (n : Nat) (client : DerpClient) : Status × Bytes × DerpClient :=
  match client.fill n with
  | (.ok, client) =>
      (.ok, client.live.take n,
        { client with bufOff := client.bufOff + n, live := client.live.drop n })
  | (status, client) => (status, [], client)

/-- The header `WriteFrame` puts before the payload. -/
def frameHeader (type : UInt8) (len : Nat) : Bytes :=
  [type, UInt8.ofNat (len >>> 24), UInt8.ofNat (len >>> 16), UInt8.ofNat (len >>> 8),
    UInt8.ofNat (len &&& 0xff)]

def writeFrame (type : UInt8) (payload : Bytes) (client : DerpClient) : Status × DerpClient :=
  match client.tls with
  | none => (.ioError, client)
  | some _ =>
      (.ok, { client with sent := client.sent ++ frameHeader type payload.length ++ payload })

def readFrame (cap : Nat) (client : DerpClient) : Except Status DerpFrame × DerpClient :=
  match client.readRaw 5 with
  | (.ok, hdr, client) =>
      let type := octetAt hdr 0
      let len := (octetAt hdr 1).toNat <<< 24 ||| (octetAt hdr 2).toNat <<< 16 |||
        (octetAt hdr 3).toNat <<< 8 ||| (octetAt hdr 4).toNat
      if kDerpMaxFrame < len then (.error .error, client.fail (ascii "oversize DERP frame"))
      else if cap < len then (.error .badValue, client)
      else if 0 < len then
        match client.readRaw len with
        | (.ok, payload, client) => (.ok ⟨type, payload⟩, client)
        | (status, _, client) => (.error status, client)
      else (.ok ⟨type, []⟩, client)
  | (status, _, client) => (.error status, client)

def crlfCrlf : Bytes := [13, 10, 13, 10]

/-- Where the headers in `tmp` end. -/
def headerEnd (tmp : Bytes) : Option Nat :=
  (Register.findFirst crlfCrlf tmp).map fun found => tmp.length - found.length + 4

/-- The loop of `_ReadUpgrade`: the octets read, and where the headers end. -/
def upgradeLoop (tmp : Bytes) (client : DerpClient) : Option (Bytes × Nat) × DerpClient :=
  if kDerpUpgradeSize ≤ tmp.length then (none, client)
  else
    match client.tlsRead (kDerpUpgradeSize - tmp.length) with
    | (.bytes (first :: more), next) =>
        match headerEnd (tmp ++ first :: more) with
        | some size => (some (tmp ++ first :: more, size), next)
        | none => upgradeLoop (tmp ++ first :: more) next
    | (_, next) => (none, next)
termination_by kDerpUpgradeSize - tmp.length
decreasing_by
  simp only [List.length_append, List.length_cons]
  omega

/-- `Connect` has just emptied the buffer. -/
def readUpgrade (client : DerpClient) : Status × DerpClient :=
  match client.upgradeLoop [] with
  | (none, client) => (.error, client.fail (ascii "no HTTP header terminator from DERP"))
  | (some (tmp, size), client) =>
      if Register.findFirst (ascii " 101 ") (tmp.take size) = none then
        (.error, client.fail (ascii "DERP upgrade not accepted (no 101)"))
      else (.ok, { client with live := tmp.drop size })

def upgradeRequest (host : CString) : Bytes :=
  ascii "GET /derp HTTP/1.1\r\n" ++ ascii "Host: " ++ host.bytes ++ ascii "\r\n" ++
    ascii "Upgrade: DERP\r\n" ++ ascii "Connection: Upgrade\r\n" ++
    ascii "User-Agent: Sotoportego/0.1\r\n\r\n"

def infoJson : Bytes := ascii "\x7b\"version\":2\x7d"

/-- After `fTls.Connect` and the request of `Connect`. -/
def opened (stream : List (Delivery UInt8)) (host : CString) (client : DerpClient) : DerpClient :=
  { client with
    tls := some stream, bufOff := 0, live := [], sent := client.sent ++ upgradeRequest host }

/-- `dial` is what `fTls.Connect` gives, and `nonce` the random one. Every caller has closed
the session before. -/
def connect (box : Box) (dial : Except (Status × Bytes) (List (Delivery UInt8)))
    (nonce : Buffer 24) (host : CString) (nodePriv nodePub : Key) (client : DerpClient) :
    Status × DerpClient :=
  let client := { client with nodePriv, nodePub, bufOff := 0, live := [] }
  match dial with
  | .error (status, message) =>
      (status, client.fail (ascii "DERP TLS connect failed: " ++ message))
  | .ok stream =>
      match (client.opened stream host).readUpgrade with
      | (.ok, client) =>
          match client.readFrame kDerpMaxFrame with
          | (.ok frame, client) =>
              if frame.type ≠ derpServerKey ∨ frame.payload.length < kDerpMagicLen + kDerpKeyLen ∨
                  frame.payload.take kDerpMagicLen ≠ kDerpMagic then
                (.error, client.fail (ascii "bad frameServerKey"))
              else
                let client := { client with serverKey := slice 32 frame.payload kDerpMagicLen }
                match box.sealBox nonce client.serverKey nodePriv infoJson with
                | none => (.error, client.fail (ascii "failed to seal clientInfo"))
                | some cipher =>
                    client.writeFrame derpClientInfo (nodePub.bytes ++ nonce.bytes ++ cipher)
          | (.error status, client) => (status, client)
      | (status, client) => (status, client)

def sendPacket (dstKey : Key) (pkt : Bytes) (client : DerpClient) : Status × DerpClient :=
  if 4096 < pkt.length then (.badValue, client)
  else client.writeFrame derpSendPacket (dstKey.bytes ++ pkt)

/-- The ways in which `RecvPacket` returns. -/
inductive Received where
  | failed
  | control
  | packet (src : Key) (out : Bytes)
  deriving DecidableEq

/-- The `ssize_t`. -/
def Received.value : Received → Int
  | .failed => -1
  | .control => 0
  | .packet _ out => out.length

def recvPacket (cap : Nat) (client : DerpClient) : Received × DerpClient :=
  match client.readFrame kDerpMaxFrame with
  | (.error _, client) => (.failed, client)
  | (.ok frame, client) =>
      if frame.type = derpRecvPacket then
        if frame.payload.length < 32 then (.failed, client)
        else if cap < frame.payload.length - 32 then (.failed, client)
        else (.packet (slice 32 frame.payload 0) (frame.payload.drop 32), client)
      else if frame.type = derpPing then
        (.control, (client.writeFrame derpPong frame.payload).2)
      else (.control, client)

end DerpClient

end Sotoportego.Tailscale
