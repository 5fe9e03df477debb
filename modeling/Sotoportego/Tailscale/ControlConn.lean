import Sotoportego.Lib.Deliveries
import Sotoportego.WireGuard.Crypto

/-!
# The control record stream

`ControlConn`: a message is sealed into records, and records are opened one at a time over
the octets the handshake reader left behind and then the TLS stream. `TlsClient` is the list
of what its reads will meet; a write takes everything.
-/

set_option autoImplicit false

namespace Sotoportego.Tailscale

open Octets Deliveries WireGuard

inductive Status where
  | ok
  | wouldBlock
  | entryNotFound
  | ioError
  | badValue
  | badData
  | noInit
  | error
  | canceled
  deriving DecidableEq

def kTagLen : Nat := 16

def kMaxPlaintextPerRecord : Nat := 4077

def kRecordHeaderLen : Nat := 3

/-- The size of `ControlConn::fPending`. -/
def kPendingSize : Nat := 8192

def controlMsgResponse : UInt8 := 2

def controlMsgError : UInt8 := 3

def controlMsgRecord : UInt8 := 4

def buildNonce (counter : UInt64) : Buffer 12 :=
  ⟨List.replicate 4 (0 : UInt8) ++ (List.range 8).map fun position =>
    (counter >>> (8 * (7 - position)).toUInt64).toUInt8, by simp⟩

def aeadSeal (crypto : Crypto) (key : Key) (counter : UInt64) (plain : Bytes) : Option Bytes :=
  crypto.chachaSeal key (buildNonce counter) plain []

def aeadOpen (crypto : Crypto) (key : Key) (counter : UInt64) (cipher : Bytes) : Option Bytes :=
  if cipher.length < kTagLen then none
  else crypto.chachaOpen key (buildNonce counter) cipher []

structure NoiseTransportKeys where
  sendKey : Key
  recvKey : Key
  deriving DecidableEq

structure ControlConn where
  tls : List (Delivery UInt8)
  txKey : Key
  rxKey : Key
  txCounter : UInt64 := 0
  rxCounter : UInt64 := 0
  /-- `fPending` from `fPendingOff` to `fPendingLen`. -/
  pending : Bytes := []

namespace ControlConn

def init (tls : List (Delivery UInt8)) (keys : NoiseTransportKeys) (pending : Bytes) :
    ControlConn where
  tls
  txKey := keys.sendKey
  rxKey := keys.recvKey
  pending := if pending.length ≤ kPendingSize then pending else []

def recordHeader (cipherLen : Nat) : Bytes :=
  [controlMsgRecord, UInt8.ofNat (cipherLen >>> 8), UInt8.ofNat (cipherLen &&& 0xff)]

/-- One record of `WriteMessage`. -/
def sealRecord (crypto : Crypto) (key : Key) (counter : UInt64) (chunk : Bytes) : Option Bytes := do
  let cipher ← aeadSeal crypto key counter chunk
  return recordHeader (chunk.length + kTagLen) ++ cipher

/-- What is written to the stream; `none` is `B_ERROR`. -/
def writeMessage (crypto : Crypto) (conn : ControlConn) (data : Bytes) :
    Option (ControlConn × Bytes) := do
  let frame ← sealRecord crypto conn.txKey conn.txCounter (data.take kMaxPlaintextPerRecord)
  let conn := { conn with txCounter := conn.txCounter + 1 }
  if data.length ≤ kMaxPlaintextPerRecord then return (conn, frame)
  let (conn, written) ← writeMessage crypto conn (data.drop kMaxPlaintextPerRecord)
  return (conn, frame ++ written)
termination_by data.length
decreasing_by
  rw [List.length_drop]
  simp only [kMaxPlaintextPerRecord] at *
  omega

/-- `_ReadFull`, with what was read even when that is not enough. -/
def readFull (conn : ControlConn) (len : Nat) : Status × Bytes × ControlConn :=
  let take := conn.pending.take len
  let read := collect (len - take.length) conn.tls
  let got := take ++ read.taken
  let conn := { conn with pending := conn.pending.drop len, tls := read.rest }
  match read.stop with
  | .full => (.ok, got, conn)
  | .timeout => (if got.length = 0 then .wouldBlock else .ioError, got, conn)
  | .ended => (if got.length = 0 then .entryNotFound else .ioError, got, conn)

/-- The `ssize_t` of `ReadRecord`: a length, 0 at the end, -2 and -1. -/
inductive Record where
  | opened (plain : Bytes)
  | ended
  | blocked
  | failed
  deriving DecidableEq

def readRecord (crypto : Crypto) (conn : ControlConn) (cap : Nat) : Record × ControlConn :=
  match conn.readFull kRecordHeaderLen with
  | (.entryNotFound, _, conn) => (.ended, conn)
  | (.wouldBlock, _, conn) => (.blocked, conn)
  | (.ok, header, conn) =>
      let type := octetAt header 0
      let cipherLen := (octetAt header 1).toNat <<< 8 ||| (octetAt header 2).toNat
      if type ≠ controlMsgRecord ∨ cipherLen < kTagLen then (.failed, conn)
      else if cap < cipherLen - kTagLen then (.failed, conn)
      else if kMaxPlaintextPerRecord + kTagLen < cipherLen then (.failed, conn)
      else
        match conn.readFull cipherLen with
        | (.ok, cipher, conn) =>
            match aeadOpen crypto conn.rxKey conn.rxCounter cipher with
            | some plain => (.opened plain, { conn with rxCounter := conn.rxCounter + 1 })
            | none => (.failed, conn)
        | (_, _, conn) => (.failed, conn)
  | (_, _, conn) => (.failed, conn)

end ControlConn

end Sotoportego.Tailscale
