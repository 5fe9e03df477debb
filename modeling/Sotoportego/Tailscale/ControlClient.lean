import Sotoportego.Lib.CText
import Sotoportego.Tailscale.ControlConn

/-!
# The reply to the upgrade request

`ControlClient` from step 4 of `Handshake` on: the 101 response and the framed Noise reply
are read into one buffer, and what was read past the reply is kept for `ControlConn`.
-/

set_option autoImplicit false

namespace Sotoportego.Tailscale

open Octets Deliveries CText

/-- The buffer of `_ReadUpgradeResponse`. -/
def kUpgradeBufSize : Nat := 8192

/-- The `body` that `Handshake` passes to it. -/
def kUpgradeBodySize : Nat := 256

def kResponsePayloadLen : Nat := 48

structure ControlClient where
  tls : List (Delivery UInt8)
  lastError : Bytes := []
  /-- `fPending` up to `fPendingLen`. -/
  pending : Bytes := []
  deriving DecidableEq

namespace ControlClient

/-- The size of `ControlClient::fPending`. -/
def kPendingSize : Nat := 512

/-- The position behind the first CRLFCRLF. -/
def headerEnd : Bytes → Option Nat
  | [] => none
  | octet :: rest =>
      if [13, 10, 13, 10] <+: octet :: rest then some 4
      else (headerEnd rest).map (· + 1)

def memmem (needle : Bytes) : Bytes → Bool
  | [] => needle.isEmpty
  | octet :: rest => needle.isPrefixOf (octet :: rest) || memmem needle rest

/-- What the loop of `_ReadUpgradeResponse` leaves. -/
structure Received where
  buf : Bytes
  headerEnd : Option Nat
  tls : List (Delivery UInt8)

def receive (buf : Bytes) (found : Option Nat) (tls : List (Delivery UInt8)) : Received :=
  if buf.length < kUpgradeBufSize then
    match _ : read (kUpgradeBufSize - buf.length) tls with
    | (.bytes got, rest) =>
        let found := found.or (headerEnd (buf ++ got))
        if found.any fun position =>
            kRecordHeaderLen + kResponsePayloadLen ≤ (buf ++ got).length - position then
          ⟨buf ++ got, found, rest⟩
        else receive (buf ++ got) found rest
    | (_, rest) => ⟨buf, found, rest⟩
  else ⟨buf, found, tls⟩
termination_by kUpgradeBufSize - buf.length
decreasing_by
  have progress := (read_bytes (by assumption)).2.2.2
  rw [List.length_append]
  omega

def readUpgradeResponse (bodyCap : Nat) (client : ControlClient) :
    Except Status Bytes × ControlClient :=
  let received := receive [] none client.tls
  let client := { client with tls := received.tls }
  match received.headerEnd with
  | none =>
      (.error .error,
        { client with lastError := ascii "no HTTP header terminator in upgrade response" })
  | some position =>
      if memmem (ascii " 101 ") (received.buf.take position) then
        (.ok ((received.buf.drop position).take bodyCap), client)
      else
        let head := (received.buf.take (min position 120)).takeWhile (· ≠ 0)
        (.error .error, { client with lastError := ascii "upgrade not accepted: " ++ head })

def decodeRecordHeader (input : Bytes) : Option (UInt8 × Nat) :=
  if input.length < kRecordHeaderLen then none
  else some (octetAt input 0, (octetAt input 1).toNat <<< 8 ||| (octetAt input 2).toNat)

/-- `readMessage2` verifies the Noise response and gives the keys of `Split`. -/
def handshake (readMessage2 : Bytes → Option NoiseTransportKeys) (client : ControlClient) :
    Except Status NoiseTransportKeys × ControlClient :=
  match client.readUpgradeResponse kUpgradeBodySize with
  | (.error status, client) => (.error status, client)
  | (.ok body, client) =>
      match decodeRecordHeader body with
      | none => (.error .error, { client with lastError := ascii "short control response record" })
      | some (type, payloadLen) =>
          if type = controlMsgError then
            (.error .error,
              { client with lastError := ascii "control server returned a handshake error record" })
          else if type ≠ controlMsgResponse then
            (.error .error,
              { client with
                lastError := ascii ("unexpected control record type " ++ toString type.toNat) })
          else if body.length < kRecordHeaderLen + payloadLen then
            (.error .error, { client with lastError := ascii "truncated control response payload" })
          else
            match readMessage2 ((body.drop kRecordHeaderLen).take payloadLen) with
            | none =>
                (.error .error,
                  { client with
                    lastError :=
                      ascii "Noise response failed to verify (version/protocol mismatch)" })
            | some keys =>
                let consumed := kRecordHeaderLen + payloadLen
                if consumed < body.length then
                  (.ok keys, { client with pending := (body.drop consumed).take kPendingSize })
                else (.ok keys, client)

end ControlClient

end Sotoportego.Tailscale
