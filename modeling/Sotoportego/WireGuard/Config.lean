import Sotoportego.Lib.CText
import Sotoportego.WireGuard.Crypto

/-!
# The WireGuard configuration

The fields of a parsed configuration, and the keys they carry in base64.
-/

set_option autoImplicit false

namespace Sotoportego.WireGuard

open Octets CText

structure WireGuardPeer where
  publicKey : CString := .empty
  presharedKey : CString := .empty
  endpointHost : CString := .empty
  endpointPort : UInt16 := 0
  allowedIPs : CString := .empty
  persistentKeepalive : Int32 := 0
  deriving DecidableEq

structure WireGuardConfig where
  privateKey : CString := .empty
  address : CString := .empty
  dns : CString := .empty
  listenPort : UInt16 := 0
  mtu : Int32 := 0
  peer : WireGuardPeer := {}
  deriving DecidableEq

def WireGuardConfig.isComplete (config : WireGuardConfig) : Bool :=
  config.privateKey ≠ .empty && config.peer.publicKey ≠ .empty &&
    config.peer.endpointHost ≠ .empty && config.peer.endpointPort ≠ 0

/-! ## Keys -/

def base64Value (octet : UInt8) : Option Nat :=
  (ascii "ABCDEFGHIJKLMNOPQRSTUVWXYZabcdefghijklmnopqrstuvwxyz0123456789+/").idxOf? octet

/-- The loop of `base64_decode`. -/
def decodeFrom (outCap : Nat) : UInt32 → Nat → Bytes → Bytes → Option Bytes
  | _, _, out, [] => some out
  | buffer, bits, out, octet :: rest =>
      if octet = 61 then some out
      else if octet = 32 ∨ octet = 9 ∨ octet = 13 ∨ octet = 10 then
        decodeFrom outCap buffer bits out rest
      else
        match base64Value octet with
        | none => none
        | some value =>
            let buffer := buffer <<< 6 ||| .ofNat value
            if bits + 6 < 8 then decodeFrom outCap buffer (bits + 6) out rest
            else if outCap ≤ out.length then none
            else
              decodeFrom outCap buffer (bits - 2) (out ++ [(buffer >>> .ofNat (bits - 2)).toUInt8])
                rest

def base64Decode (source : CString) (outCap : Nat) : Option Bytes :=
  decodeFrom outCap 0 0 [] source.bytes

def decodeKey (source : CString) : Option Key :=
  (base64Decode source 32).bind fun octets =>
    if exact : octets.length = 32 then some ⟨octets, exact⟩ else none

structure Keys where
  privateKey : Key
  peerPublicKey : Key
  presharedKey : Option Key

/-- `_DecodeKeys`. A configuration without a preshared key has none. -/
def WireGuardConfig.decodeKeys (config : WireGuardConfig) : Option Keys := do
  let privateKey ← decodeKey config.privateKey
  let peerPublicKey ← decodeKey config.peer.publicKey
  if config.peer.presharedKey = .empty then return ⟨privateKey, peerPublicKey, none⟩
  let presharedKey ← decodeKey config.peer.presharedKey
  return ⟨privateKey, peerPublicKey, some presharedKey⟩

end Sotoportego.WireGuard
