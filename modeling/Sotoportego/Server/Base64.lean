import Sotoportego.WireGuard.Config

/-!
# Base64

The encoder of the control client's upgrade request and the decoder of the server's VPN Gate
requests. WireGuard decodes its keys with a decoder of its own.
-/

set_option autoImplicit false

namespace Sotoportego.Server

open Octets CText
open WireGuard (base64Value)

def kAlphabet : Bytes :=
  ascii "ABCDEFGHIJKLMNOPQRSTUVWXYZabcdefghijklmnopqrstuvwxyz0123456789+/"

/-- The character of the six low bits. -/
def base64Char (n : UInt32) : UInt8 := kAlphabet.getD (n &&& 0x3f).toNat 0

def base64Encode : Bytes → Bytes
  | first :: second :: third :: rest =>
      let n := first.toUInt32 <<< 16 ||| second.toUInt32 <<< 8 ||| third.toUInt32
      [base64Char (n >>> 18), base64Char (n >>> 12), base64Char (n >>> 6), base64Char n] ++
        base64Encode rest
  | [first, second] =>
      let n := first.toUInt32 <<< 16 ||| second.toUInt32 <<< 8
      [base64Char (n >>> 18), base64Char (n >>> 12), base64Char (n >>> 6)] ++ ascii "="
  | [first] =>
      let n := first.toUInt32 <<< 16
      [base64Char (n >>> 18), base64Char (n >>> 12)] ++ ascii "=="
  | [] => []

/-- The loop of `decode_base64`. The accumulator is a signed `int`, and what it holds above
the pending bits is left there. A lone group of six bits at the end is a cut text. -/
def decodeBase64From (buffer : Int32) (bits : Nat) (out : Bytes) : Bytes → Option Bytes
  | [] => if 6 ≤ bits then none else some out
  | octet :: rest =>
      if octet = 32 ∨ octet = 9 ∨ octet = 13 ∨ octet = 10 then
        decodeBase64From buffer bits out rest
      else if octet = 61 then if 6 ≤ bits then none else some out
      else
        match base64Value octet with
        | none => none
        | some value =>
            let buffer := buffer <<< 6 ||| .ofNat value
            if bits + 6 < 8 then decodeBase64From buffer (bits + 6) out rest
            else
              let octet := (buffer >>> .ofNat (bits - 2) &&& 0xff).toUInt32.toUInt8
              decodeBase64From buffer (bits - 2) (out ++ [octet]) rest

def decodeBase64 (source : CString) : Option Bytes := decodeBase64From 0 0 [] source.bytes

end Sotoportego.Server
