import Sotoportego.Lib.Checked
import Sotoportego.Tailscale.DataPlane

/-!
# STUN responses

The walk over the attributes of a binding response, each read checked against the datagram.
-/

set_option autoImplicit false

namespace Sotoportego.Tailscale.Stun

open Octets CText Checked

def kBindingSuccess : UInt16 := 0x0101
def kAttrMappedAddr : UInt16 := 0x0001
def kAttrXorMappedAddr : UInt16 := 0x0020

/-- The octets of `kStunMagicCookie`. -/
def cookie : Bytes := [0x21, 0x12, 0xa4, 0x42]

/-- The address and the port of an attribute whose value starts at `val`. -/
def readAddress (buf : Bytes) (val : Nat) (attrType attrLen : UInt16) :
    Access (Option (CString × UInt16)) :=
  if (attrType = kAttrXorMappedAddr ∨ attrType = kAttrMappedAddr) ∧ 8 ≤ attrLen then do
    let family ← fetch buf (val + 1)
    if family = 0x01 then
      let port ← fetch16 buf (val + 2)
      let addr ← fetchRange buf (val + 4) 4
      if attrType = kAttrXorMappedAddr then
        return some (dottedQuad (addr.zipWith (· ^^^ ·) cookie) 0, port ^^^ 0x2112)
      else return some (dottedQuad addr 0, port)
    else return none
  else return none

def walkAttributes (buf : Bytes) (stop off : Nat) : Access (Option (CString × UInt16)) :=
  if off + 4 ≤ stop then do
    let attrType ← fetch16 buf off
    let attrLen ← fetch16 buf (off + 2)
    let val := off + 4
    if val + attrLen.toNat > stop then return none
    else
      match ← readAddress buf val attrType attrLen with
      | some found => return some found
      | none =>
          -- The padding may step past the end, which stops the loop.
          walkAttributes buf stop
            (if attrLen &&& 3 ≠ 0 then val + attrLen.toNat + (4 - (attrLen &&& 3).toNat)
            else val + attrLen.toNat)
  else return none
  termination_by stop - off
  decreasing_by
    split <;> omega

def parseResponse (buf : Bytes) (txId : Buffer 12) : Access (Option (CString × UInt16)) :=
  if buf.length < 20 then return none
  else do
    if (← fetch16 buf 0) ≠ kBindingSuccess then return none
    else if (← fetchRange buf 4 4) ≠ cookie then return none
    else if (← fetchRange buf 8 12) ≠ txId.bytes then return none
    else
      let msgLen := (← fetch16 buf 2).toNat
      let msgLen := if 20 + msgLen > buf.length then (buf.length - 20) % 2 ^ 16 else msgLen
      walkAttributes buf (20 + msgLen) 20

end Sotoportego.Tailscale.Stun
