import Sotoportego.Lib.Octets

/-!
# The shared socket

One UDP socket carries WireGuard, disco and STUN, and the first octets of a datagram tell them
apart.
-/

set_option autoImplicit false

namespace Sotoportego.Tailscale.MagicSock

open Octets

inductive SockPacketKind where
  /-- Handed to the WireGuard transport. -/
  | wireGuard
  | stun
  | disco
  deriving DecidableEq

def kDiscoMagic : Bytes := [0x54, 0x53, 0xf0, 0x9f, 0x92, 0xac]
def kStunCookie : Bytes := [0x21, 0x12, 0xa4, 0x42]

def classify (buf : Bytes) : SockPacketKind :=
  if 6 ≤ buf.length ∧ buf.take 6 = kDiscoMagic then .disco
  else if 20 ≤ buf.length ∧ octetAt buf 0 &&& 0xc0 = 0 ∧ (buf.drop 4).take 4 = kStunCookie then .stun
  else .wireGuard

end Sotoportego.Tailscale.MagicSock
