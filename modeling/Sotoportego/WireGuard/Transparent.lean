import Sotoportego.WireGuard.Peer

/-!
# An executable instance of the primitives

Keys add octet by octet, a public key is its private key, and sealing appends a
tag to the unchanged plaintext. The laws hold and every function computes, so
runs of the peer can be evaluated; nothing is secret.
-/

set_option autoImplicit false

namespace Sotoportego.WireGuard

open Octets

namespace Transparent

/-- The low `size` octets of a number. -/
def octets (size value : Nat) : Buffer size :=
  ⟨(List.range size).map fun position => UInt8.ofNat (value / 256 ^ position), by simp⟩

def digest (input : Bytes) : Nat :=
  input.foldl (fun value octet => (value * 257 + octet.toNat + 1) % (2 ^ 255 - 19)) 1

def addKeys (left right : Key) : Key :=
  ⟨List.zipWith (· + ·) left.bytes right.bytes, by simp⟩

def tag (key : Key) (nonce : Buffer 12) (plain aad : Bytes) : Buffer 16 :=
  octets 16 (digest (key.bytes ++ nonce.bytes ++ aad ++ plain))

def crypto : Crypto where
  hash input := octets 32 (digest input)
  mac16 key input := octets 16 (digest (key.bytes ++ input))
  dhPublic priv := some priv
  dh priv pub := some (addKeys priv pub)
  chachaSeal key nonce plain aad := some (plain ++ (tag key nonce plain aad).bytes)
  chachaOpen key nonce cipher aad :=
    let plain := cipher.take (cipher.length - 16)
    if cipher = plain ++ (tag key nonce plain aad).bytes then some plain else none

theorem addKeys_comm (left right : Key) : addKeys left right = addKeys right left := by
  apply Buffer.ext_bytes
  exact List.zipWith_comm_of_comm (fun _ _ => UInt8.add_comm _ _)

theorem lawful : crypto.Lawful where
  dh_agree := by
    intro leftPriv rightPriv leftPub rightPub leftValid rightValid
    cases leftValid
    cases rightValid
    exact ⟨addKeys leftPriv rightPriv, rfl, congrArg some (addKeys_comm rightPriv leftPriv)⟩
  chachaSeal_total := by
    intro key nonce plain aad
    exact ⟨_, rfl, by simp⟩
  chachaOpen_seal := by
    intro key nonce cipher plain aad sealed
    cases sealed
    simp [crypto]

/-- The key pair whose octets all are `seed`. -/
def pair (seed : UInt8) : KeyPair crypto :=
  ⟨⟨List.replicate 32 seed, by simp⟩, ⟨List.replicate 32 seed, by simp⟩, rfl⟩

def draw (seed : UInt8) (index : UInt32) (systemTime : Int) : Draw where
  ephemeral := some ((pair seed).priv, (pair seed).pub)
  index := some index
  unixTime := 0
  systemTime

/-- The two ends of one session, as `SetTransport` leaves them. -/
def leftEnd : WGPeer := WGPeer.setTransport {} 1 (pair 1).pub (pair 2).pub 9

def rightEnd : WGPeer := WGPeer.setTransport {} 1 (pair 2).pub (pair 1).pub 7

end Transparent

end Sotoportego.WireGuard
