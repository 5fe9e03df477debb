import Sotoportego.Tailscale.DiscoProperties
import Sotoportego.Tailscale.ForwardingProperties
import Sotoportego.Tailscale.NaClBoxProperties

/-!
# Disco over the NaCl box

With the real box in the place of the parameter, a disco packet gives its receiver the key of
the sender and the payload, and the fields of pings and pongs come through.
-/

set_option autoImplicit false

namespace Sotoportego.Tailscale.Disco

open Octets CText WireGuard
open NaClBox (DhCommutes)

/-! ## Packets -/

section Packets

variable {crypto : Crypto}

/-- A packet is sealed when the buffer holds it and the keys have a shared secret. -/
theorem discoSeal_isSome_iff (outCap : Nat) (nonce : Buffer 24) (senderPub senderPriv peerPub : Key)
    (payload : Bytes) :
    (discoSeal (NaClBox.box crypto) outCap nonce senderPub senderPriv peerPub payload).isSome =
        true ↔
      62 + payload.length + 16 ≤ outCap ∧ (crypto.dh senderPriv peerPub).isSome = true := by
  by_cases small : outCap < 62 + payload.length + 16
  · rw [discoSeal, if_pos small]
    simp [Nat.not_le.mpr small]
  · rw [discoSeal, if_neg small, Option.isSome_map]
    cases shared : crypto.dh senderPriv peerPub with
    | none => simp [NaClBox.box, NaClBox.boxSeal, NaClBox.boxBeforeNm, shared]
    | some secret =>
        simp [NaClBox.box, NaClBox.boxSeal, NaClBox.boxBeforeNm, shared,
          NaClBox.boxSealWithKey_eq, Nat.le_of_not_lt small]

theorem discoOpen_boxed (commutes : DhCommutes crypto) (sender receiver : KeyPair crypto)
    {sealCap openCap : Nat} {nonce : Buffer 24} {payload packet : Bytes}
    (fits : payload.length ≤ openCap)
    (sealed : discoSeal (NaClBox.box crypto) sealCap nonce sender.pub sender.priv receiver.pub
      payload = some packet) :
    packet.length = 62 + payload.length + 16 ∧
      discoOpen (NaClBox.box crypto) openCap packet receiver.priv = some (sender.pub, payload) :=
  discoOpen_sealed (fun cipher boxed => ⟨NaClBox.length_boxSeal boxed,
    (NaClBox.boxOpen_iff_boxSeal commutes sender receiver nonce payload cipher).mpr boxed⟩)
    fits sealed

end Packets

/-! ## Addresses -/

/-- The encoded address is the one the text is read as, or zero. -/
theorem quadAt_encoded (ip : CString) :
    quadAt ((encodeIpv4Mapped ip).getD (.zero 16)).bytes 12 = (TSPeerSet.parseIpv4 ip).getD 0 := by
  rw [encodeIpv4Mapped]
  cases parsed : TSPeerSet.parseIpv4 ip with
  | none => rfl
  | some address =>
      have small := parseIpv4_lt parsed
      simp [quadAt, octetAt]
      omega

/-- Numbers determine the printed form. -/
theorem dottedQuad_of_quadAt {left right : Bytes} {leftAt rightAt : Nat}
    (same : quadAt left leftAt = quadAt right rightAt) :
    dottedQuad left leftAt = dottedQuad right rightAt := by
  apply dottedQuad_congr
  intro position inside
  apply UInt8.toNat_inj.mp
  have leftBound (i : Nat) := (octetAt left (leftAt + i)).toNat_lt
  have rightBound (i : Nat) := (octetAt right (rightAt + i)).toNat_lt
  have leftTail := And.intro (leftBound 1) (And.intro (leftBound 2) (leftBound 3))
  have rightTail := And.intro (rightBound 1) (And.intro (rightBound 2) (rightBound 3))
  unfold quadAt at same
  obtain rfl | rfl | rfl | rfl : position = 0 ∨ position = 1 ∨ position = 2 ∨ position = 3 := by
    omega
  · rw [Nat.add_zero, Nat.add_zero]
    omega
  · omega
  · omega
  · omega

/-- The transaction and the port of a pong come through, and so does the address: as it was
    written when it was written in the usual form. -/
theorem pong_round_trip (txid : Buffer 12) (srcIP : CString) (srcPort : UInt16) :
    ∃ ip, decodePong (encodePong txid srcIP srcPort) =
        some { txid, srcIP := ip, srcPort := srcPort.toNat } ∧
      TSPeerSet.parseIpv4 ip = some ((TSPeerSet.parseIpv4 srcIP).getD 0) ∧
      ∀ packet offset, srcIP = dottedQuad packet offset → ip = srcIP := by
  refine ⟨_, decodePong_fields txid srcIP srcPort, ?_, ?_⟩
  · rw [parseIpv4_dottedQuad, quadAt_encoded]
  · rintro packet offset rfl
    apply dottedQuad_of_quadAt
    rw [quadAt_encoded, parseIpv4_dottedQuad]
    rfl

/-! ## Everything together -/

/-- A box opens exactly when it was sealed under the key and the nonce; a disco packet that
    fits its buffers opens for its receiver; and pings and pongs decode to their fields. -/
theorem box_round_trip {crypto : Crypto} (commutes : DhCommutes crypto) :
    (∀ (key : Buffer 32) (nonce : Buffer 24) (m c : Bytes),
      NaClBox.boxOpenWithKey c nonce key = some m ↔ NaClBox.boxSealWithKey m nonce key = some c) ∧
    (∀ (sender receiver : KeyPair crypto) (nonce : Buffer 24) (payload : Bytes) (sealCap : Nat),
      ((discoSeal (NaClBox.box crypto) sealCap nonce sender.pub sender.priv receiver.pub
          payload).isSome = true ↔
        62 + payload.length + 16 ≤ sealCap ∧ (crypto.dh sender.priv receiver.pub).isSome = true) ∧
      ∀ packet openCap,
        discoSeal (NaClBox.box crypto) sealCap nonce sender.pub sender.priv receiver.pub payload =
          some packet →
        payload.length ≤ openCap →
          packet.length = 62 + payload.length + 16 ∧
            discoOpen (NaClBox.box crypto) openCap packet receiver.priv =
              some (sender.pub, payload)) ∧
    (∀ (txid : Buffer 12) (nodeKey : Option Key),
      decodePing (encodePing txid nodeKey) = some { txid, nodeKey }) ∧
    ∀ (txid : Buffer 12) (srcIP : CString) (srcPort : UInt16),
      ∃ ip, decodePong (encodePong txid srcIP srcPort) =
          some { txid, srcIP := ip, srcPort := srcPort.toNat } ∧
        TSPeerSet.parseIpv4 ip = some ((TSPeerSet.parseIpv4 srcIP).getD 0) ∧
        ∀ packet offset, srcIP = dottedQuad packet offset → ip = srcIP := by
  refine ⟨NaClBox.open_iff_seal, fun sender receiver nonce payload sealCap => ⟨?_, ?_⟩,
    decodePing_fields, pong_round_trip⟩
  · exact discoSeal_isSome_iff sealCap nonce _ _ _ payload
  · intro packet openCap sealed fits
    exact discoOpen_boxed commutes sender receiver fits sealed

namespace BoxSample

theorem commutes : DhCommutes Transparent.crypto := by
  rintro ⟨left, leftPub, leftValid⟩ ⟨right, rightPub, rightValid⟩
  cases leftValid
  cases rightValid
  exact congrArg some (Transparent.addKeys_comm left right)

/-- A ping from one node to another. -/
theorem box_round_trip_ping :
    ∃ packet, discoSeal (NaClBox.box Transparent.crypto) 256 (.zero 24) (Transparent.pair 3).pub
        (Transparent.pair 3).priv (Transparent.pair 4).pub (encodePing (.zero 12) none) =
          some packet ∧
      discoOpen (NaClBox.box Transparent.crypto) 128 packet (Transparent.pair 4).priv =
        some ((Transparent.pair 3).pub, encodePing (.zero 12) none) := by
  obtain ⟨-, packets, -, -⟩ := box_round_trip commutes
  obtain ⟨sealed, opens⟩ := packets (Transparent.pair 3) (Transparent.pair 4) (.zero 24)
    (encodePing (.zero 12) none) 256
  obtain ⟨packet, boxed⟩ := Option.isSome_iff_exists.mp (sealed.mpr ⟨by decide, rfl⟩)
  exact ⟨packet, boxed, (opens packet 128 boxed (by decide)).2⟩

end BoxSample

end Sotoportego.Tailscale.Disco
