import Sotoportego.Lib.Run
import Sotoportego.WireGuard.HandshakeProperties

/-!
# A pending handshake under rejected responses

`ConsumeResponse` mixes into the transcript what it has not authenticated yet. A datagram
that fails the checks made before that leaves the handshake as it was, and the genuine
response still completes it.
-/

set_option autoImplicit false

namespace Sotoportego.WireGuard

open Octets

namespace WGPeer

/-- The datagram passes every check that `ConsumeResponse` makes before it writes to the
transcript. -/
def Addressed (peer : WGPeer) (datagram : Bytes) : Prop :=
  datagram.length = 92 ∧ octetAt datagram 0 = 2 ∧ load32Le datagram 8 = peer.senderIndex

instance decidableAddressed (peer : WGPeer) (datagram : Bytes) :
    Decidable (Addressed peer datagram) :=
  inferInstanceAs (Decidable (_ ∧ _))

/-- A datagram with the time of its arrival. -/
def receiveResponse (crypto : Crypto) (peer : WGPeer) (datagram : Int × Bytes) : WGPeer :=
  (peer.consumeResponse crypto datagram.1 datagram.2).1

def Rejected (crypto : Crypto) (peer : WGPeer) (datagram : Int × Bytes) : Prop :=
  (peer.consumeResponse crypto datagram.1 datagram.2).2 = false

section Datagrams

variable {crypto : Crypto} {peer : WGPeer}

theorem consumeResponse_unaddressed {datagram : Bytes} (other : ¬Addressed peer datagram)
    (systemTime : Int) : peer.consumeResponse crypto systemTime datagram = (peer, false) := by
  unfold consumeResponse
  split
  · rfl
  · next wellFormed =>
    simp only [not_or, not_not] at wellFormed
    split
    · rfl
    · next addressed =>
      exact absurd ⟨wellFormed.1, wellFormed.2, not_not.mp addressed⟩ other

/-- A run of such datagrams is rejected one by one and leaves no trace. -/
theorem run_unaddressed {datagrams : List (Int × Bytes)}
    (others : ∀ datagram ∈ datagrams, ¬Addressed peer datagram.2) :
    Run.Along (receiveResponse crypto) (Rejected crypto) peer datagrams ∧
      Run.run (receiveResponse crypto) peer datagrams = peer := by
  have along : Run.Along (receiveResponse crypto) (fun _ datagram => ¬Addressed peer datagram.2)
      peer datagrams := Run.along_of_forall (fun datagram member _ => others datagram member) peer
  refine @Run.along_invariant _ _ _ _ (fun reached => reached = peer) _ ?_ _ _ along rfl
  intro reached datagram other same
  subst same
  have refused : reached.consumeResponse crypto datagram.1 datagram.2 = (reached, false) :=
    consumeResponse_unaddressed other datagram.1
  exact ⟨congrArg Prod.snd refused, congrArg Prod.fst refused⟩

end Datagrams

/-- Rejected datagrams that do not carry the shape and the index of a response to this
initiation: the genuine response is accepted after them with the very session that it
would have brought without them. -/
theorem pending_handshake_survives {crypto : Crypto} (lawful : crypto.Lawful)
    {own remote : KeyPair crypto} {initiator : WGPeer} {msg : Bytes}
    (outstanding : Outstanding crypto own remote initiator msg) (responder : WGPeer)
    (answer : KeyPair crypto) (draw : Draw) (index : UInt32)
    (generated : draw.ephemeral = some (answer.priv, answer.pub))
    (drawn : draw.index = some index) (datagrams : List (Int × Bytes))
    (others : ∀ datagram ∈ datagrams, ¬Addressed initiator datagram.2) :
    Run.Along (receiveResponse crypto) (Rejected crypto) initiator datagrams ∧
      ∃ responder' resp,
        responder.answerInitiation crypto draw remote.priv msg = (responder', some resp) ∧
        ∀ systemTime, ∃ initiator',
          initiator.consumeResponse crypto systemTime resp = (initiator', true) ∧
          (Run.run (receiveResponse crypto) initiator datagrams).consumeResponse crypto
            systemTime resp = (initiator', true) ∧
          Agree initiator' responder' := by
  obtain ⟨rejected, reached⟩ := @run_unaddressed crypto _ _ others
  obtain ⟨_, responder₁, responder₂, resp, consumed, answered, _, _, completes⟩ :=
    answer_outstanding lawful outstanding responder answer draw index generated drawn
  refine ⟨rejected, responder₂, resp, ?_, ?_⟩
  · simp only [answerInitiation, consumed, answered]
  · intro systemTime
    obtain ⟨initiator', completed, agree, _⟩ := completes systemTime
    rw [reached]
    exact ⟨initiator', completed, completed, agree⟩

namespace PendingSample

/-- A peer that has sent its initiation under index 7. -/
def pending : WGPeer × Option Bytes :=
  buildInitiation Transparent.crypto (Transparent.draw 3 7 0) {} (Transparent.pair 1).priv
    (Transparent.pair 2).pub

def genuine : Bytes :=
  ((answerInitiation Transparent.crypto (Transparent.draw 4 9 0) {} (Transparent.pair 2).priv
    (pending.2.getD [])).2).getD []

/-- A response to index 7 without any key behind it. -/
def forged : Bytes :=
  [2, 0, 0, 0] ++ (store32Le 5 ++ (store32Le 7 ++ List.replicate 80 0))

/-- An empty datagram, the forged response under index 8, and its head alone. -/
def astray : List (Int × Bytes) :=
  [(1, []), (2, [2, 0, 0, 0] ++ (store32Le 5 ++ (store32Le 8 ++ List.replicate 80 0))),
    (3, [2, 0, 0, 0] ++ (store32Le 5 ++ store32Le 7))]

theorem outstanding_pending : pending.1.senderIndex = 7 ∧
    Outstanding Transparent.crypto (Transparent.pair 1) (Transparent.pair 2) pending.1
      (pending.2.getD []) := by
  obtain ⟨initiator, msg, built, sender, outstanding⟩ :=
    buildInitiation_outstanding Transparent.lawful (Transparent.pair 1) (Transparent.pair 2)
      (Transparent.pair 3) (Transparent.draw 3 7 0) 7 {} rfl rfl
  have sent : pending = (initiator, some msg) := built
  rw [sent]
  exact ⟨sender, outstanding⟩

theorem unaddressed_astray : ∀ datagram ∈ astray, ¬Addressed pending.1 datagram.2 := by
  intro datagram member addressed
  rw [Addressed, outstanding_pending.1] at addressed
  have others : ∀ datagram ∈ astray,
      ¬(datagram.2.length = 92 ∧ octetAt datagram.2 0 = 2 ∧ load32Le datagram.2 8 = 7) := by
    decide
  exact others datagram member addressed

end PendingSample

open PendingSample in
theorem pending_handshake_survives_sample :
    Run.Along (receiveResponse Transparent.crypto) (Rejected Transparent.crypto) pending.1
        astray ∧
      ∃ responder' resp,
        answerInitiation Transparent.crypto (Transparent.draw 4 9 0) {} (Transparent.pair 2).priv
          (pending.2.getD []) = (responder', some resp) ∧
        ∀ systemTime, ∃ initiator',
          pending.1.consumeResponse Transparent.crypto systemTime resp = (initiator', true) ∧
          (Run.run (receiveResponse Transparent.crypto) pending.1 astray).consumeResponse
            Transparent.crypto systemTime resp = (initiator', true) ∧
          Agree initiator' responder' :=
  pending_handshake_survives Transparent.lawful outstanding_pending.2 {} (Transparent.pair 4)
    (Transparent.draw 4 9 0) 9 rfl rfl astray unaddressed_astray

open PendingSample in
/-- The forged response is refused, and so is the genuine one after it. -/
theorem forged_response_spoils :
    (pending.1.consumeResponse Transparent.crypto 1 genuine).2 = true ∧
      (pending.1.consumeResponse Transparent.crypto 1 forged).2 = false ∧
      ((pending.1.consumeResponse Transparent.crypto 1 forged).1.consumeResponse
        Transparent.crypto 1 genuine).2 = false := by
  decide +kernel

end WGPeer

end Sotoportego.WireGuard
