import Sotoportego.WireGuard.Backend
import Sotoportego.WireGuard.Transparent

/-!
# A session across a rekey that fails

`_PerformHandshake` writes the handshake into fields of its own, but takes the receiver index
from a response that it has not authenticated yet. A failed call leaves the session as it was
exactly when no such response brings another index.
-/

set_option autoImplicit false

namespace Sotoportego.WireGuard

open Octets

namespace Backend

/-- What the packets of the live session depend on. -/
structure Session where
  sendKey : Key
  recvKey : Key
  receiverIndex : UInt32
  sendCounter : UInt64
  replay : ReplayWindow

def session (backend : Backend) : Session where
  sendKey := backend.sendKey
  recvKey := backend.recvKey
  receiverIndex := backend.receiverIndex
  sendCounter := backend.sendCounter
  replay := backend.replay

theorem receiverIndex_session (backend : Backend) :
    backend.session.receiverIndex = backend.receiverIndex := rfl

/-- The session goes on, and its packets are those that it would have sent before. -/
structure Undisturbed (crypto : Crypto) (before after : Backend) : Prop where
  session : after.session = before.session
  packets : ∀ plain, (after.encapsulate crypto plain).2 = (before.encapsulate crypto plain).2

/-- The datagram the call takes for the response, once its initiation is out. -/
def answer (crypto : Crypto) (exchange : Exchange) (backend : Backend) : Option Bytes :=
  if (backend.buildInitiation crypto exchange).2.isSome ∧ exchange.sent = true then
    awaitResponse 64 exchange.received
  else none

/-- A response to the index drawn for this call names the index that the session has. -/
def Harmless (crypto : Crypto) (exchange : Exchange) (backend : Backend) : Prop :=
  ∀ resp ∈ backend.answer crypto exchange, exchange.draw.index = some (load32Le resp 8) →
    load32Le resp 4 = backend.receiverIndex

section Handshake

variable {crypto : Crypto} {exchange : Exchange} {backend : Backend}

/-- The initiation touches the handshake's fields alone, and goes out under the drawn index. -/
theorem buildInitiation_session (crypto : Crypto) (exchange : Exchange) (backend : Backend) :
    (backend.buildInitiation crypto exchange).1.session = backend.session ∧
      ((backend.buildInitiation crypto exchange).2.isSome = true →
        exchange.draw.index = some (backend.buildInitiation crypto exchange).1.senderIndex) := by
  rw [buildInitiation]
  cases crypto.dhPublic backend.privateKey with
  | none => exact ⟨rfl, nofun⟩
  | some staticPub =>
      cases exchange.draw.ephemeral with
      | none => exact ⟨rfl, nofun⟩
      | some ephemeral =>
          dsimp only
          cases crypto.dh ephemeral.1 backend.peerPublicKey with
          | none => exact ⟨rfl, nofun⟩
          | some shared =>
              dsimp only
              split
              · exact ⟨rfl, nofun⟩
              · cases crypto.dh backend.privateKey backend.peerPublicKey with
                | none => exact ⟨rfl, nofun⟩
                | some static =>
                    dsimp only
                    split
                    · exact ⟨rfl, nofun⟩
                    · cases exchange.draw.index with
                      | none => exact ⟨rfl, nofun⟩
                      | some index => exact ⟨rfl, fun _ => rfl⟩

/-- A response under our index leaves its sender index behind, authentic or not. -/
theorem consumeResponse_failed {resp : Bytes}
    (failed : (backend.consumeResponse crypto resp).2 = false) :
    (backend.consumeResponse crypto resp).1.session =
      if load32Le resp 8 = backend.senderIndex then
        { backend.session with receiverIndex := load32Le resp 4 }
      else backend.session := by
  by_cases ours : load32Le resp 8 = backend.senderIndex
  · rw [consumeResponse, if_neg (not_not_intro ours)] at failed ⊢
    rw [if_pos ours]
    dsimp only at failed ⊢
    cases ephemeral : crypto.dh backend.ephemeralPrivate (slice 32 resp 12) with
    | none => rfl
    | some shared =>
        rw [ephemeral] at failed
        dsimp only at failed ⊢
        cases static : crypto.dh backend.privateKey (slice 32 resp 12) with
        | none => rfl
        | some other =>
            rw [static] at failed
            dsimp only at failed ⊢
            split at failed
            · rfl
            · cases failed
  · rw [consumeResponse, if_pos ours, if_neg ours]

theorem performHandshake_failed (failed : (backend.performHandshake crypto exchange).2 = false) :
    (backend.performHandshake crypto exchange).1.session = backend.session ↔
      backend.Harmless crypto exchange := by
  obtain ⟨kept, drawn⟩ := buildInitiation_session crypto exchange backend
  rw [Harmless, answer]
  rw [performHandshake] at failed ⊢
  cases built : backend.buildInitiation crypto exchange with
  | mk next msg =>
      rw [built] at kept drawn failed
      cases msg with
      | none => simp [kept]
      | some msg =>
          cases sent : exchange.sent with
          | false => simp [kept]
          | true =>
              have reached : exchange.draw.index = some next.senderIndex := drawn rfl
              rw [if_pos ⟨rfl, rfl⟩]
              simp only [sent, Bool.true_eq_false, if_false] at failed ⊢
              cases awaited : awaitResponse 64 exchange.received with
              | none => simp [kept]
              | some resp =>
                  rw [awaited] at failed
                  have session := consumeResponse_failed failed
                  rw [kept] at session
                  rw [session, reached]
                  by_cases ours : load32Le resp 8 = next.senderIndex
                  · rw [if_pos ours]
                    constructor
                    · rintro same _ ⟨⟩ -
                      exact congrArg Session.receiverIndex same
                    · intro harmless
                      rw [harmless resp rfl (congrArg some ours.symm)]
                      rfl
                  · rw [if_neg ours]
                    refine iff_of_true rfl ?_
                    rintro _ ⟨⟩ same
                    exact absurd (Option.some.inj same).symm ours

theorem encapsulate_session {before after : Backend} (same : after.session = before.session)
    (plain : Bytes) : (after.encapsulate crypto plain).2 = (before.encapsulate crypto plain).2 := by
  have sendKey : after.sendKey = before.sendKey := congrArg Session.sendKey same
  have receiverIndex : after.receiverIndex = before.receiverIndex :=
    congrArg Session.receiverIndex same
  have sendCounter : after.sendCounter = before.sendCounter := congrArg Session.sendCounter same
  simp only [encapsulate, sendKey, receiverIndex, sendCounter]
  split
  · rfl
  · cases aeadEncrypt crypto before.sendKey before.sendCounter
        (plain ++ List.replicate (WGPeer.paddedLength plain.length - plain.length) 0) [] with
    | none => rfl
    | some cipher => rfl

end Handshake

/-- The rekey at the end of an iteration, when it is due and its handshake fails: the session
    goes on undisturbed exactly when no response to its index brings another index. -/
theorem failed_rekey_undisturbed_iff (crypto : Crypto) (reader : Reader) (round : Round)
    (due : round.now - reader.handshakeTime ≥ kRekeyAfterTime ∧ round.stopAtRekey = false)
    (failed : (reader.backend.performHandshake crypto round.exchange).2 = false) :
    Undisturbed crypto reader.backend (reader.rekey crypto round).1.backend ↔
      reader.backend.Harmless crypto round.exchange := by
  have left : (reader.rekey crypto round).1.backend =
      (reader.backend.performHandshake crypto round.exchange).1 := by
    rw [Reader.rekey, if_pos due]
    cases handshake : reader.backend.performHandshake crypto round.exchange with
    | mk backend rekeyed =>
        rw [handshake] at failed
        cases failed
        dsimp only
        split
        · rfl
        · rfl
  rw [left, ← performHandshake_failed failed]
  constructor
  · exact Undisturbed.session
  · exact fun same => ⟨same, encapsulate_session same⟩

namespace RekeySample

/-- A session under the indices 9 and 5. -/
def backend : Backend where
  privateKey := (Transparent.pair 1).priv
  peerPublicKey := (Transparent.pair 2).pub
  presharedKey := none
  senderIndex := 5
  receiverIndex := 9
  sendKey := (Transparent.pair 6).priv
  recvKey := (Transparent.pair 7).priv
  sendCounter := 3

def reader : Reader where
  backend
  phase := .running
  keepalive := 0

/-- A response to the index 7 without any key behind it. -/
def forged : Bytes :=
  [2, 0, 0, 0] ++ (store32Le 8 ++ (store32Le 7 ++ List.replicate 80 0))

def round (received : List (Option Bytes)) : Round where
  stopRequested := false
  select := .ready none none
  tunSent := false
  sendTime := 0
  now := kRekeyAfterTime
  stopAtRekey := false
  exchange := { draw := Transparent.draw 3 7 0, sent := true, received }
  rekeyTime := 0

end RekeySample

open RekeySample in
/-- A data packet and then nothing. -/
theorem failed_rekey_undisturbed_timeout :
    Undisturbed Transparent.crypto reader.backend
        (reader.rekey Transparent.crypto (round [some [4, 0, 0, 0], none])).1.backend ↔
      reader.backend.Harmless Transparent.crypto (round [some [4, 0, 0, 0], none]).exchange :=
  failed_rekey_undisturbed_iff Transparent.crypto reader (round [some [4, 0, 0, 0], none])
    (by decide) (by decide +kernel)

open RekeySample in
/-- The forged response fails to authenticate, and the packets after it carry its index. -/
theorem failed_rekey_moves_index :
    ¬ ∀ (crypto : Crypto), crypto.Lawful → ∀ (reader : Reader) (round : Round),
      round.now - reader.handshakeTime ≥ kRekeyAfterTime ∧ round.stopAtRekey = false →
      (reader.backend.performHandshake crypto round.exchange).2 = false →
      Undisturbed crypto reader.backend (reader.rekey crypto round).1.backend := by
  intro claim
  have evaluated : (reader.backend.performHandshake Transparent.crypto
        (round [some forged]).exchange).2 = false ∧
      (reader.rekey Transparent.crypto (round [some forged])).1.backend.receiverIndex = 8 := by
    decide +kernel
  have undisturbed := claim Transparent.crypto Transparent.lawful reader (round [some forged])
    (by decide) evaluated.1
  have same := congrArg Session.receiverIndex undisturbed.session
  rw [receiverIndex_session, evaluated.2] at same
  exact absurd same (by decide)

end Backend

end Sotoportego.WireGuard
