import Sotoportego.Tailscale.ControlClientProperties
import Sotoportego.Tailscale.NoiseOutput
import Sotoportego.WireGuard.Transparent

/-!
# How much a handshake message overwrites

The capacity of the payload buffer is compared after the payload has been decrypted into it. So
the calls stay inside the buffer exactly for the messages whose payload fits it, and for those
that fail before their payload is reached.
-/

set_option autoImplicit false

namespace Sotoportego.Tailscale

open Octets WireGuard

section Reading

variable {crypto : Crypto} {scribble : Scribble}

/-! ## The stores do not show in the results -/

theorem decryptAndHashInto_snd (state : SymmetricState) (cipher : Bytes) :
    (state.decryptAndHashInto crypto scribble cipher).2 = state.decryptAndHash crypto cipher := by
  unfold SymmetricState.decryptAndHashInto
  split
  · rfl
  · split
    · next keyed short =>
      have opened : aeadDecrypt crypto state.k state.n cipher state.h.bytes = none :=
        if_pos short
      rw [SymmetricState.decryptAndHash, if_pos (not_not.mp keyed), opened]
    · rfl

namespace NoiseIK

/-! ## The steps before the payload -/

/-- The state in which `ReadMessage1` decrypts the payload, when it gets that far. -/
def payloadState1 (crypto : Crypto) (input : Bytes) (noise : NoiseIK) : Option SymmetricState :=
  if noise.initiator ∨ input.length < 32 + 48 + kNoiseTagLen then none
  else do
    let state := noise.symmetric.mixHash crypto (slice 32 input 0 : Key).bytes
    let state ← mixDh crypto noise.staticPriv (slice 32 input 0) state
    let (plain, state) ← state.decryptAndHash crypto (slice 48 input 32).bytes
    mixDh crypto noise.staticPriv (slice 32 plain 0) state

def payloadState2 (crypto : Crypto) (input : Bytes) (noise : NoiseIK) : Option SymmetricState :=
  if ¬ noise.initiator ∨ input.length < 32 + kNoiseTagLen then none
  else do
    let state := noise.symmetric.mixHash crypto (slice 32 input 0 : Key).bytes
    let state ← mixDh crypto noise.ephemeralPriv (slice 32 input 0) state
    mixDh crypto noise.staticPriv (slice 32 input 0) state

theorem mixDh_hasKey {priv pub : Key} {state next : SymmetricState}
    (mixed : mixDh crypto priv pub state = some next) : next.hasKey = true := by
  obtain ⟨dh, -, rfl⟩ := Option.map_eq_some_iff.mp mixed
  rfl

theorem payloadState1_some {input : Bytes} {noise : NoiseIK} {state : SymmetricState}
    (reached : payloadState1 crypto input noise = some state) :
    state.hasKey = true ∧ 32 + 48 + kNoiseTagLen ≤ input.length := by
  unfold payloadState1 at reached
  split at reached
  · cases reached
  · next checked =>
    obtain ⟨first, -, reached⟩ := Option.bind_eq_some_iff.mp reached
    obtain ⟨opened, -, reached⟩ := Option.bind_eq_some_iff.mp reached
    exact ⟨mixDh_hasKey reached, Nat.le_of_not_lt fun short => checked (.inr short)⟩

theorem payloadState2_some {input : Bytes} {noise : NoiseIK} {state : SymmetricState}
    (reached : payloadState2 crypto input noise = some state) :
    state.hasKey = true ∧ 32 + kNoiseTagLen ≤ input.length := by
  unfold payloadState2 at reached
  split at reached
  · cases reached
  · next checked =>
    obtain ⟨first, -, reached⟩ := Option.bind_eq_some_iff.mp reached
    exact ⟨mixDh_hasKey reached, Nat.le_of_not_lt fun short => checked (.inr short)⟩

/-- Only the payload is stored at the output, and the result is that of `readMessage1`. -/
theorem readMessage1Into_eq (input : Bytes) (payloadCap : Nat) (noise : NoiseIK) :
    noise.readMessage1Into crypto scribble input payloadCap =
      (match payloadState1 crypto input noise with
        | none => 0
        | some state => (state.decryptAndHashInto crypto scribble (input.drop 80)).1,
        noise.readMessage1 crypto input payloadCap) := by
  unfold readMessage1Into payloadState1 readMessage1
  by_cases role : noise.initiator = true
  · rw [if_pos role, if_pos (.inl role), if_pos role]
  · by_cases short : input.length < 32 + 48 + kNoiseTagLen
    · rw [if_neg role, if_pos short, if_pos (.inr short), if_neg role, if_pos short]
    · rw [if_neg role, if_neg short, if_neg (not_or.mpr ⟨role, short⟩), if_neg role,
        if_neg short]
      simp only [decryptAndHashInto_snd, Option.bind_eq_bind]
      cases mixDh crypto noise.staticPriv (slice 32 input 0)
          (noise.symmetric.mixHash crypto (slice 32 input 0 : Key).bytes) with
      | none => rfl
      | some state =>
          simp only [Option.bind_some]
          cases state.decryptAndHash crypto (slice 48 input 32).bytes with
          | none => rfl
          | some opened =>
              simp only [Option.bind_some]
              cases mixDh crypto noise.staticPriv (slice 32 opened.1 0) opened.2 with
              | none => rfl
              | some state =>
                  simp only [Option.bind_some, ← @decryptAndHashInto_snd crypto scribble]
                  cases state.decryptAndHashInto crypto scribble (input.drop 80) with
                  | mk stored payload =>
                      cases payload with
                      | none => rfl
                      | some payload =>
                          simp only [Option.bind_some]
                          split
                          · rfl
                          · rfl

theorem readMessage2Into_eq (input : Bytes) (payloadCap : Nat) (noise : NoiseIK) :
    noise.readMessage2Into crypto scribble input payloadCap =
      (match payloadState2 crypto input noise with
        | none => 0
        | some state => (state.decryptAndHashInto crypto scribble (input.drop 32)).1,
        noise.readMessage2 crypto input payloadCap) := by
  unfold readMessage2Into payloadState2 readMessage2
  by_cases role : noise.initiator = true
  · have other : ¬ ¬ noise.initiator = true := not_not.mpr role
    by_cases short : input.length < 32 + kNoiseTagLen
    · rw [if_neg other, if_pos short, if_pos (.inr short), if_neg other, if_pos short]
    · rw [if_neg other, if_neg short, if_neg (not_or.mpr ⟨other, short⟩), if_neg other,
        if_neg short]
      simp only [Option.bind_eq_bind]
      cases mixDh crypto noise.ephemeralPriv (slice 32 input 0)
          (noise.symmetric.mixHash crypto (slice 32 input 0 : Key).bytes) with
      | none => rfl
      | some state =>
          simp only [Option.bind_some]
          cases mixDh crypto noise.staticPriv (slice 32 input 0) state with
          | none => rfl
          | some state =>
              simp only [Option.bind_some, ← @decryptAndHashInto_snd crypto scribble]
              cases state.decryptAndHashInto crypto scribble (input.drop 32) with
              | mk stored payload =>
                  cases payload with
                  | none => rfl
                  | some payload =>
                      simp only [Option.bind_some]
                      split
                      · rfl
                      · rfl
  · rw [if_pos role, if_pos (.inl role), if_pos role]

/-! ## The bound -/

/-- The largest store there may be. -/
def fullScribble : Scribble := fun _ _ cipher _ => cipher.length - kNoiseTagLen

theorem decryptAndHashInto_bounded_iff (state : SymmetricState) (keyed : state.hasKey = true)
    (cipher : Bytes) (cap : Nat) :
    (∀ scribble : Scribble, scribble.Within →
        (state.decryptAndHashInto crypto scribble cipher).1 ≤ cap) ↔
      cipher.length ≤ kNoiseTagLen + cap := by
  unfold SymmetricState.decryptAndHashInto
  rw [keyed]
  simp only [not_true_eq_false, if_false]
  by_cases short : cipher.length < kNoiseTagLen
  · simp only [if_pos short, Nat.zero_le, implies_true, true_iff]
    omega
  · simp only [if_neg short]
    constructor
    · intro bounded
      have most := bounded fullScribble (fun _ _ _ _ => Nat.le_refl _)
      rw [fullScribble] at most
      omega
    · intro fits scribble within
      exact Nat.le_trans (within _ _ _ _) (by omega)

theorem readMessage1_bounded_iff (input : Bytes) (payloadCap : Nat) (noise : NoiseIK) :
    (∀ scribble : Scribble, scribble.Within →
        (noise.readMessage1Into crypto scribble input payloadCap).1 ≤ payloadCap) ↔
      payloadState1 crypto input noise = none ∨ input.length ≤ 96 + payloadCap := by
  simp only [readMessage1Into_eq]
  cases reached : payloadState1 crypto input noise with
  | none => simp
  | some state =>
      obtain ⟨keyed, long⟩ := payloadState1_some reached
      simp only [decryptAndHashInto_bounded_iff state keyed, List.length_drop, reduceCtorEq, false_or]
      rw [kNoiseTagLen] at long ⊢
      omega

theorem readMessage2_bounded_iff (input : Bytes) (payloadCap : Nat) (noise : NoiseIK) :
    (∀ scribble : Scribble, scribble.Within →
        (noise.readMessage2Into crypto scribble input payloadCap).1 ≤ payloadCap) ↔
      payloadState2 crypto input noise = none ∨ input.length ≤ 48 + payloadCap := by
  simp only [readMessage2Into_eq]
  cases reached : payloadState2 crypto input noise with
  | none => simp
  | some state =>
      obtain ⟨keyed, long⟩ := payloadState2_some reached
      simp only [decryptAndHashInto_bounded_iff state keyed, List.length_drop, reduceCtorEq, false_or]
      rw [kNoiseTagLen] at long ⊢
      omega

end NoiseIK

end Reading

namespace ControlClient

/-! ## The handshake with the control server -/

/-- `Handshake` depends on `ReadMessage2` at the payload of the response alone. -/
theorem handshake_reads {first second : Bytes → Option NoiseTransportKeys}
    {client : ControlClient}
    (same : ∀ payload ∈ client.responsePayload, first payload = second payload) :
    client.handshake first = client.handshake second := by
  unfold handshake
  unfold responsePayload at same
  cases answered : client.readUpgradeResponse kUpgradeBodySize with
  | mk result next =>
      rw [answered] at same
      cases result with
      | error status => rfl
      | ok body =>
          simp only at same ⊢
          cases decoded : decodeRecordHeader body with
          | none => rfl
          | some header =>
              obtain ⟨type, payloadLen⟩ := header
              rw [decoded] at same
              simp only at same ⊢
              by_cases failed : type = controlMsgError
              · rw [if_pos failed, if_pos failed]
              · rw [if_neg failed] at same
                rw [if_neg failed, if_neg failed]
                by_cases other : type ≠ controlMsgResponse
                · rw [if_pos other, if_pos other]
                · rw [if_neg other] at same
                  rw [if_neg other, if_neg other]
                  by_cases truncated : body.length < kRecordHeaderLen + payloadLen
                  · rw [if_pos truncated, if_pos truncated]
                  · rw [if_neg truncated] at same
                    rw [if_neg truncated, if_neg truncated, same _ rfl]

/-- The body holds a record of up to 253 octets. -/
theorem responsePayload_length {client : ControlClient} {payload : Bytes}
    (response : client.responsePayload = some payload) : payload.length ≤ 253 := by
  unfold responsePayload at response
  cases answered : client.readUpgradeResponse kUpgradeBodySize with
  | mk result next =>
      rw [answered] at response
      cases result with
      | error status => cases response
      | ok body =>
          obtain ⟨position, -, taken, -⟩ := readUpgradeResponse_ok answered
          have bounded : body.length ≤ 256 := by
            rw [taken, List.length_take]
            exact Nat.min_le_left _ _
          simp only at response
          cases decoded : decodeRecordHeader body with
          | none =>
              rw [decoded] at response
              cases response
          | some header =>
              rw [decoded] at response
              simp only at response
              split at response
              · cases response
              · split at response
                · cases response
                · split at response
                  · cases response
                  · cases response
                    rw [List.length_take, List.length_drop, kRecordHeaderLen]
                    omega

theorem hsPayload_bounded_iff (crypto : Crypto) (noise : NoiseIK) (client : ControlClient) :
    (∀ scribble : Scribble, scribble.Within →
        client.hsPayloadStored crypto scribble noise ≤ kHsPayloadSize) ↔
      ∀ payload ∈ client.responsePayload,
        NoiseIK.payloadState2 crypto payload noise = none ∨ payload.length ≤ 112 := by
  unfold hsPayloadStored
  cases response : client.responsePayload with
  | none => simp
  | some payload =>
      simp only [NoiseIK.readMessage2_bounded_iff, Option.mem_some_iff, forall_eq', kHsPayloadSize]

end ControlClient

/-- The three buffers hold exactly for messages whose payload fits, and for those that fail
before it is reached. -/
theorem payload_bounded_iff (crypto : Crypto) (noise : NoiseIK) :
    (∀ input payloadCap,
      (∀ scribble : Scribble, scribble.Within →
          (noise.readMessage1Into crypto scribble input payloadCap).1 ≤ payloadCap) ↔
        NoiseIK.payloadState1 crypto input noise = none ∨ input.length ≤ 96 + payloadCap) ∧
    (∀ input payloadCap,
      (∀ scribble : Scribble, scribble.Within →
          (noise.readMessage2Into crypto scribble input payloadCap).1 ≤ payloadCap) ↔
        NoiseIK.payloadState2 crypto input noise = none ∨ input.length ≤ 48 + payloadCap) ∧
    ∀ client : ControlClient,
      (∀ scribble : Scribble, scribble.Within →
          client.hsPayloadStored crypto scribble noise ≤ ControlClient.kHsPayloadSize) ↔
        ∀ payload ∈ client.responsePayload,
          NoiseIK.payloadState2 crypto payload noise = none ∨ payload.length ≤ 112 :=
  ⟨fun input payloadCap => NoiseIK.readMessage1_bounded_iff input payloadCap noise,
    fun input payloadCap => NoiseIK.readMessage2_bounded_iff input payloadCap noise,
    ControlClient.hsPayload_bounded_iff crypto noise⟩

/-! A response of 253 octets that was never authenticated. -/

namespace OutputSample

def noise : NoiseIK := { initiator := true }

def payload : Bytes := List.replicate 253 7

def client : ControlClient where
  tls := [.chunk 72 (ascii "TTP/1.1 101 \r\n\r\n" ++ ([controlMsgResponse, 0, 253] ++ payload))]

theorem response : client.responsePayload = some payload := by decide +kernel

theorem reached : NoiseIK.payloadState2 Transparent.crypto payload noise ≠ none := by
  decide +kernel

end OutputSample

theorem hsPayload_overwritten :
    ¬ ∀ (crypto : Crypto) (scribble : Scribble) (noise : NoiseIK) (client : ControlClient),
      scribble.Within → client.hsPayloadStored crypto scribble noise ≤ ControlClient.kHsPayloadSize := by
  intro claim
  have held := (ControlClient.hsPayload_bounded_iff Transparent.crypto OutputSample.noise
    OutputSample.client).mp fun scribble within => claim _ scribble _ _ within
  obtain failed | short := held OutputSample.payload OutputSample.response
  · exact OutputSample.reached failed
  · rw [OutputSample.payload, List.length_replicate] at short
    omega

end Sotoportego.Tailscale
