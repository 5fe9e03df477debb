import Sotoportego.Tailscale.ControlClient
import Sotoportego.Tailscale.Noise

/-!
# What the handshake writes to the payload buffer

The reading half of `NoiseIK` once more, with the number of octets that each call stores at its
output. `AeadDecrypt` decrypts before it verifies, so it may leave octets behind for a
ciphertext that it rejects.
-/

set_option autoImplicit false

namespace Sotoportego.Tailscale

open Octets WireGuard

/-- How many octets `AeadDecrypt` stores for a key, a counter, a ciphertext and its associated
data. -/
abbrev Scribble := Key → UInt64 → Bytes → Bytes → Nat

/-- It stores no more than the plaintext. -/
def Scribble.Within (scribble : Scribble) : Prop :=
  ∀ key counter cipher aad, scribble key counter cipher aad ≤ cipher.length - kNoiseTagLen

variable (crypto : Crypto) (scribble : Scribble)

/-- `_DecryptAndHash`: the octets stored at `out`, and what it returns. -/
def SymmetricState.decryptAndHashInto (cipher : Bytes) (state : SymmetricState) :
    Nat × Option (Bytes × SymmetricState) :=
  if ¬ state.hasKey then (cipher.length, state.decryptAndHash crypto cipher)
  else if cipher.length < kNoiseTagLen then (0, none)
  else (scribble state.k state.n cipher state.h.bytes, state.decryptAndHash crypto cipher)

namespace NoiseIK

/-- `ReadMessage1`: the octets stored at `payloadOut`, and what it returns. -/
def readMessage1Into (input : Bytes) (payloadCap : Nat) (noise : NoiseIK) :
    Nat × Option (Bytes × NoiseIK) :=
  if noise.initiator then (0, none)
  else if input.length < 32 + 48 + kNoiseTagLen then (0, none)
  else
    let remoteEphemeral := slice 32 input 0
    let state := noise.symmetric.mixHash crypto remoteEphemeral.bytes
    match mixDh crypto noise.staticPriv remoteEphemeral state with
    | none => (0, none)
    | some state =>
        -- The static key goes to `fRemoteStatic`, not to the payload.
        match (state.decryptAndHashInto crypto scribble (slice 48 input 32).bytes).2 with
        | none => (0, none)
        | some (plain, state) =>
            let remoteStatic := slice 32 plain 0
            match mixDh crypto noise.staticPriv remoteStatic state with
            | none => (0, none)
            | some state =>
                match state.decryptAndHashInto crypto scribble (input.drop 80) with
                | (stored, none) => (stored, none)
                | (stored, some (payload, state)) =>
                    if payloadCap < payload.length then (stored, none)
                    else
                      (stored,
                        some (payload, { noise with remoteEphemeral, remoteStatic, symmetric := state }))

def readMessage2Into (input : Bytes) (payloadCap : Nat) (noise : NoiseIK) :
    Nat × Option (Bytes × NoiseIK) :=
  if ¬ noise.initiator then (0, none)
  else if input.length < 32 + kNoiseTagLen then (0, none)
  else
    let remoteEphemeral := slice 32 input 0
    let state := noise.symmetric.mixHash crypto remoteEphemeral.bytes
    match mixDh crypto noise.ephemeralPriv remoteEphemeral state with
    | none => (0, none)
    | some state =>
        match mixDh crypto noise.staticPriv remoteEphemeral state with
        | none => (0, none)
        | some state =>
            match state.decryptAndHashInto crypto scribble (input.drop 32) with
            | (stored, none) => (stored, none)
            | (stored, some (payload, state)) =>
                if payloadCap < payload.length then (stored, none)
                else (stored, some (payload, { noise with remoteEphemeral, symmetric := state }))

end NoiseIK

namespace ControlClient

/-- The size of `hsPayload`. -/
def kHsPayloadSize : Nat := 64

/-- The record payload that `Handshake` hands to `ReadMessage2`, if it gets that far. -/
def responsePayload (client : ControlClient) : Option Bytes :=
  match (client.readUpgradeResponse kUpgradeBodySize).1 with
  | .error _ => none
  | .ok body =>
      match decodeRecordHeader body with
      | none => none
      | some (type, payloadLen) =>
          if type = controlMsgError then none
          else if type ≠ controlMsgResponse then none
          else if body.length < kRecordHeaderLen + payloadLen then none
          else some ((body.drop kRecordHeaderLen).take payloadLen)

/-- The octets that `Handshake` stores in `hsPayload`. -/
def hsPayloadStored (noise : NoiseIK) (client : ControlClient) : Nat :=
  match client.responsePayload with
  | none => 0
  | some payload => (noise.readMessage2Into crypto scribble payload kHsPayloadSize).1

end ControlClient

end Sotoportego.Tailscale
