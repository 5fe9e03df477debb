import Sotoportego.Tailscale.ControlConn

/-!
# The control handshake

`NoiseIK`: the symmetric state and the four message functions of
`Noise_IK_25519_ChaChaPoly_BLAKE2s`, over the primitives of `WireGuardCrypto`.
-/

set_option autoImplicit false

namespace Sotoportego.Tailscale

open Octets WireGuard

def kProtocolName : Bytes := ascii "Noise_IK_25519_ChaChaPoly_BLAKE2s"

def kNoiseTagLen : Nat := 16

def kNoiseMsg1Overhead : Nat := 32 + (32 + 16) + 16

def kNoiseMsg2Overhead : Nat := 32 + 16

/-- `fCK`, `fH`, `fK`, `fHasKey` and `fN`. -/
structure SymmetricState where
  ck : Key := .zero 32
  h : Key := .zero 32
  k : Key := .zero 32
  hasKey : Bool := false
  n : UInt64 := 0
  deriving DecidableEq

namespace SymmetricState

def mixHash (crypto : Crypto) (data : Bytes) (state : SymmetricState) : SymmetricState :=
  { state with h := WireGuard.mixHash crypto state.h data }

/-- `_InitSymmetric`; the key that was there stays behind, unused. -/
def init (crypto : Crypto) (prologue : Bytes) (state : SymmetricState) : SymmetricState :=
  let h := crypto.hash kProtocolName
  ({ state with ck := h, h, hasKey := false, n := 0 } : SymmetricState).mixHash crypto prologue

def mixKey (crypto : Crypto) (input : Key) (state : SymmetricState) : SymmetricState :=
  let (ck, k) := kdf2 crypto state.ck input.bytes
  { state with ck, k, hasKey := true, n := 0 }

/-- A failed `AeadEncrypt` leaves no defined output. -/
def encryptAndHash (crypto : Crypto) (plain : Bytes) (state : SymmetricState) :
    Option (Bytes × SymmetricState) :=
  if state.hasKey then
    match aeadEncrypt crypto state.k state.n plain state.h.bytes with
    | some cipher => some (cipher, ({ state with n := state.n + 1 }).mixHash crypto cipher)
    | none => none
  else some (plain, state.mixHash crypto plain)

def decryptAndHash (crypto : Crypto) (cipher : Bytes) (state : SymmetricState) :
    Option (Bytes × SymmetricState) :=
  if state.hasKey then
    match aeadDecrypt crypto state.k state.n cipher state.h.bytes with
    | some plain => some (plain, ({ state with n := state.n + 1 }).mixHash crypto cipher)
    | none => none
  else some (cipher, state.mixHash crypto cipher)

end SymmetricState

structure NoiseIK where
  symmetric : SymmetricState := {}
  staticPriv : Key := .zero 32
  staticPub : Key := .zero 32
  ephemeralPriv : Key := .zero 32
  ephemeralPub : Key := .zero 32
  remoteStatic : Key := .zero 32
  remoteEphemeral : Key := .zero 32
  initiator : Bool := false
  deriving DecidableEq

namespace NoiseIK

def initInitiator (crypto : Crypto) (staticPriv staticPub remoteStaticPub : Key) (prologue : Bytes)
    (noise : NoiseIK) : NoiseIK :=
  { noise with
    initiator := true, staticPriv, staticPub, remoteStatic := remoteStaticPub,
    symmetric := (noise.symmetric.init crypto prologue).mixHash crypto remoteStaticPub.bytes }

def initResponder (crypto : Crypto) (staticPriv staticPub : Key) (prologue : Bytes)
    (noise : NoiseIK) : NoiseIK :=
  { noise with
    initiator := false, staticPriv, staticPub,
    symmetric := (noise.symmetric.init crypto prologue).mixHash crypto staticPub.bytes }

/-- `MixKey(Dh(priv, pub))`. -/
def mixDh (crypto : Crypto) (priv pub : Key) (state : SymmetricState) : Option SymmetricState :=
  (crypto.dh priv pub).map fun dh => state.mixKey crypto dh

/-- `ephemeral` is what `DhGenerate` gives. The objects that a failed call leaves are never
used, so `-1` is `none`; this holds of the four message functions. -/
def writeMessage1 (crypto : Crypto) (ephemeral : Option (Key × Key)) (payload : Bytes)
    (outCap : Nat) (noise : NoiseIK) : Option (Bytes × NoiseIK) :=
  if ¬ noise.initiator then none
  else if outCap < kNoiseMsg1Overhead + payload.length then none
  else do
    let (ephemeralPriv, ephemeralPub) ← ephemeral
    let state := noise.symmetric.mixHash crypto ephemeralPub.bytes
    let state ← mixDh crypto ephemeralPriv noise.remoteStatic state
    let (encStatic, state) ← state.encryptAndHash crypto noise.staticPub.bytes
    let state ← mixDh crypto noise.staticPriv noise.remoteStatic state
    let (encPayload, state) ← state.encryptAndHash crypto payload
    return (ephemeralPub.bytes ++ encStatic ++ encPayload,
      { noise with ephemeralPriv, ephemeralPub, symmetric := state })

def readMessage1 (crypto : Crypto) (input : Bytes) (payloadCap : Nat) (noise : NoiseIK) :
    Option (Bytes × NoiseIK) :=
  if noise.initiator then none
  else if input.length < 32 + 48 + kNoiseTagLen then none
  else do
    let remoteEphemeral := slice 32 input 0
    let state := noise.symmetric.mixHash crypto remoteEphemeral.bytes
    let state ← mixDh crypto noise.staticPriv remoteEphemeral state
    let (plain, state) ← state.decryptAndHash crypto (slice 48 input 32).bytes
    let remoteStatic := slice 32 plain 0
    let state ← mixDh crypto noise.staticPriv remoteStatic state
    let (payload, state) ← state.decryptAndHash crypto (input.drop 80)
    if payloadCap < payload.length then none
    else return (payload, { noise with remoteEphemeral, remoteStatic, symmetric := state })

def writeMessage2 (crypto : Crypto) (ephemeral : Option (Key × Key)) (payload : Bytes)
    (outCap : Nat) (noise : NoiseIK) : Option (Bytes × NoiseIK) :=
  if noise.initiator then none
  else if outCap < kNoiseMsg2Overhead + payload.length then none
  else do
    let (ephemeralPriv, ephemeralPub) ← ephemeral
    let state := noise.symmetric.mixHash crypto ephemeralPub.bytes
    let state ← mixDh crypto ephemeralPriv noise.remoteEphemeral state
    let state ← mixDh crypto ephemeralPriv noise.remoteStatic state
    let (encPayload, state) ← state.encryptAndHash crypto payload
    return (ephemeralPub.bytes ++ encPayload,
      { noise with ephemeralPriv, ephemeralPub, symmetric := state })

def readMessage2 (crypto : Crypto) (input : Bytes) (payloadCap : Nat) (noise : NoiseIK) :
    Option (Bytes × NoiseIK) :=
  if ¬ noise.initiator then none
  else if input.length < 32 + kNoiseTagLen then none
  else do
    let remoteEphemeral := slice 32 input 0
    let state := noise.symmetric.mixHash crypto remoteEphemeral.bytes
    let state ← mixDh crypto noise.ephemeralPriv remoteEphemeral state
    let state ← mixDh crypto noise.staticPriv remoteEphemeral state
    let (payload, state) ← state.decryptAndHash crypto (input.drop 32)
    if payloadCap < payload.length then none
    else return (payload, { noise with remoteEphemeral, symmetric := state })

/-- The initiator's view, on either side. -/
def split (crypto : Crypto) (noise : NoiseIK) : NoiseTransportKeys :=
  let (k1, k2) := kdf2 crypto noise.symmetric.ck []
  ⟨k1, k2⟩

end NoiseIK

end Sotoportego.Tailscale
