import Sotoportego.Tailscale.Noise
import Sotoportego.WireGuard.Transparent

/-!
# Agreement of the control handshake

Both sides walk through the same symmetric states: what one encrypts and absorbs, the other
decrypts and absorbs.
-/

set_option autoImplicit false

namespace Sotoportego.Tailscale

open Octets WireGuard

namespace SymmetricState

variable {crypto : Crypto} {state next : SymmetricState} {plain cipher : Bytes}

/-- The chaining key and the hash are all that `MixKey` keeps. -/
theorem mixKey_congr {left right : SymmetricState} (ck : left.ck = right.ck)
    (h : left.h = right.h) (input : Key) : left.mixKey crypto input = right.mixKey crypto input := by
  simp only [mixKey, ck, h]

theorem encryptAndHash_total (lawful : crypto.Lawful) (plain : Bytes) (state : SymmetricState) :
    ∃ cipher next, state.encryptAndHash crypto plain = some (cipher, next) := by
  rw [encryptAndHash]
  split
  next =>
    obtain ⟨cipher, sealed, -⟩ := aeadEncrypt_total lawful state.k state.n plain state.h.bytes
    rw [sealed]
    exact ⟨_, _, rfl⟩
  next => exact ⟨_, _, rfl⟩

/-- The receiver absorbs what the sender absorbed. -/
theorem decryptAndHash_encryptAndHash (lawful : crypto.Lawful)
    (sealed : state.encryptAndHash crypto plain = some (cipher, next)) :
    state.decryptAndHash crypto cipher = some (plain, next) := by
  rw [encryptAndHash] at sealed
  rw [decryptAndHash]
  cases keyed : state.hasKey with
  | false =>
      rw [keyed] at sealed
      cases sealed
      rfl
  | true =>
      rw [keyed, if_pos rfl] at sealed
      rw [if_pos rfl]
      cases cipherText : aeadEncrypt crypto state.k state.n plain state.h.bytes with
      | none =>
          rw [cipherText] at sealed
          cases sealed
      | some written =>
          rw [cipherText] at sealed
          cases sealed
          rw [aeadDecrypt_encrypt lawful cipherText]

theorem length_encryptAndHash (lawful : crypto.Lawful) (keyed : state.hasKey = true)
    (sealed : state.encryptAndHash crypto plain = some (cipher, next)) :
    cipher.length = plain.length + 16 := by
  rw [encryptAndHash, if_pos keyed] at sealed
  cases cipherText : aeadEncrypt crypto state.k state.n plain state.h.bytes with
  | none =>
      rw [cipherText] at sealed
      cases sealed
  | some written =>
      rw [cipherText] at sealed
      cases sealed
      exact aeadEncrypt_length lawful cipherText

end SymmetricState

namespace NoiseIK

section Layout

variable {ephemeral : Key} {encStatic encPayload : Bytes}

theorem slice_ephemeral (rest : Bytes) : slice 32 (ephemeral.bytes ++ rest) 0 = ephemeral :=
  slice_bytes_append ephemeral rest

theorem slice_static (size : encStatic.length = 48) :
    (slice 48 (ephemeral.bytes ++ encStatic ++ encPayload) 32).bytes = encStatic := by
  have placed := slice_placed 32 ephemeral.bytes ephemeral.length_bytes ⟨encStatic, size⟩ encPayload
  rw [← List.append_assoc] at placed
  rw [placed]

theorem drop_static (size : encStatic.length = 48) :
    (ephemeral.bytes ++ encStatic ++ encPayload).drop 80 = encPayload := by
  have front : (ephemeral.bytes ++ encStatic).length = 80 := by
    rw [List.length_append, ephemeral.length_bytes, size]
  exact List.drop_left' front

theorem drop_ephemeral : (ephemeral.bytes ++ encPayload).drop 32 = encPayload :=
  List.drop_left' ephemeral.length_bytes

end Layout

theorem mixDh_of_dh {crypto : Crypto} {priv pub shared : Key} (state : SymmetricState)
    (agreed : crypto.dh priv pub = some shared) :
    mixDh crypto priv pub state = some (state.mixKey crypto shared) := by
  rw [mixDh, agreed]
  rfl

section Agreement

variable {crypto : Crypto} (initiator responder ephemeral : KeyPair crypto)

/-- The two sides before message 1. -/
structure Started (left right : NoiseIK) : Prop where
  ck : left.symmetric.ck = right.symmetric.ck
  h : left.symmetric.h = right.symmetric.h
  left_initiator : left.initiator = true
  left_priv : left.staticPriv = initiator.priv
  left_pub : left.staticPub = initiator.pub
  left_remote : left.remoteStatic = responder.pub
  right_initiator : right.initiator = false
  right_priv : right.staticPriv = responder.priv

/-- The two sides between the messages. -/
structure Acquainted (left right : NoiseIK) : Prop where
  symmetric : left.symmetric = right.symmetric
  left_initiator : left.initiator = true
  left_priv : left.staticPriv = initiator.priv
  left_ephemeral : left.ephemeralPriv = ephemeral.priv
  right_initiator : right.initiator = false
  right_remote : right.remoteStatic = initiator.pub
  right_ephemeral : right.remoteEphemeral = ephemeral.pub

variable {initiator responder ephemeral}

theorem started_init (left right : NoiseIK) (prologue : Bytes) :
    Started initiator responder
      (left.initInitiator crypto initiator.priv initiator.pub responder.pub prologue)
      (right.initResponder crypto responder.priv responder.pub prologue) :=
  ⟨rfl, rfl, rfl, rfl, rfl, rfl, rfl, rfl⟩

theorem message1_read (lawful : crypto.Lawful) {left right : NoiseIK}
    (started : Started initiator responder left right) {payload : Bytes} {outCap payloadCap : Nat}
    (room : kNoiseMsg1Overhead + payload.length ≤ outCap) (cap : payload.length ≤ payloadCap) :
    ∃ msg left' right',
      left.writeMessage1 crypto (some (ephemeral.priv, ephemeral.pub)) payload outCap =
        some (msg, left') ∧
      right.readMessage1 crypto msg payloadCap = some (payload, right') ∧
      Acquainted initiator ephemeral left' right' := by
  obtain ⟨es, leftEs, rightEs⟩ :=
    lawful.dh_agree _ _ _ _ ephemeral.valid responder.valid
  obtain ⟨ss, leftSs, rightSs⟩ :=
    lawful.dh_agree _ _ _ _ initiator.valid responder.valid
  let absorbed := left.symmetric.mixHash crypto ephemeral.pub.bytes
  obtain ⟨encStatic, second, staticSealed⟩ := SymmetricState.encryptAndHash_total lawful
    initiator.pub.bytes (absorbed.mixKey crypto es)
  obtain ⟨encPayload, third, payloadSealed⟩ := SymmetricState.encryptAndHash_total lawful
    payload (second.mixKey crypto ss)
  have staticSize := SymmetricState.length_encryptAndHash lawful rfl staticSealed
  have payloadSize := SymmetricState.length_encryptAndHash lawful rfl payloadSealed
  rw [Buffer.length_bytes] at staticSize
  have same : (right.symmetric.mixHash crypto ephemeral.pub.bytes).mixKey crypto es =
      absorbed.mixKey crypto es := by
    have ck : (right.symmetric.mixHash crypto ephemeral.pub.bytes).ck = absorbed.ck :=
      started.ck.symm
    refine SymmetricState.mixKey_congr ck ?_ es
    simp only [absorbed, SymmetricState.mixHash, started.h]
  refine ⟨ephemeral.pub.bytes ++ encStatic ++ encPayload,
    { left with ephemeralPriv := ephemeral.priv, ephemeralPub := ephemeral.pub, symmetric := third },
    { right with
      remoteEphemeral := ephemeral.pub, remoteStatic := initiator.pub, symmetric := third },
    ?_, ?_, ?_⟩
  · rw [writeMessage1, if_neg (not_not_intro started.left_initiator), if_neg (Nat.not_lt.mpr room)]
    simp only [Option.bind_eq_bind, Option.bind_some, started.left_priv, started.left_pub,
      started.left_remote, mixDh_of_dh _ leftEs, mixDh_of_dh _ leftSs]
    rw [staticSealed]
    simp only [Option.bind_some]
    rw [payloadSealed]
    rfl
  · have long : ¬ (ephemeral.pub.bytes ++ encStatic ++ encPayload).length <
        32 + 48 + kNoiseTagLen := by
      rw [List.length_append, List.length_append, Buffer.length_bytes, staticSize, payloadSize,
        kNoiseTagLen]
      omega
    have front : slice 32 (ephemeral.pub.bytes ++ encStatic ++ encPayload) 0 = ephemeral.pub := by
      rw [List.append_assoc]
      exact slice_ephemeral _
    rw [readMessage1, if_neg (started.right_initiator ▸ Bool.false_ne_true), if_neg long]
    simp only [Option.bind_eq_bind, Option.bind_some, front, started.right_priv,
      mixDh_of_dh _ rightEs, same, slice_static staticSize, drop_static staticSize]
    rw [SymmetricState.decryptAndHash_encryptAndHash lawful staticSealed]
    simp only [Option.bind_some, slice_bytes, mixDh_of_dh _ rightSs]
    rw [SymmetricState.decryptAndHash_encryptAndHash lawful payloadSealed]
    simp only [Option.bind_some]
    rw [if_neg (Nat.not_lt.mpr cap)]
    rfl
  · exact ⟨rfl, started.left_initiator, started.left_priv, rfl, started.right_initiator, rfl, rfl⟩

theorem message2_read (lawful : crypto.Lawful) {left right : NoiseIK} (answer : KeyPair crypto)
    (acquainted : Acquainted initiator ephemeral left right) {payload : Bytes}
    {outCap payloadCap : Nat} (room : kNoiseMsg2Overhead + payload.length ≤ outCap)
    (cap : payload.length ≤ payloadCap) :
    ∃ msg left' right',
      right.writeMessage2 crypto (some (answer.priv, answer.pub)) payload outCap =
        some (msg, right') ∧
      left.readMessage2 crypto msg payloadCap = some (payload, left') ∧
      left'.symmetric = right'.symmetric ∧ right'.remoteStatic = initiator.pub := by
  obtain ⟨ee, rightEe, leftEe⟩ := lawful.dh_agree _ _ _ _ answer.valid ephemeral.valid
  obtain ⟨se, rightSe, leftSe⟩ := lawful.dh_agree _ _ _ _ answer.valid initiator.valid
  let mixed := ((right.symmetric.mixHash crypto answer.pub.bytes).mixKey crypto ee).mixKey crypto se
  obtain ⟨encPayload, last, sealed⟩ := SymmetricState.encryptAndHash_total lawful payload mixed
  have size := SymmetricState.length_encryptAndHash lawful rfl sealed
  refine ⟨answer.pub.bytes ++ encPayload,
    { left with remoteEphemeral := answer.pub, symmetric := last },
    { right with ephemeralPriv := answer.priv, ephemeralPub := answer.pub, symmetric := last },
    ?_, ?_, rfl, acquainted.right_remote⟩
  · rw [writeMessage2, if_neg (acquainted.right_initiator ▸ Bool.false_ne_true),
      if_neg (Nat.not_lt.mpr room)]
    simp only [Option.bind_eq_bind, Option.bind_some, acquainted.right_remote,
      acquainted.right_ephemeral, mixDh_of_dh _ rightEe, mixDh_of_dh _ rightSe]
    rw [sealed]
    rfl
  · have long : ¬ (answer.pub.bytes ++ encPayload).length < 32 + kNoiseTagLen := by
      rw [List.length_append, Buffer.length_bytes, size, kNoiseTagLen]
      omega
    rw [readMessage2, if_neg (not_not_intro acquainted.left_initiator), if_neg long]
    simp only [Option.bind_eq_bind, Option.bind_some, slice_ephemeral, acquainted.left_priv,
      acquainted.left_ephemeral, acquainted.symmetric, mixDh_of_dh _ leftEe, mixDh_of_dh _ leftSe,
      drop_ephemeral]
    rw [SymmetricState.decryptAndHash_encryptAndHash lawful sealed]
    simp only [Option.bind_some]
    rw [if_neg (Nat.not_lt.mpr cap)]
    rfl

/-! ## Another prologue -/

/-- What `_MixHash` hashes up to the first encryption. -/
def hashed (crypto : Crypto) (prologue : Bytes) (responder ephemeral : Key) : List Bytes :=
  let first := (crypto.hash kProtocolName).bytes ++ prologue
  let second := (crypto.hash first).bytes ++ responder.bytes
  let third := (crypto.hash second).bytes ++ ephemeral.bytes
  [first, second, third]

/-- The hash that the first encryption authenticates. -/
def firstHash (crypto : Crypto) (prologue : Bytes) (responder ephemeral : Key) : Key :=
  WireGuard.mixHash crypto (WireGuard.mixHash crypto (WireGuard.mixHash crypto
    (crypto.hash kProtocolName) prologue) responder.bytes) ephemeral.bytes

/-- The key of the first encryption. -/
def firstKey (crypto : Crypto) (es : Key) : Key :=
  (kdf2 crypto (crypto.hash kProtocolName) es.bytes).2

/-- The hash is injective on these inputs. -/
def NoCollision (crypto : Crypto) (inputs : List Bytes) : Prop :=
  ∀ left ∈ inputs, ∀ right ∈ inputs, crypto.hash left = crypto.hash right → left = right

/-- What was sealed with `aad` does not open with `other`. -/
def Rejects (crypto : Crypto) (key : Key) (nonce : Buffer 12) (plain aad other : Bytes) : Prop :=
  other ≠ aad → ∀ cipher, crypto.chachaSeal key nonce plain aad = some cipher →
    crypto.chachaOpen key nonce cipher other = none

theorem firstHash_ne {prologue other : Bytes} (differ : other ≠ prologue) {responder ephemeral : Key}
    (apart : NoCollision crypto
      (hashed crypto prologue responder ephemeral ++ hashed crypto other responder ephemeral)) :
    (firstHash crypto other responder ephemeral).bytes ≠
      (firstHash crypto prologue responder ephemeral).bytes := by
  intro same
  have third := apart _ (by simp [hashed, WireGuard.mixHash]) _
    (by simp [hashed, WireGuard.mixHash]) (Buffer.ext_bytes same)
  have second := apart _ (by simp [hashed, WireGuard.mixHash]) _
    (by simp [hashed, WireGuard.mixHash]) (Buffer.ext_bytes (List.append_cancel_right third))
  have first := apart _ (by simp [hashed]) _
    (by simp [hashed]) (Buffer.ext_bytes (List.append_cancel_right second))
  exact differ (List.append_cancel_left first)

/-- A message 1 carries the initiator's key, sealed with the first key and hash. -/
theorem writeMessage1_sealed {left next : NoiseIK} {payload msg : Bytes} {outCap : Nat}
    (written : left.writeMessage1 crypto (some (ephemeral.priv, ephemeral.pub)) payload outCap =
      some (msg, next)) :
    ∃ es cipher rest, crypto.dh ephemeral.priv left.remoteStatic = some es ∧
      aeadEncrypt crypto (kdf2 crypto left.symmetric.ck es.bytes).2 0 left.staticPub.bytes
        (WireGuard.mixHash crypto left.symmetric.h ephemeral.pub.bytes).bytes = some cipher ∧
      msg = ephemeral.pub.bytes ++ cipher ++ rest := by
  rw [writeMessage1] at written
  split at written
  next => cases written
  next =>
    split at written
    next => cases written
    next =>
      simp only [Option.bind_eq_bind, Option.bind_some] at written
      obtain ⟨second, first, written⟩ := Option.bind_eq_some_iff.mp written
      obtain ⟨es, agreed, rfl⟩ := Option.map_eq_some_iff.mp first
      obtain ⟨⟨cipher, third⟩, sealed, written⟩ := Option.bind_eq_some_iff.mp written
      obtain ⟨fourth, -, written⟩ := Option.bind_eq_some_iff.mp written
      obtain ⟨⟨encPayload, last⟩, -, written⟩ := Option.bind_eq_some_iff.mp written
      cases written
      refine ⟨es, cipher, encPayload, agreed, ?_, rfl⟩
      have keyed : (SymmetricState.mixKey crypto es
          (left.symmetric.mixHash crypto ephemeral.pub.bytes)).hasKey = true := rfl
      rw [SymmetricState.encryptAndHash, if_pos keyed] at sealed
      split at sealed
      next text encrypted =>
        cases sealed
        exact encrypted
      next => cases sealed

theorem readMessage1_prologue (lawful : crypto.Lawful) {left right next : NoiseIK}
    {prologue other payload msg : Bytes} {outCap payloadCap : Nat} (differ : other ≠ prologue)
    (apart : NoCollision crypto (hashed crypto prologue responder.pub ephemeral.pub ++
      hashed crypto other responder.pub ephemeral.pub))
    (rejects : ∀ es, crypto.dh ephemeral.priv responder.pub = some es →
      Rejects crypto (firstKey crypto es) (aeadNonce 0) initiator.pub.bytes
        (firstHash crypto prologue responder.pub ephemeral.pub).bytes
        (firstHash crypto other responder.pub ephemeral.pub).bytes)
    (written : (left.initInitiator crypto initiator.priv initiator.pub responder.pub
      prologue).writeMessage1 crypto (some (ephemeral.priv, ephemeral.pub)) payload outCap =
        some (msg, next)) :
    (right.initResponder crypto responder.priv responder.pub other).readMessage1 crypto msg
      payloadCap = none := by
  obtain ⟨es, cipher, rest, agreed, sealed, rfl⟩ := writeMessage1_sealed written
  have size := aeadEncrypt_length lawful sealed
  rw [Buffer.length_bytes] at size
  obtain ⟨shared, initiatorSide, responderSide⟩ :=
    lawful.dh_agree _ _ _ _ ephemeral.valid responder.valid
  cases agreed.symm.trans initiatorSide
  have front : slice 32 (ephemeral.pub.bytes ++ cipher ++ rest) 0 = ephemeral.pub := by
    rw [List.append_assoc]
    exact slice_ephemeral _
  have refused : aeadDecrypt crypto (firstKey crypto es) 0 cipher
      (firstHash crypto other responder.pub ephemeral.pub).bytes = none := by
    rw [aeadDecrypt]
    split
    next => rfl
    next => exact rejects es initiatorSide (firstHash_ne differ apart) cipher sealed
  rw [readMessage1]
  split
  next => rfl
  next =>
    split
    next => rfl
    next =>
      have priv : (right.initResponder crypto responder.priv responder.pub other).staticPriv =
        responder.priv := rfl
      simp only [Option.bind_eq_bind, Option.bind_some, front, priv, mixDh_of_dh _ responderSide,
        slice_static size]
      have stopped : (((right.initResponder crypto responder.priv responder.pub
          other).symmetric.mixHash crypto ephemeral.pub.bytes).mixKey crypto es).decryptAndHash crypto
            cipher = none := by
        have keyed : (((right.initResponder crypto responder.priv responder.pub
            other).symmetric.mixHash crypto ephemeral.pub.bytes).mixKey crypto es).hasKey = true := rfl
        rw [SymmetricState.decryptAndHash, if_pos keyed]
        simp only [firstKey, firstHash] at refused
        simp only [SymmetricState.mixKey, SymmetricState.mixHash, initResponder, SymmetricState.init]
        rw [refused]
      rw [stopped]
      rfl

theorem handshake_agrees (lawful : crypto.Lawful)
    (initiator responder ephemeral answer : KeyPair crypto) (left right : NoiseIK)
    (prologue payload1 payload2 : Bytes) (outCap1 payloadCap1 outCap2 payloadCap2 : Nat)
    (room1 : kNoiseMsg1Overhead + payload1.length ≤ outCap1) (cap1 : payload1.length ≤ payloadCap1)
    (room2 : kNoiseMsg2Overhead + payload2.length ≤ outCap2)
    (cap2 : payload2.length ≤ payloadCap2) :
    let left0 := left.initInitiator crypto initiator.priv initiator.pub responder.pub prologue
    let right0 := right.initResponder crypto responder.priv responder.pub
    (∃ msg1 left1 right1 msg2 left2 right2,
      left0.writeMessage1 crypto (some (ephemeral.priv, ephemeral.pub)) payload1 outCap1 =
        some (msg1, left1) ∧
      (right0 prologue).readMessage1 crypto msg1 payloadCap1 = some (payload1, right1) ∧
      right1.remoteStatic = initiator.pub ∧
      right1.writeMessage2 crypto (some (answer.priv, answer.pub)) payload2 outCap2 =
        some (msg2, right2) ∧
      left1.readMessage2 crypto msg2 payloadCap2 = some (payload2, left2) ∧
      right2.remoteStatic = initiator.pub ∧
      left2.symmetric.h = right2.symmetric.h ∧ left2.symmetric.ck = right2.symmetric.ck ∧
      left2.split crypto = right2.split crypto) ∧
    ∀ other, other ≠ prologue →
      NoCollision crypto (hashed crypto prologue responder.pub ephemeral.pub ++
        hashed crypto other responder.pub ephemeral.pub) →
      (∀ es, crypto.dh ephemeral.priv responder.pub = some es →
        Rejects crypto (firstKey crypto es) (aeadNonce 0) initiator.pub.bytes
          (firstHash crypto prologue responder.pub ephemeral.pub).bytes
          (firstHash crypto other responder.pub ephemeral.pub).bytes) →
      ∀ msg1 left1,
        left0.writeMessage1 crypto (some (ephemeral.priv, ephemeral.pub)) payload1 outCap1 =
          some (msg1, left1) →
        (right0 other).readMessage1 crypto msg1 payloadCap1 = none := by
  intro left0 right0
  refine ⟨?_, fun other differ apart rejects msg1 left1 written =>
    readMessage1_prologue lawful differ apart rejects written⟩
  obtain ⟨msg1, left1, right1, written1, read1, acquainted⟩ :=
    message1_read lawful (started_init left right prologue) room1 cap1
  obtain ⟨msg2, left2, right2, written2, read2, same, remote⟩ :=
    message2_read lawful answer acquainted room2 cap2
  refine ⟨msg1, left1, right1, msg2, left2, right2, written1, read1, acquainted.right_remote,
    written2, read2, remote, ?_, ?_, ?_⟩
  · rw [same]
  · rw [same]
  · rw [split, split, same]

/-! The self-test's exchange, and one with two prologues. -/

theorem handshake_agrees_sample :
    (∃ msg1 left1 right1 msg2 left2 right2,
      (initInitiator Transparent.crypto (Transparent.pair 1).priv (Transparent.pair 1).pub
        (Transparent.pair 2).pub [112] {}).writeMessage1 Transparent.crypto
          (some ((Transparent.pair 3).priv, (Transparent.pair 3).pub)) [104, 105] 128 =
            some (msg1, left1) ∧
      (initResponder Transparent.crypto (Transparent.pair 2).priv (Transparent.pair 2).pub [112]
        {}).readMessage1 Transparent.crypto msg1 128 = some ([104, 105], right1) ∧
      right1.writeMessage2 Transparent.crypto
        (some ((Transparent.pair 4).priv, (Transparent.pair 4).pub)) [121, 111] 128 =
          some (msg2, right2) ∧
      left1.readMessage2 Transparent.crypto msg2 128 = some ([121, 111], left2) ∧
      left2.split Transparent.crypto = right2.split Transparent.crypto) ∧
    ∀ msg1 left1,
      (initInitiator Transparent.crypto (Transparent.pair 1).priv (Transparent.pair 1).pub
        (Transparent.pair 2).pub [112] {}).writeMessage1 Transparent.crypto
          (some ((Transparent.pair 3).priv, (Transparent.pair 3).pub)) [104, 105] 128 =
            some (msg1, left1) →
      (initResponder Transparent.crypto (Transparent.pair 2).priv (Transparent.pair 2).pub [113]
        {}).readMessage1 Transparent.crypto msg1 128 = none := by
  obtain ⟨⟨msg1, left1, right1, msg2, left2, right2, written1, read1, -, written2, read2, -, -, -,
    same⟩, fails⟩ := handshake_agrees Transparent.lawful (Transparent.pair 1) (Transparent.pair 2)
      (Transparent.pair 3) (Transparent.pair 4) {} {} [112] [104, 105] [121, 111] 128 128 128 128
      (by decide) (by decide) (by decide) (by decide)
  refine ⟨⟨msg1, left1, right1, msg2, left2, right2, written1, read1, written2, read2, same⟩, ?_⟩
  refine fails [113] (by decide) ?_ ?_
  · unfold NoCollision
    decide +kernel
  · intro es agreed _ cipher sealed
    cases agreed
    cases sealed
    decide +kernel

end Agreement

end NoiseIK

end Sotoportego.Tailscale
