import Sotoportego.WireGuard.Transparent

/-!
# Agreement of the two handshake transcripts

The initiator's and the responder's functions are related through the message:
consuming an initiation rebuilds exactly the initiator's chaining key and hash,
and consuming the response closes the exchange with swapped transport keys.
-/

set_option autoImplicit false

namespace Sotoportego.WireGuard

open Octets

namespace WGPeer

theorem initiation_layout (index : UInt32) (ephemeral : Key) (encStatic : Buffer 48)
    (encTs : Buffer 28) (tail : Bytes) (tailLength : tail.length = 32) :
    let msg : Bytes := ([1, 0, 0, 0] ++ (store32Le index ++ (ephemeral.bytes ++
      (encStatic.bytes ++ encTs.bytes)))) ++ tail
    ¬(msg.length ≠ 148 ∨ octetAt msg 0 ≠ 1) ∧ slice 32 msg 8 = ephemeral ∧
      slice 48 msg 40 = encStatic ∧ slice 28 msg 88 = encTs ∧ load32Le msg 4 = index := by
  intro msg
  refine ⟨?_, ?_, ?_, ?_, ?_⟩
  · have type : octetAt msg 0 = 1 := rfl
    have length : msg.length = 148 := by
      simp only [msg, List.length_append, Buffer.length_bytes, length_store32Le,
        List.length_cons, List.length_nil, tailLength]
    simp [type, length]
  · have placed := slice_placed 8 ([1, 0, 0, 0] ++ store32Le index) rfl ephemeral
      (encStatic.bytes ++ (encTs.bytes ++ tail))
    simpa only [msg, List.append_assoc] using placed
  · have placed := slice_placed 40 ([1, 0, 0, 0] ++ (store32Le index ++ ephemeral.bytes))
      (by simp) encStatic (encTs.bytes ++ tail)
    simpa only [msg, List.append_assoc] using placed
  · have placed := slice_placed 88
      ([1, 0, 0, 0] ++ (store32Le index ++ (ephemeral.bytes ++ encStatic.bytes))) (by simp)
      encTs tail
    simpa only [msg, List.append_assoc] using placed
  · have placed := load32Le_store 4 [1, 0, 0, 0] rfl index
      (ephemeral.bytes ++ (encStatic.bytes ++ (encTs.bytes ++ tail)))
    simpa only [msg, List.append_assoc] using placed

theorem response_layout (sender receiver : UInt32) (ephemeral : Key) (encNothing : Buffer 16)
    (tail : Bytes) (tailLength : tail.length = 32) :
    let msg : Bytes := ([2, 0, 0, 0] ++ (store32Le sender ++ (store32Le receiver ++
      (ephemeral.bytes ++ encNothing.bytes)))) ++ tail
    ¬(msg.length ≠ 92 ∨ octetAt msg 0 ≠ 2) ∧ load32Le msg 4 = sender ∧
      load32Le msg 8 = receiver ∧ slice 32 msg 12 = ephemeral ∧ slice 16 msg 44 = encNothing := by
  intro msg
  refine ⟨?_, ?_, ?_, ?_, ?_⟩
  · have type : octetAt msg 0 = 2 := rfl
    have length : msg.length = 92 := by
      simp only [msg, List.length_append, Buffer.length_bytes, length_store32Le,
        List.length_cons, List.length_nil, tailLength]
    simp [type, length]
  · have placed := load32Le_store 4 [2, 0, 0, 0] rfl sender
      (store32Le receiver ++ (ephemeral.bytes ++ (encNothing.bytes ++ tail)))
    simpa only [msg, List.append_assoc] using placed
  · have placed := load32Le_store 8 ([2, 0, 0, 0] ++ store32Le sender) rfl receiver
      (ephemeral.bytes ++ (encNothing.bytes ++ tail))
    simpa only [msg, List.append_assoc] using placed
  · have placed := slice_placed 12 ([2, 0, 0, 0] ++ (store32Le sender ++ store32Le receiver))
      rfl ephemeral (encNothing.bytes ++ tail)
    simpa only [msg, List.append_assoc] using placed
  · have placed := slice_placed 44
      ([2, 0, 0, 0] ++ (store32Le sender ++ (store32Le receiver ++ ephemeral.bytes))) (by simp)
      encNothing tail
    simpa only [msg, List.append_assoc] using placed

/-- The responder walks the initiator's transcript: `chain` and `hash` stand for
the state both sides reach after mixing the initiator's ephemeral. -/
theorem responderConsume_initiation {crypto : Crypto} (lawful : crypto.Lawful)
    {ourPriv ourPub ephemeral initiatorStatic es ss chain hash : Key} {index : UInt32}
    {sealedStatic sealedTs : Bytes} {timestamp : Buffer 12} {mac1 : Buffer 16}
    (valid : crypto.dhPublic ourPriv = some ourPub)
    (agreeEs : crypto.dh ourPriv ephemeral = some es)
    (agreeSs : crypto.dh ourPriv initiatorStatic = some ss)
    (chain_eq : kdf1 crypto (crypto.hash kConstruction) ephemeral.bytes = chain)
    (hash_eq : mixHash crypto (mixHash crypto
      (crypto.hash ((crypto.hash kConstruction).bytes ++ kIdentifier)) ourPub.bytes)
      ephemeral.bytes = hash)
    (staticSealed : aeadEncrypt crypto (kdf2 crypto chain es.bytes).2 0 initiatorStatic.bytes
      hash.bytes = some sealedStatic)
    (tsSealed : aeadEncrypt crypto (kdf2 crypto (kdf2 crypto chain es.bytes).1 ss.bytes).2 0
      timestamp.bytes (mixHash crypto hash (slice 48 sealedStatic 0).bytes).bytes =
        some sealedTs) :
    responderConsume crypto ourPriv (([1, 0, 0, 0] ++ (store32Le index ++ (ephemeral.bytes ++
      ((slice 48 sealedStatic 0).bytes ++ (slice 28 sealedTs 0).bytes)))) ++
        (mac1.bytes ++ List.replicate 16 0)) = some {
      chainingKey := (kdf2 crypto (kdf2 crypto chain es.bytes).1 ss.bytes).1
      hash := mixHash crypto (mixHash crypto hash (slice 48 sealedStatic 0).bytes)
        (slice 28 sealedTs 0).bytes
      peerEphemeral := ephemeral
      initiatorStatic
      recvIndex := index } := by
  obtain ⟨accepted, readEphemeral, readStatic, readTs, readIndex⟩ :=
    initiation_layout index ephemeral (slice 48 sealedStatic 0) (slice 28 sealedTs 0)
      (mac1.bytes ++ List.replicate 16 0) (by simp)
  have staticLength := aeadEncrypt_length lawful staticSealed
  have tsLength := aeadEncrypt_length lawful tsSealed
  have staticOpened := aeadDecrypt_encrypt lawful staticSealed
  have tsOpened := aeadDecrypt_encrypt lawful tsSealed
  rw [Buffer.length_bytes] at staticLength tsLength
  have wholeStatic := bytes_slice_of_length staticLength
  have wholeTs := bytes_slice_of_length tsLength
  rw [← wholeStatic] at staticOpened
  rw [← wholeTs] at tsOpened
  rw [responderConsume, if_neg accepted]
  simp only [readEphemeral, readStatic, readTs, readIndex, valid, agreeEs, chain_eq, hash_eq,
    staticOpened, slice_bytes, agreeSs, tsOpened]

/-- `msg` is the initiation whose handshake `initiator` still holds: the owner of
`remote` rebuilds the initiator's transcript from it. -/
structure Outstanding (crypto : Crypto) (own remote : KeyPair crypto) (initiator : WGPeer)
    (msg : Bytes) : Prop where
  ourPriv_eq : initiator.ourPriv = own.priv
  consumed : ∃ ephemeral : KeyPair crypto, initiator.ephemeralPriv = ephemeral.priv ∧
    responderConsume crypto remote.priv msg = some {
      chainingKey := initiator.chainingKey
      hash := initiator.hash
      peerEphemeral := ephemeral.pub
      initiatorStatic := own.pub
      recvIndex := initiator.senderIndex }

theorem buildInitiation_outstanding {crypto : Crypto} (lawful : crypto.Lawful)
    (own remote ephemeral : KeyPair crypto) (draw : Draw) (index : UInt32) (peer : WGPeer)
    (generated : draw.ephemeral = some (ephemeral.priv, ephemeral.pub))
    (drawn : draw.index = some index) :
    ∃ initiator msg, peer.buildInitiation crypto draw own.priv remote.pub = (initiator, some msg) ∧
      initiator.senderIndex = index ∧ Outstanding crypto own remote initiator msg := by
  obtain ⟨es, initiatorEs, responderEs⟩ :=
    lawful.dh_agree _ _ _ _ ephemeral.valid remote.valid
  obtain ⟨ss, initiatorSs, responderSs⟩ := lawful.dh_agree _ _ _ _ own.valid remote.valid
  simp only [buildInitiation, own.valid, generated, initiatorEs, initiatorSs, drawn]
  split
  · next failed => exact absurd failed (aeadEncrypt_ne_none lawful)
  · next sealedStatic staticSealed =>
    split
    · next failed => exact absurd failed (aeadEncrypt_ne_none lawful)
    · next sealedTs tsSealed =>
      exact ⟨_, _, rfl, rfl, rfl, ephemeral, rfl, responderConsume_initiation lawful
        remote.valid responderEs responderSs rfl rfl staticSealed tsSealed⟩

/-- The two ends of one session: swapped keys, crossed indices. -/
structure Agree (left right : WGPeer) : Prop where
  leftKeys : left.hasKeys = true
  rightKeys : right.hasKeys = true
  forward : left.sendKey = right.recvKey
  backward : right.sendKey = left.recvKey
  leftIndex : left.receiverIndex = right.senderIndex
  rightIndex : right.receiverIndex = left.senderIndex

theorem Agree.symm {left right : WGPeer} (agree : Agree left right) : Agree right left where
  leftKeys := agree.rightKeys
  rightKeys := agree.leftKeys
  forward := agree.backward
  backward := agree.forward
  leftIndex := agree.rightIndex
  rightIndex := agree.leftIndex

/-- No packet sent and none received under the installed keys. -/
structure Unused (peer : WGPeer) : Prop where
  sendCounter : peer.sendCounter = 0
  unread : peer.replay = {}

/-- The initiator accepts the response sealed at the end of its own transcript;
`chain` is the chaining key after ee and se. -/
theorem consumeResponse_response {crypto : Crypto} (lawful : crypto.Lawful)
    {initiator : WGPeer} {answer ee se chain : Key} {index : UInt32} {sealed : Bytes}
    {mac1 : Buffer 16} (systemTime : Int)
    (agreeEe : crypto.dh initiator.ephemeralPriv answer = some ee)
    (agreeSe : crypto.dh initiator.ourPriv answer = some se)
    (chain_eq : kdf1 crypto (kdf1 crypto (kdf1 crypto initiator.chainingKey answer.bytes)
      ee.bytes) se.bytes = chain)
    (nothingSealed : aeadEncrypt crypto (kdf3 crypto chain (Buffer.zero 32).bytes).2.2 0 []
      (mixHash crypto (mixHash crypto initiator.hash answer.bytes)
        (kdf3 crypto chain (Buffer.zero 32).bytes).2.1.bytes).bytes = some sealed) :
    ∃ initiator', initiator.consumeResponse crypto systemTime (([2, 0, 0, 0] ++
        (store32Le index ++ (store32Le initiator.senderIndex ++ (answer.bytes ++
          (slice 16 sealed 0).bytes)))) ++ (mac1.bytes ++ List.replicate 16 0)) =
        (initiator', true) ∧
      initiator'.hasKeys = true ∧
      (initiator'.sendKey, initiator'.recvKey) =
        kdf2 crypto (kdf3 crypto chain (Buffer.zero 32).bytes).1 [] ∧
      initiator'.receiverIndex = index ∧ initiator'.senderIndex = initiator.senderIndex ∧
      Unused initiator' := by
  obtain ⟨accepted, readSender, readReceiver, readEphemeral, readNothing⟩ :=
    response_layout index initiator.senderIndex answer (slice 16 sealed 0)
      (mac1.bytes ++ List.replicate 16 0) (by simp)
  have length := aeadEncrypt_length lawful nothingSealed
  have opened := aeadDecrypt_encrypt lawful nothingSealed
  rw [List.length_nil] at length
  rw [← bytes_slice_of_length length] at opened
  rw [consumeResponse, if_neg accepted, if_neg (not_not.mpr readReceiver)]
  simp only [readSender, readEphemeral, readNothing, agreeEe, agreeSe, chain_eq, opened]
  exact ⟨_, rfl, rfl, rfl, rfl, rfl, rfl, rfl⟩

/-- A responder that holds the initiator's transcript answers it, and the answer
completes the initiator's half with the swapped keys. -/
theorem buildResponse_agree {crypto : Crypto} (lawful : crypto.Lawful)
    (own ephemeral answer : KeyPair crypto) (draw : Draw) (index : UInt32)
    (initiator responder : WGPeer)
    (generated : draw.ephemeral = some (answer.priv, answer.pub)) (drawn : draw.index = some index)
    (ourPriv_eq : initiator.ourPriv = own.priv)
    (ephemeralPriv_eq : initiator.ephemeralPriv = ephemeral.priv)
    (chain_eq : responder.chainingKey = initiator.chainingKey)
    (hash_eq : responder.hash = initiator.hash)
    (peerEphemeral_eq : responder.peerEphemeral = ephemeral.pub)
    (peerStatic_eq : responder.peerStatic = own.pub)
    (pending_eq : responder.pendingReceiverIndex = initiator.senderIndex) :
    ∃ responder' resp, responder.buildResponse crypto draw = (responder', some resp) ∧
      responder'.senderIndex = index ∧ Unused responder' ∧ ∀ systemTime, ∃ initiator',
        initiator.consumeResponse crypto systemTime resp = (initiator', true) ∧
        Agree initiator' responder' ∧ Unused initiator' := by
  obtain ⟨ee, responderEe, initiatorEe⟩ :=
    lawful.dh_agree _ _ _ _ answer.valid ephemeral.valid
  obtain ⟨se, responderSe, initiatorSe⟩ := lawful.dh_agree _ _ _ _ answer.valid own.valid
  rw [← ephemeralPriv_eq] at initiatorEe
  rw [← ourPriv_eq] at initiatorSe
  simp only [buildResponse, generated, peerEphemeral_eq, peerStatic_eq, responderEe, responderSe,
    drawn, chain_eq, hash_eq, pending_eq]
  split
  · next failed => exact absurd failed (aeadEncrypt_ne_none lawful)
  · next sealed nothingSealed =>
    refine ⟨_, _, rfl, rfl, ⟨rfl, rfl⟩, ?_⟩
    intro systemTime
    obtain ⟨initiator', consumed, live, keys, receiver, sender, unused⟩ :=
      consumeResponse_response lawful systemTime initiatorEe initiatorSe rfl nothingSealed
    obtain ⟨sendKey_eq, recvKey_eq⟩ := Prod.mk.inj keys
    exact ⟨initiator', consumed, ⟨live, rfl, sendKey_eq, recvKey_eq.symm, receiver, sender.symm⟩,
      unused⟩

theorem responderConsume_some {crypto : Crypto} {ourPriv : Key} {msg : Bytes}
    {consumed : Consumed} (accepted : responderConsume crypto ourPriv msg = some consumed) :
    msg.length = 148 ∧ octetAt msg 0 = 1 ∧ consumed.recvIndex = load32Le msg 4 := by
  unfold responderConsume at accepted
  split at accepted
  · cases accepted
  · next wellFormed =>
    simp only [not_or, not_not] at wellFormed
    refine ⟨wellFormed.1, wellFormed.2, ?_⟩
    simp only at accepted
    repeat' split at accepted
    all_goals cases accepted
    rfl

theorem consumeResponse_true {crypto : Crypto} {systemTime : Int} {peer peer' : WGPeer}
    {resp : Bytes} (accepted : peer.consumeResponse crypto systemTime resp = (peer', true)) :
    resp.length = 92 ∧ octetAt resp 0 = 2 ∧ load32Le resp 8 = peer.senderIndex := by
  unfold consumeResponse at accepted
  split at accepted
  · cases accepted
  · next wellFormed =>
    simp only [not_or, not_not] at wellFormed
    split at accepted
    · cases accepted
    · next addressed => exact ⟨wellFormed.1, wellFormed.2, not_not.mp addressed⟩

theorem consumeResponse_senderIndex (crypto : Crypto) (systemTime : Int) (peer : WGPeer)
    (resp : Bytes) :
    (peer.consumeResponse crypto systemTime resp).1.senderIndex = peer.senderIndex := by
  unfold consumeResponse
  simp only
  repeat' split
  all_goals rfl

/-- Whoever owns `remote` can answer an initiation that is still outstanding, and the
initiator can complete that answer at any later time. -/
theorem answer_outstanding {crypto : Crypto} (lawful : crypto.Lawful)
    {own remote : KeyPair crypto} {initiator : WGPeer} {msg : Bytes}
    (outstanding : Outstanding crypto own remote initiator msg) (responder : WGPeer)
    (answer : KeyPair crypto) (draw : Draw) (index : UInt32)
    (generated : draw.ephemeral = some (answer.priv, answer.pub))
    (drawn : draw.index = some index) :
    recoverInitiatorStatic crypto remote.priv msg = some own.pub ∧
      ∃ responder₁ responder₂ resp,
        responder.consumeInitiation crypto remote.priv msg = (responder₁, true) ∧
        responder₁.buildResponse crypto draw = (responder₂, some resp) ∧
        responder₂.senderIndex = index ∧ Unused responder₂ ∧
        ∀ systemTime, ∃ initiator',
          initiator.consumeResponse crypto systemTime resp = (initiator', true) ∧
          Agree initiator' responder₂ ∧ Unused initiator' := by
  obtain ⟨ephemeral, ephemeralPriv_eq, consumed⟩ := outstanding.consumed
  constructor
  · rw [recoverInitiatorStatic, consumed, Option.map_some]
  · simp only [consumeInitiation, consumed]
    obtain ⟨responder₂, resp, answered, sender, unused, completes⟩ :=
      buildResponse_agree lawful own ephemeral answer draw index initiator
        { responder with
          chainingKey := initiator.chainingKey
          hash := initiator.hash
          peerEphemeral := ephemeral.pub
          pendingReceiverIndex := initiator.senderIndex
          ourPriv := remote.priv
          peerStatic := own.pub }
        generated drawn outstanding.ourPriv_eq ephemeralPriv_eq rfl rfl rfl rfl rfl
    exact ⟨_, responder₂, resp, rfl, answered, sender, unused, completes⟩

/-- One undisturbed handshake between any two peer objects: every step succeeds,
the responder learns the initiator's static key, and both ends hold one session. -/
theorem handshake_agreement {crypto : Crypto} (lawful : crypto.Lawful)
    (initiatorStatic responderStatic ephemeral answer : KeyPair crypto)
    (initiator responder : WGPeer) (initiatorDraw responderDraw : Draw)
    (initiatorIndex responderIndex : UInt32) (systemTime : Int)
    (generated : initiatorDraw.ephemeral = some (ephemeral.priv, ephemeral.pub))
    (drawn : initiatorDraw.index = some initiatorIndex)
    (answerGenerated : responderDraw.ephemeral = some (answer.priv, answer.pub))
    (answerDrawn : responderDraw.index = some responderIndex) :
    ∃ initiator₁ initiator₂ responder₁ responder₂ msg resp,
      initiator.buildInitiation crypto initiatorDraw initiatorStatic.priv responderStatic.pub =
        (initiator₁, some msg) ∧
      recoverInitiatorStatic crypto responderStatic.priv msg = some initiatorStatic.pub ∧
      responder.consumeInitiation crypto responderStatic.priv msg = (responder₁, true) ∧
      responder₁.buildResponse crypto responderDraw = (responder₂, some resp) ∧
      initiator₁.consumeResponse crypto systemTime resp = (initiator₂, true) ∧
      Agree initiator₂ responder₂ ∧ Unused initiator₂ ∧ Unused responder₂ := by
  obtain ⟨initiator₁, msg, built, _, outstanding⟩ :=
    buildInitiation_outstanding lawful initiatorStatic responderStatic ephemeral initiatorDraw
      initiatorIndex initiator generated drawn
  obtain ⟨recovered, responder₁, responder₂, resp, consumed, answered, _, responderUnused,
    completes⟩ := answer_outstanding lawful outstanding responder answer responderDraw
      responderIndex answerGenerated answerDrawn
  obtain ⟨initiator₂, completed, agree, initiatorUnused⟩ := completes systemTime
  exact ⟨initiator₁, initiator₂, responder₁, responder₂, msg, resp, built, recovered, consumed,
    answered, completed, agree, initiatorUnused, responderUnused⟩

theorem handshake_agreement_transparent :
    ∃ initiator₁ initiator₂ responder₁ responder₂ msg resp,
      buildInitiation Transparent.crypto (Transparent.draw 3 7 0) {} (Transparent.pair 1).priv
        (Transparent.pair 2).pub = (initiator₁, some msg) ∧
      recoverInitiatorStatic Transparent.crypto (Transparent.pair 2).priv msg =
        some (Transparent.pair 1).pub ∧
      consumeInitiation Transparent.crypto {} (Transparent.pair 2).priv msg =
        (responder₁, true) ∧
      responder₁.buildResponse Transparent.crypto (Transparent.draw 4 9 0) =
        (responder₂, some resp) ∧
      initiator₁.consumeResponse Transparent.crypto 1 resp = (initiator₂, true) ∧
      Agree initiator₂ responder₂ ∧ Unused initiator₂ ∧ Unused responder₂ :=
  handshake_agreement Transparent.lawful (Transparent.pair 1) (Transparent.pair 2)
    (Transparent.pair 3) (Transparent.pair 4) {} {} (Transparent.draw 3 7 0)
    (Transparent.draw 4 9 0) 7 9 1 rfl rfl rfl rfl

end WGPeer

end Sotoportego.WireGuard
