import Sotoportego.WireGuard.ChannelProperties
import Sotoportego.WireGuard.HandshakeProperties
import Sotoportego.WireGuard.Interop
import Sotoportego.WireGuard.RekeyProperties

/-!
# Two implementations, one protocol

A backend and a peer object under the same calls send the same datagrams and read the same
packets, and a backend holds a session with a peer object.
-/

set_option autoImplicit false

namespace Sotoportego.WireGuard

open Octets

/-! ## The handshake -/

section Handshake

variable {backend : Backend} {peer : WGPeer}

/-- The states match, and what the initiator's static keys are. -/
structure Twin (backend : Backend) (peer : WGPeer) : Prop where
  endpoint : peer.endpoint = backend.endpoint
  keys : peer.hasKeys = true

theorem buildInitiation_static (crypto : Crypto) (exchange : Exchange) (backend : Backend) :
    (backend.buildInitiation crypto exchange).1.privateKey = backend.privateKey ∧
      (backend.buildInitiation crypto exchange).1.peerPublicKey = backend.peerPublicKey ∧
      (backend.buildInitiation crypto exchange).1.presharedKey = backend.presharedKey := by
  unfold Backend.buildInitiation
  dsimp only
  repeat' split
  all_goals exact ⟨rfl, rfl, rfl⟩

/-- The initiation of both is one message, and leaves matching states. -/
theorem buildInitiation_twin (crypto : Crypto) (twin : Twin backend peer) (exchange : Exchange) :
    (peer.buildInitiation crypto exchange.draw backend.privateKey backend.peerPublicKey).2 =
        (backend.buildInitiation crypto exchange).2 ∧
      Twin (backend.buildInitiation crypto exchange).1
        (peer.buildInitiation crypto exchange.draw backend.privateKey backend.peerPublicKey).1 ∧
      (peer.buildInitiation crypto exchange.draw backend.privateKey
        backend.peerPublicKey).1.ourPriv = backend.privateKey := by
  obtain ⟨endpoint, keys⟩ := twin
  have fields := endpoint
  simp only [WGPeer.endpoint, Backend.endpoint, Endpoint.mk.injEq] at fields
  obtain ⟨ephemeralPriv, ephemeralPub, chainingKey, hash, senderIndex, receiverIndex, sendKey,
    recvKey, sendCounter, replay⟩ := fields
  rw [WGPeer.buildInitiation, Backend.buildInitiation]
  dsimp only
  cases crypto.dhPublic backend.privateKey with
  | none => exact ⟨rfl, ⟨endpoint, keys⟩, rfl⟩
  | some staticPub =>
      cases exchange.draw.ephemeral with
      | none => exact ⟨rfl, ⟨by simp [WGPeer.endpoint, Backend.endpoint, *], keys⟩, rfl⟩
      | some ephemeral =>
          dsimp only
          cases crypto.dh ephemeral.1 backend.peerPublicKey with
          | none => exact ⟨rfl, ⟨by simp [WGPeer.endpoint, Backend.endpoint, *], keys⟩, rfl⟩
          | some es =>
              dsimp only
              generalize aeadEncrypt crypto _ 0 staticPub.bytes _ = sealedStatic
              cases sealedStatic with
              | none => exact ⟨rfl, ⟨by simp [WGPeer.endpoint, Backend.endpoint, *], keys⟩, rfl⟩
              | some sealedStatic =>
                  dsimp only
                  cases crypto.dh backend.privateKey backend.peerPublicKey with
                  | none =>
                      exact ⟨rfl, ⟨by simp [WGPeer.endpoint, Backend.endpoint, *], keys⟩, rfl⟩
                  | some ss =>
                      dsimp only
                      generalize aeadEncrypt crypto _ 0 (tai64n exchange.draw.unixTime).bytes _ =
                        sealedTime
                      cases sealedTime with
                      | none =>
                          exact ⟨rfl, ⟨by simp [WGPeer.endpoint, Backend.endpoint, *], keys⟩, rfl⟩
                      | some sealedTime =>
                          dsimp only
                          cases exchange.draw.index with
                          | none =>
                              exact ⟨rfl, ⟨by simp [WGPeer.endpoint, Backend.endpoint, *], keys⟩,
                                rfl⟩
                          | some index =>
                              exact ⟨rfl, ⟨by simp [WGPeer.endpoint, Backend.endpoint, *], keys⟩,
                                rfl⟩

theorem awaitResponse_shape {tries : Nat} {received : List (Option Bytes)} {resp : Bytes}
    (awaited : Backend.awaitResponse tries received = some resp) :
    resp.length = 92 ∧ octetAt resp 0 = 2 := by
  induction tries generalizing received with
  | zero => cases awaited
  | succ tries continued =>
      cases received with
      | nil => cases awaited
      | cons first received =>
          cases first with
          | none => cases awaited
          | some datagram =>
              rw [Backend.awaitResponse] at awaited
              split at awaited
              next => cases awaited
              next =>
                split at awaited
                next shape =>
                  cases awaited
                  exact shape
                next => exact continued awaited

/-- A response completes both or neither. Refused, it leaves its sender index behind in the
backend alone. -/
theorem consumeResponse_twin (crypto : Crypto) (twin : Twin backend peer)
    (ours : peer.ourPriv = backend.privateKey)
    (psk : backend.presharedKey.getD (Buffer.zero 32) = Buffer.zero 32) {resp : Bytes}
    (shape : resp.length = 92 ∧ octetAt resp 0 = 2) (systemTime : Int) :
    (peer.consumeResponse crypto systemTime resp).2 = (backend.consumeResponse crypto resp).2 ∧
      (peer.consumeResponse crypto systemTime resp).1.hasKeys = true ∧
      ((backend.consumeResponse crypto resp).2 = true →
        (peer.consumeResponse crypto systemTime resp).1.endpoint =
          { (backend.consumeResponse crypto resp).1.endpoint with
            sendCounter := 0, replay := {} }) ∧
      ((backend.consumeResponse crypto resp).2 = false →
        (peer.consumeResponse crypto systemTime resp).1.endpoint =
          { (backend.consumeResponse crypto resp).1.endpoint with
            receiverIndex := backend.receiverIndex }) := by
  obtain ⟨endpoint, keys⟩ := twin
  simp only [WGPeer.endpoint, Backend.endpoint, Endpoint.mk.injEq] at endpoint
  obtain ⟨ephemeralPriv, ephemeralPub, chainingKey, hash, senderIndex, receiverIndex, sendKey,
    recvKey, sendCounter, replay⟩ := endpoint
  have formed : ¬ (resp.length ≠ 92 ∨ octetAt resp 0 ≠ 2) := by
    rintro (length | type)
    · exact length shape.1
    · exact type shape.2
  rw [WGPeer.consumeResponse, Backend.consumeResponse, if_neg formed, senderIndex]
  by_cases other : load32Le resp 8 ≠ backend.senderIndex
  · rw [if_pos other, if_pos other]
    refine ⟨rfl, keys, fun done => Bool.noConfusion done, fun _ => ?_⟩
    simp [WGPeer.endpoint, Backend.endpoint, *]
  · rw [if_neg other, if_neg other]
    dsimp only
    rw [ephemeralPriv, ours, chainingKey, hash, psk]
    cases crypto.dh backend.ephemeralPrivate (slice 32 resp 12) with
    | none =>
        refine ⟨rfl, keys, fun done => Bool.noConfusion done, fun _ => ?_⟩
        simp [WGPeer.endpoint, Backend.endpoint, *]
    | some ee =>
        dsimp only
        cases crypto.dh backend.privateKey (slice 32 resp 12) with
        | none =>
            refine ⟨rfl, keys, fun done => Bool.noConfusion done, fun _ => ?_⟩
            simp [WGPeer.endpoint, Backend.endpoint, *]
        | some se =>
            dsimp only
            generalize aeadDecrypt crypto _ 0 (slice 16 resp 44 : Buffer 16).bytes _ = opened
            cases opened with
            | none =>
                refine ⟨rfl, keys, fun done => Bool.noConfusion done, fun _ => ?_⟩
                simp [WGPeer.endpoint, Backend.endpoint, *]
            | some nothing =>
                refine ⟨rfl, rfl, fun _ => ?_, fun failed => Bool.noConfusion failed⟩
                simp [WGPeer.endpoint, Backend.endpoint, WGPeer.setTransport, WGPeer.resetReplay, *]

/-- One handshake of both. -/
theorem handshake_twin (crypto : Crypto) (twin : Twin backend peer)
    (psk : backend.presharedKey.getD (Buffer.zero 32) = Buffer.zero 32) (exchange : Exchange)
    (harmless : (backend.performHandshake crypto exchange).2 = false →
      backend.Harmless crypto exchange) :
    (peer.handshake crypto backend.privateKey backend.peerPublicKey exchange).2 =
        (backend.call crypto (.handshake exchange)).2 ∧
      Twin (backend.call crypto (.handshake exchange)).1
        (peer.handshake crypto backend.privateKey backend.peerPublicKey exchange).1 := by
  obtain ⟨same, built, ours⟩ := buildInitiation_twin crypto twin exchange
  obtain ⟨privateKey, -, presharedKey⟩ := buildInitiation_static crypto exchange backend
  have own := ours.trans privateKey.symm
  rw [← presharedKey] at psk
  have session := @Backend.performHandshake_failed crypto exchange backend
  rw [WGPeer.handshake, Backend.call]
  dsimp only
  rw [Backend.performHandshake] at harmless session ⊢
  cases initiated : backend.buildInitiation crypto exchange with
  | mk started msg =>
      cases opened : peer.buildInitiation crypto exchange.draw backend.privateKey
          backend.peerPublicKey with
      | mk begun first =>
          rw [initiated, opened] at same built own
          rw [initiated] at psk harmless session
          dsimp only at same built own psk
          subst same
          cases first with
          | none => exact ⟨rfl, built⟩
          | some msg =>
              dsimp only at harmless session ⊢
              split
              next => exact ⟨rfl, built⟩
              next sent =>
                rw [if_neg sent] at harmless session
                cases awaited : Backend.awaitResponse 64 exchange.received with
                | none => exact ⟨rfl, built⟩
                | some resp =>
                    rw [awaited] at harmless session
                    dsimp only at harmless session ⊢
                    obtain ⟨verdict, keys, completed, refused⟩ :=
                      consumeResponse_twin crypto built own psk
                        (awaitResponse_shape awaited) exchange.draw.systemTime
                    cases consumed : started.consumeResponse crypto resp with
                    | mk after done =>
                        rw [consumed] at verdict completed refused harmless session
                        rw [verdict]
                        cases done with
                        | true =>
                            refine ⟨rfl, ?_, keys⟩
                            rw [completed rfl]
                            rfl
                        | false =>
                            refine ⟨rfl, ?_, keys⟩
                            have kept := (session rfl).mpr (harmless rfl)
                            have before := congrArg Backend.Session.receiverIndex kept
                            have index : started.receiverIndex = backend.receiverIndex := by
                              have quiet := (Backend.buildInitiation_session crypto exchange
                                backend).1
                              rw [initiated] at quiet
                              exact congrArg Backend.Session.receiverIndex quiet
                            rw [refused rfl, index]
                            change { after.endpoint with receiverIndex := backend.receiverIndex } =
                              after.endpoint
                            have now : after.receiverIndex = backend.receiverIndex := before
                            rw [← now]
                            rfl

end Handshake

/-! ## Transport -/

section Transport

variable {backend : Backend} {peer : WGPeer}

theorem encapsulate_twin (crypto : Crypto) (twin : Twin backend peer) (systemTime : Int)
    (plain : Bytes) :
    (peer.encapsulate crypto systemTime plain).2 = (backend.encapsulate crypto plain).2 ∧
      Twin (backend.encapsulate crypto plain).1 (peer.encapsulate crypto systemTime plain).1 := by
  obtain ⟨endpoint, keys⟩ := twin
  have fields := endpoint
  simp only [WGPeer.endpoint, Backend.endpoint, Endpoint.mk.injEq] at fields
  obtain ⟨ephemeralPriv, ephemeralPub, chainingKey, hash, senderIndex, receiverIndex, sendKey,
    recvKey, sendCounter, replay⟩ := fields
  rw [WGPeer.encapsulate, Backend.encapsulate, keys]
  simp only [Bool.true_eq_false, if_false, sendKey, sendCounter, receiverIndex]
  split
  next => exact ⟨rfl, endpoint, keys⟩
  next =>
    cases aeadEncrypt crypto backend.sendKey backend.sendCounter
        (plain ++ List.replicate (WGPeer.paddedLength plain.length - plain.length) 0) [] with
    | none => exact ⟨rfl, endpoint, keys⟩
    | some cipher =>
        refine ⟨rfl, ?_, rfl⟩
        simp [WGPeer.endpoint, Backend.endpoint, *]

/-- The header of an opened packet tells its version, or there is nothing in it. -/
def Headed (packet plain : Bytes) : Prop :=
  packet.length = 32 ∨ octetAt plain 0 >>> 4 = 4 ∧ 52 ≤ packet.length ∨
    octetAt plain 0 >>> 4 = 6 ∧ 72 ≤ packet.length

theorem ipPacketLength_twin {packet plain : Bytes} (headed : Headed packet plain) :
    WGPeer.ipPacketLength plain (packet.length - 16 - 16) =
      Backend.ipPacketLength plain (packet.length - 16 - 16) := by
  unfold WGPeer.ipPacketLength Backend.ipPacketLength
  dsimp only
  split
  next => rfl
  next filled =>
    split
    next => rfl
    next other =>
      split
      next => rfl
      next neither =>
        rcases headed with bare | ⟨version, long⟩ | ⟨version, long⟩
        · omega
        · exact absurd ⟨version, by omega⟩ other
        · exact absurd ⟨version, by omega⟩ neither

theorem decapsulate_twin (crypto : Crypto) (twin : Twin backend peer) {packet : Bytes}
    (headed : ∀ plain, aeadDecrypt crypto backend.recvKey (load64Le packet 8) (packet.drop 16) [] =
      some plain → Headed packet plain) :
    (peer.decapsulate crypto packet).2 = (backend.decapsulate crypto packet).2 ∧
      Twin (backend.decapsulate crypto packet).1 (peer.decapsulate crypto packet).1 := by
  obtain ⟨endpoint, keys⟩ := twin
  have fields := endpoint
  simp only [WGPeer.endpoint, Backend.endpoint, Endpoint.mk.injEq] at fields
  obtain ⟨ephemeralPriv, ephemeralPub, chainingKey, hash, senderIndex, receiverIndex, sendKey,
    recvKey, sendCounter, replay⟩ := fields
  rw [WGPeer.decapsulate, Backend.decapsulate, keys]
  simp only [Bool.true_eq_false, false_or, recvKey]
  split
  next => exact ⟨rfl, endpoint, keys⟩
  next =>
    cases opened : aeadDecrypt crypto backend.recvKey (load64Le packet 8) (packet.drop 16) [] with
    | none => exact ⟨rfl, endpoint, keys⟩
    | some plain =>
        have length := ipPacketLength_twin (headed plain opened)
        dsimp only
        rw [replay, List.length_drop, length]
        generalize backend.replay.validate (load64Le packet 8) = validated
        obtain ⟨window, fresh⟩ := validated
        cases fresh with
        | false =>
            refine ⟨rfl, ?_, rfl⟩
            simp [WGPeer.endpoint, Backend.endpoint, *]
        | true =>
            refine ⟨rfl, ?_, ?_⟩
            · simp only [Bool.true_eq_false, if_false]
              split <;> simp [WGPeer.endpoint, Backend.endpoint, *]
            · simp only [Bool.true_eq_false, if_false]
              split <;> rfl

end Transport

/-! ## Runs of calls -/

section Runs

variable {crypto : Crypto}

theorem consumeResponse_static (crypto : Crypto) (backend : Backend) (resp : Bytes) :
    (backend.consumeResponse crypto resp).1.presharedKey = backend.presharedKey := by
  unfold Backend.consumeResponse
  dsimp only
  repeat' split
  all_goals rfl

theorem performHandshake_static (crypto : Crypto) (backend : Backend) (exchange : Exchange) :
    (backend.performHandshake crypto exchange).1.presharedKey = backend.presharedKey := by
  have built := (buildInitiation_static crypto exchange backend).2.2
  rw [Backend.performHandshake]
  cases initiated : backend.buildInitiation crypto exchange with
  | mk started msg =>
      rw [initiated] at built
      cases msg with
      | none => exact built
      | some msg =>
          dsimp only
          split
          next => exact built
          next =>
            cases Backend.awaitResponse 64 exchange.received with
            | none => exact built
            | some resp => exact (consumeResponse_static crypto started resp).trans built

theorem call_presharedKey (crypto : Crypto) (backend : Backend) (call : Call) :
    (backend.call crypto call).1.presharedKey = backend.presharedKey := by
  cases call with
  | handshake exchange =>
      have kept := performHandshake_static crypto backend exchange
      rw [Backend.call]
      cases shaken : backend.performHandshake crypto exchange with
      | mk after done =>
          rw [shaken] at kept
          cases done with
          | false => exact kept
          | true => exact kept
  | send plain =>
      rw [Backend.call, Backend.encapsulate]
      dsimp only
      repeat' split
      all_goals rfl
  | receive packet =>
      rw [Backend.call, Backend.decapsulate]
      dsimp only
      repeat' split
      all_goals rfl

/-- The calls on which the implementations are to agree: a response that is refused brings no new
index, and what is opened is an IP packet or nothing. -/
def Agreeable (crypto : Crypto) (twins : Twins) : Int × Call → Prop
  | (_, .handshake exchange) =>
      (twins.backend.performHandshake crypto exchange).2 = false →
        twins.backend.Harmless crypto exchange
  | (_, .send _) => True
  | (_, .receive packet) => ∀ plain,
      aeadDecrypt crypto twins.backend.recvKey (load64Le packet 8) (packet.drop 16) [] =
        some plain → Headed packet plain

instance (packet plain : Bytes) : Decidable (Headed packet plain) :=
  inferInstanceAs (Decidable (_ ∨ _ ∧ _ ∨ _ ∧ _))

instance (crypto : Crypto) (exchange : Exchange) (backend : Backend) :
    Decidable (backend.Harmless crypto exchange) :=
  inferInstanceAs (Decidable (∀ resp ∈ backend.answer crypto exchange, _ → _))

instance (crypto : Crypto) (twins : Twins) : ∀ call, Decidable (Agreeable crypto twins call)
  | (_, .handshake exchange) => inferInstanceAs (Decidable (_ → twins.backend.Harmless crypto exchange))
  | (_, .send _) => inferInstanceAs (Decidable True)
  | (_, .receive packet) =>
      inferInstanceAs (Decidable (∀ plain ∈ aeadDecrypt crypto twins.backend.recvKey
        (load64Le packet 8) (packet.drop 16) [], Headed packet plain))

/-- Alike so far, without a preshared key. -/
structure Alike (twins : Twins) : Prop where
  twin : Twin twins.backend twins.peer
  psk : twins.backend.presharedKey.getD (Buffer.zero 32) = Buffer.zero 32
  given : twins.fromPeer = twins.fromBackend

theorem alike_step {twins : Twins} {call : Int × Call} (agreeable : Agreeable crypto twins call)
    (alike : Alike twins) : Alike (twins.step crypto call) := by
  obtain ⟨twin, psk, given⟩ := alike
  obtain ⟨systemTime, call⟩ := call
  have unshared := call_presharedKey crypto twins.backend call
  have together : (twins.peer.call crypto twins.backend.privateKey twins.backend.peerPublicKey
        systemTime call).2 = (twins.backend.call crypto call).2 ∧
      Twin (twins.backend.call crypto call).1 (twins.peer.call crypto twins.backend.privateKey
        twins.backend.peerPublicKey systemTime call).1 := by
    cases call with
    | handshake exchange => exact handshake_twin crypto twin psk exchange agreeable
    | send plain =>
        obtain ⟨same, after⟩ := encapsulate_twin crypto twin systemTime plain
        refine ⟨?_, after⟩
        rw [WGPeer.call, Backend.call]
        dsimp only
        rw [same]
    | receive packet =>
        obtain ⟨same, after⟩ := decapsulate_twin crypto twin agreeable
        refine ⟨?_, after⟩
        rw [WGPeer.call, Backend.call]
        dsimp only
        rw [same]
  refine ⟨together.2, ?_, ?_⟩
  · rw [← unshared] at psk
    exact psk
  · rw [Twins.step]
    dsimp only
    rw [given, together.1]

namespace InteropSample

def backend : Backend where
  privateKey := (Transparent.pair 1).priv
  peerPublicKey := (Transparent.pair 2).pub
  presharedKey := none

def exchange (received : List (Option Bytes)) : Exchange where
  draw := Transparent.draw 3 7 0
  sent := true
  received

/-- The responder with its answer. -/
def answered : WGPeer × Option Bytes :=
  match (backend.buildInitiation Transparent.crypto (exchange [])).2 with
  | some msg => ({} : WGPeer).answerInitiation Transparent.crypto (Transparent.draw 4 9 0)
      (Transparent.pair 2).priv msg
  | none => ({}, none)

def response : Bytes := answered.2.getD []

/-- An IPv4 header alone. -/
def packet : Bytes := [69, 0, 0, 20] ++ List.replicate 16 0

def datagram : Bytes :=
  ((answered.1.encapsulate Transparent.crypto 1 packet).2).getD []

/-- A transport packet under no key. -/
def forged : Bytes := [4, 0, 0, 0] ++ List.replicate 44 0

def calls : List (Int × Call) :=
  [(0, .handshake (exchange [some [4], some response])), (1, .send packet), (2, .receive datagram)]

end InteropSample

end Runs

/-! ## Sessions -/

section Sessions

variable {crypto : Crypto}

theorem twin_asPeer (backend : Backend) : Twin backend backend.asPeer := ⟨rfl, rfl⟩

/-- The channel depends on few fields of its ends. -/
theorem consistent_of_ends {key : Key} {channel : Channel} {sender receiver : WGPeer}
    (consistent : Channel.Consistent crypto key channel)
    (senderKeys : sender.hasKeys = channel.sender.hasKeys)
    (sendKey : sender.sendKey = channel.sender.sendKey)
    (sendCounter : sender.sendCounter = channel.sender.sendCounter)
    (receiverKeys : receiver.hasKeys = channel.receiver.hasKeys)
    (recvKey : receiver.recvKey = channel.receiver.recvKey)
    (replay : receiver.replay = channel.receiver.replay) :
    Channel.Consistent crypto key { channel with sender, receiver } where
  senderKeys := senderKeys.trans consistent.senderKeys
  sendKey := sendKey.trans consistent.sendKey
  receiverKeys := receiverKeys.trans consistent.receiverKeys
  recvKey := recvKey.trans consistent.recvKey
  counter := sendCounter.trans consistent.counter
  genuine := consistent.genuine
  tracks := by
    dsimp only
    rw [replay]
    exact consistent.tracks
  attained := by
    dsimp only
    rw [replay]
    exact consistent.attained
  faithful := consistent.faithful
  once := consistent.once

/-- Sending leaves the receiving half alone, and receiving the sending half. -/
theorem encapsulate_half (crypto : Crypto) (peer : WGPeer) (systemTime : Int) (plain : Bytes) :
    (peer.encapsulate crypto systemTime plain).1.hasKeys = peer.hasKeys ∧
      (peer.encapsulate crypto systemTime plain).1.recvKey = peer.recvKey ∧
      (peer.encapsulate crypto systemTime plain).1.replay = peer.replay := by
  unfold WGPeer.encapsulate
  dsimp only
  repeat' split
  all_goals exact ⟨rfl, rfl, rfl⟩

theorem decapsulate_half (crypto : Crypto) (peer : WGPeer) (packet : Bytes) :
    (peer.decapsulate crypto packet).1.hasKeys = peer.hasKeys ∧
      (peer.decapsulate crypto packet).1.sendKey = peer.sendKey ∧
      (peer.decapsulate crypto packet).1.sendCounter = peer.sendCounter := by
  unfold WGPeer.decapsulate
  dsimp only
  repeat' split
  all_goals exact ⟨rfl, rfl, rfl⟩

/-- A packet with a header opens as one. -/
theorem headed_sealed (lawful : crypto.Lawful) {key : Key} {counter : UInt64}
    {packet datagram plain : Bytes} (payload : Payload packet)
    (genuine : WGPeer.Sealed crypto key counter packet datagram)
    (opened : aeadDecrypt crypto key (load64Le datagram 8) (datagram.drop 16) [] = some plain) :
    Headed datagram plain := by
  obtain ⟨index, cipher, sealed, rfl⟩ := genuine
  have covers := WGPeer.le_paddedLength packet.length
  have length := aeadEncrypt_length lawful sealed
  rw [List.length_append, List.length_replicate] at length
  have whole : ([4, 0, 0, 0] ++ (store32Le index ++ (store64Le counter ++ cipher))).length =
      16 + cipher.length := by
    simp only [List.length_append, length_store32Le, length_store64Le, List.length_cons,
      List.length_nil]
    omega
  have readCounter : load64Le ([4, 0, 0, 0] ++ (store32Le index ++ (store64Le counter ++ cipher)))
      8 = counter := by
    rw [← List.append_assoc]
    exact load64Le_store 8 ([4, 0, 0, 0] ++ store32Le index) rfl counter cipher
  have readCipher : ([4, 0, 0, 0] ++ (store32Le index ++ (store64Le counter ++ cipher))).drop 16 =
      cipher := by
    rw [← List.append_assoc, ← List.append_assoc]
    exact List.drop_left' (by simp)
  rw [readCounter, readCipher, aeadDecrypt_encrypt lawful sealed, Option.some.injEq] at opened
  subst opened
  rw [Headed, whole, length]
  cases payload with
  | keepalive empty =>
      subst empty
      exact .inl rfl
  | ipv4 version atLeast atMost total =>
      refine .inr (.inl ⟨?_, by omega⟩)
      rw [octetAt_append_left (by omega)]
      exact version
  | ipv6 version atLeast atMost total =>
      refine .inr (.inr ⟨?_, by omega⟩)
      rw [octetAt_append_left (by omega)]
      exact version

namespace Duplex

def upward (duplex : Duplex) : Channel where
  sender := duplex.backend.asPeer
  receiver := duplex.peer
  sent := duplex.up
  returned := duplex.upReturned

def downward (duplex : Duplex) : Channel where
  sender := duplex.peer
  receiver := duplex.backend.asPeer
  sent := duplex.down
  returned := duplex.downReturned

/-- Both directions are in order, and no stray datagram was opened. -/
structure Steady (crypto : Crypto) (upKey downKey : Key) (duplex : Duplex) : Prop where
  upward : Channel.Consistent crypto upKey duplex.upward
  downward : Channel.Consistent crypto downKey duplex.downward
  strays : ∀ out ∈ duplex.strays, out = none

/-- The datagram was not sealed under the key. -/
def Garbage (crypto : Crypto) (key : Key) (datagram : Bytes) : Prop :=
  aeadDecrypt crypto key (load64Le datagram 8) (datagram.drop 16) [] = none

instance (crypto : Crypto) (key : Key) (datagram : Bytes) :
    Decidable (Garbage crypto key datagram) :=
  inferInstanceAs (Decidable (_ = none))

/-- Every packet sent is a payload, and what is injected does not open. -/
def Legal (crypto : Crypto) (upKey downKey : Key) : Event → Prop
  | .sendUp packet => Payload packet
  | .sendDown _ packet => Payload packet
  | .deliverUp _ => True
  | .deliverDown _ => True
  | .injectUp datagram => Garbage crypto upKey datagram
  | .injectDown datagram => Garbage crypto downKey datagram

variable {upKey downKey : Key} {duplex : Duplex}

theorem steady_sendUp (lawful : crypto.Lawful) (steady : Steady crypto upKey downKey duplex)
    {packet : Bytes} (payload : Payload packet) :
    Steady crypto upKey downKey (duplex.step crypto (.sendUp packet)) := by
  have next := Channel.consistent_send lawful steady.upward 0 payload
  obtain ⟨same, twin⟩ := encapsulate_twin crypto (twin_asPeer duplex.backend) 0 packet
  obtain ⟨-, recvKey, replay⟩ := encapsulate_half crypto duplex.backend.asPeer 0 packet
  have fields := twin.endpoint
  simp only [WGPeer.endpoint, Backend.endpoint, Endpoint.mk.injEq] at fields
  obtain ⟨-, -, -, -, -, -, sendKey, received, sendCounter, window⟩ := fields
  rw [Channel.step] at next
  rw [step]
  have sender : duplex.upward.sender = duplex.backend.asPeer := rfl
  rw [sender] at next
  cases produced : duplex.backend.encapsulate crypto packet with
  | mk backend out =>
      cases shadow : duplex.backend.asPeer.encapsulate crypto 0 packet with
      | mk peer other =>
          rw [produced, shadow] at same twin
          rw [shadow] at next recvKey replay sendKey received sendCounter window
          rw [produced] at sendKey received sendCounter window
          dsimp only at same recvKey replay sendKey received sendCounter window
          subst same
          cases other with
          | none =>
              refine ⟨?_, ?_, steady.strays⟩
              · exact consistent_of_ends next twin.keys.symm sendKey.symm sendCounter.symm rfl rfl
                  rfl
              · exact consistent_of_ends steady.downward rfl rfl rfl rfl
                  (received.symm.trans recvKey) (window.symm.trans replay)
          | some datagram =>
              refine ⟨?_, ?_, steady.strays⟩
              · exact consistent_of_ends next twin.keys.symm sendKey.symm sendCounter.symm rfl rfl
                  rfl
              · exact consistent_of_ends steady.downward rfl rfl rfl rfl
                  (received.symm.trans recvKey) (window.symm.trans replay)

theorem steady_sendDown (lawful : crypto.Lawful) (steady : Steady crypto upKey downKey duplex)
    (systemTime : Int) {packet : Bytes} (payload : Payload packet) :
    Steady crypto upKey downKey (duplex.step crypto (.sendDown systemTime packet)) := by
  have next := Channel.consistent_send lawful steady.downward systemTime payload
  obtain ⟨keys, recvKey, replay⟩ := encapsulate_half crypto duplex.peer systemTime packet
  have sender : duplex.downward.sender = duplex.peer := rfl
  rw [Channel.step, sender] at next
  rw [step]
  cases produced : duplex.peer.encapsulate crypto systemTime packet with
  | mk peer out =>
      rw [produced] at next keys recvKey replay
      cases out with
      | none =>
          exact ⟨consistent_of_ends steady.upward rfl rfl rfl keys recvKey replay, next,
            steady.strays⟩
      | some datagram =>
          exact ⟨consistent_of_ends steady.upward rfl rfl rfl keys recvKey replay, next,
            steady.strays⟩

theorem steady_deliverUp (lawful : crypto.Lawful) (steady : Steady crypto upKey downKey duplex)
    (number : Nat) : Steady crypto upKey downKey (duplex.step crypto (.deliverUp number)) := by
  have next := Channel.consistent_deliver lawful steady.upward number
  have sent : duplex.upward.sent = duplex.up := rfl
  have receiver : duplex.upward.receiver = duplex.peer := rfl
  rw [Channel.step, sent] at next
  rw [step]
  cases found : duplex.up[number]? with
  | none => exact steady
  | some produced =>
      obtain ⟨packet, datagram⟩ := produced
      obtain ⟨keys, sendKey, sendCounter⟩ := decapsulate_half crypto duplex.peer datagram
      rw [found] at next
      dsimp only at next ⊢
      rw [receiver] at next
      exact ⟨next, consistent_of_ends steady.downward keys sendKey sendCounter rfl rfl rfl,
        steady.strays⟩

/-- What a backend opens of a peer's datagram is what a peer object in its state opens. -/
theorem decapsulate_down (lawful : crypto.Lawful) (steady : Steady crypto upKey downKey duplex)
    {number : Nat} {packet datagram : Bytes}
    (found : duplex.down[number]? = some (packet, datagram)) :
    (duplex.backend.asPeer.decapsulate crypto datagram).2 =
        (duplex.backend.decapsulate crypto datagram).2 ∧
      Twin (duplex.backend.decapsulate crypto datagram).1
        (duplex.backend.asPeer.decapsulate crypto datagram).1 := by
  obtain ⟨payload, genuine⟩ := steady.downward.genuine number packet datagram found
  rw [← steady.downward.recvKey] at genuine
  exact decapsulate_twin crypto (twin_asPeer duplex.backend)
    fun plain opened => headed_sealed lawful payload genuine opened

theorem steady_deliverDown (lawful : crypto.Lawful) (steady : Steady crypto upKey downKey duplex)
    (number : Nat) : Steady crypto upKey downKey (duplex.step crypto (.deliverDown number)) := by
  have next := Channel.consistent_deliver lawful steady.downward number
  have sent : duplex.downward.sent = duplex.down := rfl
  have receiver : duplex.downward.receiver = duplex.backend.asPeer := rfl
  rw [Channel.step, sent] at next
  rw [step]
  cases found : duplex.down[number]? with
  | none => exact steady
  | some produced =>
      obtain ⟨packet, datagram⟩ := produced
      obtain ⟨same, twin⟩ := decapsulate_down lawful steady found
      obtain ⟨keys, sendKey, sendCounter⟩ := decapsulate_half crypto duplex.backend.asPeer datagram
      have fields := twin.endpoint
      simp only [WGPeer.endpoint, Backend.endpoint, Endpoint.mk.injEq] at fields
      obtain ⟨-, -, -, -, -, -, outgoing, incoming, counter, window⟩ := fields
      rw [found] at next
      dsimp only at next ⊢
      rw [receiver, same] at next
      exact ⟨consistent_of_ends steady.upward rfl (outgoing.symm.trans sendKey)
          (counter.symm.trans sendCounter) rfl rfl rfl,
        consistent_of_ends next rfl rfl rfl twin.keys.symm incoming.symm window.symm,
        steady.strays⟩

/-- What does not open leaves either end as it is. -/
theorem decapsulate_garbage (peer : WGPeer) {datagram : Bytes}
    (garbage : Garbage crypto peer.recvKey datagram) :
    peer.decapsulate crypto datagram = (peer, none) := by
  rw [WGPeer.decapsulate]
  split
  next => rfl
  next =>
    dsimp only
    rw [garbage]

theorem backend_garbage (backend : Backend) {datagram : Bytes}
    (garbage : Garbage crypto backend.recvKey datagram) :
    backend.decapsulate crypto datagram = (backend, none) := by
  rw [Backend.decapsulate]
  split
  next => rfl
  next =>
    dsimp only
    rw [garbage]

theorem steady_stray (steady : Steady crypto upKey downKey duplex) :
    Steady crypto upKey downKey { duplex with strays := duplex.strays ++ [none] } := by
  refine ⟨steady.upward, steady.downward, fun out member => ?_⟩
  obtain earlier | now := List.mem_append.mp member
  · exact steady.strays out earlier
  · exact List.mem_singleton.mp now

theorem steady_step (lawful : crypto.Lawful) {event : Event}
    (legal : Legal crypto upKey downKey event)
    (steady : Steady crypto upKey downKey duplex) :
    Steady crypto upKey downKey (duplex.step crypto event) := by
  cases event with
  | sendUp packet => exact steady_sendUp lawful steady legal
  | sendDown systemTime packet => exact steady_sendDown lawful steady systemTime legal
  | deliverUp number => exact steady_deliverUp lawful steady number
  | deliverDown number => exact steady_deliverDown lawful steady number
  | injectUp datagram =>
      have key : duplex.peer.recvKey = upKey := steady.upward.recvKey
      rw [step, decapsulate_garbage duplex.peer (key ▸ legal)]
      exact steady_stray steady
  | injectDown datagram =>
      have key : duplex.backend.recvKey = downKey := steady.downward.recvKey
      rw [step, backend_garbage duplex.backend (key ▸ legal)]
      exact steady_stray steady

/-- One direction of a session: what comes out went in, nothing comes out twice, and the datagram
of a counter that is fresh and in the window comes out. -/
structure Sound (sent : List (Bytes × Bytes)) (returned : List (Nat × Option Bytes))
    (deliver : Nat → List (Nat × Option Bytes)) : Prop where
  faithful : ∀ number out, (number, some out) ∈ returned →
    ∃ datagram, sent[number]? = some (out, datagram)
  once : (returned.filterMap fun delivery => delivery.2.map fun _ => delivery.1).Nodup
  live : ∀ number packet datagram, sent[number]? = some (packet, datagram) →
    number % 2 ^ 64 < kRejectAfterMessages.toNat →
    (∀ earlier out, (earlier, some out) ∈ returned → earlier % 2 ^ 64 ≠ number % 2 ^ 64 ∧
      earlier % 2 ^ 64 ≤ number % 2 ^ 64 + 8128) →
    deliver number = returned ++ [(number, some packet)]

theorem sound_of_consistent (lawful : crypto.Lawful) {key : Key} {channel : Channel}
    (consistent : Channel.Consistent crypto key channel) :
    Sound channel.sent channel.returned
      fun number => (channel.step crypto (.deliver number)).returned := by
  refine ⟨consistent.faithful, List.Nodup.of_map _ consistent.once, ?_⟩
  intro number packet datagram found below window
  obtain ⟨receiver, out, stepped, -, -, out_eq, -⟩ :=
    Channel.step_deliver lawful consistent found
  obtain ⟨fresh_iff, -, -⟩ := ReplayWindow.validate_tracks consistent.tracks consistent.attained
    (UInt64.ofNat number)
  have value : (UInt64.ofNat number).toNat = number % 2 ^ 64 := by simp
  rw [value] at fresh_iff
  have seen : ∀ earlier ∈ channel.accepted, earlier % 2 ^ 64 ≠ number % 2 ^ 64 ∧
      earlier % 2 ^ 64 ≤ number % 2 ^ 64 + 8128 := by
    intro earlier member
    obtain ⟨delivery, returned, same⟩ := List.mem_filterMap.mp member
    obtain ⟨result, had, rfl⟩ := Option.map_eq_some_iff.mp same
    exact window delivery.1 result (had ▸ returned)
  have unseen : number % 2 ^ 64 + 1 ∉ channel.recorded := by
    rintro ⟨earlier, member, same⟩
    have apart := (seen earlier member).1
    omega
  have inside : channel.receiver.replay.ring.top ≤ 8128 + (number % 2 ^ 64 + 1) := by
    rcases consistent.attained with empty | ⟨earlier, member, top⟩
    · omega
    · have near := (seen earlier member).2
      omega
  have counter : UInt64.ofNat number < kRejectAfterMessages := by
    rw [UInt64.lt_iff_toNat_lt, value]
    exact below
  rw [stepped]
  dsimp only
  rw [out_eq, if_pos (fresh_iff.mpr ⟨counter, unseen, inside⟩)]

/-- Both directions of a session, with nothing out of a stray datagram. -/
structure InOrder (crypto : Crypto) (duplex : Duplex) : Prop where
  up : Sound duplex.up duplex.upReturned
    fun number => (duplex.step crypto (.deliverUp number)).upReturned
  down : Sound duplex.down duplex.downReturned
    fun number => (duplex.step crypto (.deliverDown number)).downReturned
  strays : ∀ out ∈ duplex.strays, out = none

theorem inOrder_of_steady (lawful : crypto.Lawful) (steady : Steady crypto upKey downKey duplex) :
    InOrder crypto duplex := by
  obtain ⟨faithfulUp, onceUp, liveUp⟩ := sound_of_consistent lawful steady.upward
  obtain ⟨faithfulDown, onceDown, liveDown⟩ := sound_of_consistent lawful steady.downward
  refine ⟨?_, ?_, steady.strays⟩
  · refine ⟨faithfulUp, onceUp, fun number packet datagram found below window => ?_⟩
    refine Eq.trans ?_ (liveUp number packet datagram found below window)
    have sent : duplex.upward.sent = duplex.up := rfl
    simp only [Channel.step, step, sent, found]
    rfl
  · refine ⟨faithfulDown, onceDown, fun number packet datagram found below window => ?_⟩
    refine Eq.trans ?_ (liveDown number packet datagram found below window)
    obtain ⟨same, -⟩ := decapsulate_down lawful steady found
    have sent : duplex.downward.sent = duplex.down := rfl
    have receiver : duplex.downward.receiver = duplex.backend.asPeer := rfl
    simp only [Channel.step, step, sent, found, receiver, same]
    rfl

end Duplex

/-- A datagram that the backend passes over while it waits for a response. -/
def Skipped (datagram : Bytes) : Prop :=
  datagram ≠ [] ∧ ¬ (datagram.length = 92 ∧ octetAt datagram 0 = 2)

theorem awaitResponse_noise {noise : List Bytes} (skipped : ∀ datagram ∈ noise, Skipped datagram)
    {tries : Nat} (patient : noise.length < tries) {resp : Bytes}
    (shape : resp.length = 92 ∧ octetAt resp 0 = 2) (rest : List (Option Bytes)) :
    Backend.awaitResponse tries (noise.map some ++ some resp :: rest) = some resp := by
  induction noise generalizing tries with
  | nil =>
      cases tries with
      | zero => cases patient
      | succ tries =>
          have whole : resp.take 256 = resp := List.take_of_length_le (by omega)
          have filled : ¬ resp.length = 0 := by omega
          rw [List.map_nil, List.nil_append, Backend.awaitResponse]
          rw [whole, if_neg filled, if_pos shape]
  | cons datagram noise continued =>
      cases tries with
      | zero => cases patient
      | succ tries =>
          obtain ⟨filled, other⟩ := skipped datagram List.mem_cons_self
          have later := continued
            (fun other member => skipped other (List.mem_cons_of_mem _ member))
            (Nat.lt_of_succ_lt_succ patient)
          have positive := List.length_pos_of_ne_nil filled
          have length : (datagram.take 256).length = min 256 datagram.length := List.length_take
          have first : octetAt (datagram.take 256) 0 = octetAt datagram 0 := by
            cases datagram with
            | nil => exact absurd rfl filled
            | cons octet datagram => rfl
          rw [List.map_cons, List.cons_append, Backend.awaitResponse]
          rw [if_neg (by omega), if_neg, later]
          rw [length, first]
          rintro ⟨exact_, type⟩
          exact other ⟨by omega, type⟩

/-- A response that completes the handshake of a peer object in the backend's state completes the
backend's, with the same keys. -/
theorem handshake_completes {backend : Backend} {exchange : Exchange} {initiator done : WGPeer}
    {msg resp : Bytes}
    (built : backend.asPeer.buildInitiation crypto exchange.draw backend.privateKey
      backend.peerPublicKey = (initiator, some msg))
    (completed : initiator.consumeResponse crypto exchange.draw.systemTime resp = (done, true))
    (psk : backend.presharedKey.getD (Buffer.zero 32) = Buffer.zero 32)
    (sent : exchange.sent = true)
    (awaited : Backend.awaitResponse 64 exchange.received = some resp) :
    ∃ after : Backend, backend.call crypto (.handshake exchange) =
        ({ after with sendCounter := 0, replay := {} }, ⟨some msg, true⟩) ∧
      done.sendKey = after.sendKey ∧ done.recvKey = after.recvKey := by
  obtain ⟨same, twin, ours⟩ := buildInitiation_twin crypto (twin_asPeer backend) exchange
  obtain ⟨static, -, unshared⟩ := buildInitiation_static crypto exchange backend
  rw [built] at same twin ours
  rw [← unshared] at psk
  have own := ours.trans static.symm
  obtain ⟨length, type, -⟩ := WGPeer.consumeResponse_true completed
  cases initiated : backend.buildInitiation crypto exchange with
  | mk started first =>
      rw [initiated] at same twin psk own
      dsimp only at same twin psk own
      subst same
      obtain ⟨verdict, -, finished, -⟩ :=
        consumeResponse_twin crypto twin own psk ⟨length, type⟩ exchange.draw.systemTime
      rw [completed] at verdict finished
      cases ended : started.consumeResponse crypto resp with
      | mk after accepted =>
          rw [ended] at verdict finished
          dsimp only at verdict finished
          subst verdict
          have endpoint := finished rfl
          simp only [WGPeer.endpoint, Backend.endpoint, Endpoint.mk.injEq] at endpoint
          obtain ⟨-, -, -, -, -, -, sendKey, recvKey, -, -⟩ := endpoint
          have performed : backend.performHandshake crypto exchange = (after, true) := by
            rw [Backend.performHandshake, initiated]
            dsimp only
            rw [if_neg (by rw [sent]; exact Bool.noConfusion), awaited]
            exact ended
          refine ⟨after, ?_, sendKey, recvKey⟩
          rw [Backend.call, performed, initiated]

/-- A session begins in order where the keys agree and nothing has been sent. -/
theorem steady_start {after : Backend} {done responder : WGPeer}
    (agree : WGPeer.Agree done responder) (unused : WGPeer.Unused responder)
    (sendKey : done.sendKey = after.sendKey) (recvKey : done.recvKey = after.recvKey) :
    Duplex.Steady crypto responder.recvKey after.recvKey
      { backend := { after with sendCounter := 0, replay := {} }, peer := responder } := by
  have upward : Installed ({ after with sendCounter := 0, replay := {} } : Backend).asPeer
      responder :=
    ⟨rfl, agree.rightKeys, sendKey.symm.trans agree.forward, rfl, unused.unread⟩
  have downward : Installed responder
      ({ after with sendCounter := 0, replay := {} } : Backend).asPeer :=
    ⟨agree.rightKeys, rfl, agree.backward.trans recvKey, unused.sendCounter, rfl⟩
  refine ⟨Channel.consistent_installed crypto upward, Channel.consistent_installed crypto downward,
    fun _ member => ?_⟩
  cases member

/-- A backend that initiates and a peer object that answers come to share a session, in spite of
other datagrams before the response, and it is in order in both directions ever after, in spite
of datagrams that do not open. -/
theorem interop (lawful : crypto.Lawful) (own remote ephemeral answer : KeyPair crypto)
    (backend : Backend) (exchange : Exchange) (responder : WGPeer) (draw : Draw)
    (index answerIndex : UInt32) (privateKey : backend.privateKey = own.priv)
    (peerKey : backend.peerPublicKey = remote.pub)
    (psk : backend.presharedKey.getD (Buffer.zero 32) = Buffer.zero 32)
    (generated : exchange.draw.ephemeral = some (ephemeral.priv, ephemeral.pub))
    (drawn : exchange.draw.index = some index)
    (answerGenerated : draw.ephemeral = some (answer.priv, answer.pub))
    (answerDrawn : draw.index = some answerIndex) :
    ∃ msg responder' resp,
      (backend.buildInitiation crypto exchange).2 = some msg ∧
      responder.answerInitiation crypto draw remote.priv msg = (responder', some resp) ∧
      ∀ (noise : List Bytes) (rest : List (Option Bytes)), noise.length < 64 →
        (∀ datagram ∈ noise, Skipped datagram) →
        exchange.sent = true → exchange.received = noise.map some ++ some resp :: rest →
        ∃ backend', backend.call crypto (.handshake exchange) = (backend', ⟨some msg, true⟩) ∧
          ∀ events,
            (∀ event ∈ events, Duplex.Legal crypto responder'.recvKey backend'.recvKey event) →
            Duplex.InOrder crypto
              (Duplex.run crypto { backend := backend', peer := responder' } events) := by
  obtain ⟨initiator, msg, built, -, outstanding⟩ := WGPeer.buildInitiation_outstanding lawful own
    remote ephemeral exchange.draw index backend.asPeer generated drawn
  obtain ⟨-, responder₁, responder', resp, consumed, answered, -, unused, completes⟩ :=
    WGPeer.answer_outstanding lawful outstanding responder answer draw answerIndex
      answerGenerated answerDrawn
  obtain ⟨done, completed, agree, -⟩ := completes exchange.draw.systemTime
  rw [← privateKey, ← peerKey] at built
  refine ⟨msg, responder', resp, ?_, ?_, ?_⟩
  · have same := (buildInitiation_twin crypto (twin_asPeer backend) exchange).1
    rw [← same, built]
  · rw [WGPeer.answerInitiation, consumed]
    exact answered
  · intro noise rest patient skipped sent received
    obtain ⟨length, type, -⟩ := WGPeer.consumeResponse_true completed
    have awaited : Backend.awaitResponse 64 exchange.received = some resp := by
      rw [received]
      exact awaitResponse_noise skipped patient ⟨length, type⟩ rest
    obtain ⟨after, called, sendKey, recvKey⟩ :=
      handshake_completes built completed psk sent awaited
    refine ⟨{ after with sendCounter := 0, replay := {} }, called, fun events legal => ?_⟩
    have start := @steady_start crypto after done responder' agree unused sendKey recvKey
    have preserved : ∀ (duplex : Duplex) (event : Duplex.Event),
        Duplex.Legal crypto responder'.recvKey after.recvKey event →
        Duplex.Steady crypto responder'.recvKey after.recvKey duplex →
        Duplex.Steady crypto responder'.recvKey after.recvKey (duplex.step crypto event) :=
      fun _ _ legal steady => Duplex.steady_step lawful legal steady
    exact Duplex.inOrder_of_steady lawful (Run.invariant_run preserved legal start)

open InteropSample in
/-- A stray datagram comes before the response and another behind it. -/
theorem interop_transparent :
    ∃ msg responder' resp backend',
      backend.call Transparent.crypto (.handshake (exchange [some [4], some response])) =
        (backend', ⟨some msg, true⟩) ∧
      ({} : WGPeer).answerInitiation Transparent.crypto (Transparent.draw 4 9 0)
        (Transparent.pair 2).priv msg = (responder', some resp) ∧
      Duplex.InOrder Transparent.crypto
        (Duplex.run Transparent.crypto { backend := backend', peer := responder' }
          [.sendUp packet, .injectUp forged, .deliverUp 0, .sendDown 1 packet, .deliverDown 0]) := by
  obtain ⟨msg, responder', resp, built, answered, shared⟩ :=
    interop Transparent.lawful (Transparent.pair 1) (Transparent.pair 2) (Transparent.pair 3)
      (Transparent.pair 4) backend (exchange [some [4], some response]) {}
      (Transparent.draw 4 9 0) 7 9 rfl rfl rfl rfl rfl rfl rfl
  have responder : InteropSample.answered = (responder', some resp) := by
    have first : (backend.buildInitiation Transparent.crypto (exchange [])).2 = some msg := built
    rw [InteropSample.answered, first]
    exact answered
  have replied : response = resp := by
    rw [response, responder, Option.getD_some]
  have skipped : ∀ datagram ∈ ([[4]] : List Bytes), Skipped datagram := by
    simp [Skipped]
  obtain ⟨backend', handshake, ordered⟩ := shared [[4]] [] (by decide) skipped rfl
    (by rw [replied]; rfl)
  have payload : Payload packet := .ipv4 (by decide) (by decide) (by decide) (by decide)
  refine ⟨msg, responder', resp, backend', handshake, answered, ordered _ ?_⟩
  have garbage : Duplex.Garbage Transparent.crypto responder'.recvKey forged := by
    have closed : Duplex.Garbage Transparent.crypto InteropSample.answered.1.recvKey forged := by
      decide +kernel
    rwa [responder] at closed
  simpa [Duplex.Legal, payload] using garbage

end Sessions

end Sotoportego.WireGuard
