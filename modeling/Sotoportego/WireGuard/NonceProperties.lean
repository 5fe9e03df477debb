import Sotoportego.WireGuard.TranscriptProperties
import Sotoportego.WireGuard.Transparent

/-!
# No nonce is used twice

For a peer object and for the backend's reader thread: as long as fresh ephemerals
and the key derivation keep the installed sessions apart, no two encapsulations share
a send key and a counter. In the reader the keys change in `_PerformHandshake` and the
counter is reset by its callers, so every stage of an iteration is followed.
-/

set_option autoImplicit false

namespace Sotoportego.WireGuard

open Octets

namespace Backend

theorem buildInitiation_transport (crypto : Crypto) (exchange : Exchange) (backend : Backend) :
    (backend.buildInitiation crypto exchange).1.sendKey = backend.sendKey ∧
      (backend.buildInitiation crypto exchange).1.sendCounter = backend.sendCounter := by
  unfold buildInitiation
  simp only
  repeat' split
  all_goals exact ⟨rfl, rfl⟩

/-- What a sent initiation leaves for the response. -/
theorem buildInitiation_some {crypto : Crypto} {exchange : Exchange} {backend sent : Backend}
    {msg : Bytes} (initiated : backend.buildInitiation crypto exchange = (sent, some msg)) :
    ∃ ephemeralPrivate ephemeralPublic es ss,
      exchange.draw.ephemeral = some (ephemeralPrivate, ephemeralPublic) ∧
      crypto.dh ephemeralPrivate backend.peerPublicKey = some es ∧
      crypto.dh backend.privateKey backend.peerPublicKey = some ss ∧
      sent.chainingKey = [ephemeralPublic.bytes, es.bytes, ss.bytes].foldl (kdf1 crypto)
        (crypto.hash kConstruction) ∧
      sent.ephemeralPrivate = ephemeralPrivate ∧ sent.privateKey = backend.privateKey ∧
      sent.presharedKey = backend.presharedKey := by
  unfold buildInitiation at initiated
  simp only at initiated
  split at initiated
  · cases initiated
  · split at initiated
    · cases initiated
    · next ephemeralPrivate ephemeralPublic generated =>
      split at initiated
      · cases initiated
      · next es agreeEs =>
        split at initiated
        · cases initiated
        · split at initiated
          · cases initiated
          · next ss agreeSs =>
            split at initiated
            · cases initiated
            · split at initiated
              · cases initiated
              · obtain ⟨sent_eq, _⟩ := Prod.mk.inj initiated
                subst sent_eq
                exact ⟨ephemeralPrivate, ephemeralPublic, es, ss, generated, agreeEs, agreeSs, rfl,
                  rfl, rfl, rfl⟩

theorem consumeResponse_sendCounter (crypto : Crypto) (resp : Bytes) (backend : Backend) :
    (backend.consumeResponse crypto resp).1.sendCounter = backend.sendCounter := by
  unfold consumeResponse
  simp only
  repeat' split
  all_goals rfl

/-- The response either completes the transcript or leaves the send key alone. -/
theorem consumeResponse_sendKey (crypto : Crypto) (resp : Bytes) (backend : Backend) :
    ((backend.consumeResponse crypto resp).2 = false ∧
        (backend.consumeResponse crypto resp).1.sendKey = backend.sendKey) ∨
      ((backend.consumeResponse crypto resp).2 = true ∧
        ∃ ee se, crypto.dh backend.ephemeralPrivate (slice 32 resp 12) = some ee ∧
          crypto.dh backend.privateKey (slice 32 resp 12) = some se ∧
          (backend.consumeResponse crypto resp).1.sendKey =
            (kdf2 crypto ([(slice 32 resp 12 : Key).bytes, ee.bytes, se.bytes,
              (backend.presharedKey.getD (Buffer.zero 32)).bytes].foldl (kdf1 crypto)
                backend.chainingKey) []).1) := by
  unfold consumeResponse
  split
  · exact Or.inl ⟨rfl, rfl⟩
  · simp only
    cases crypto.dh backend.ephemeralPrivate (slice 32 resp 12) with
    | none => exact Or.inl ⟨rfl, rfl⟩
    | some ee =>
        simp only
        cases crypto.dh backend.privateKey (slice 32 resp 12) with
        | none => exact Or.inl ⟨rfl, rfl⟩
        | some se =>
            simp only
            split
            · exact Or.inl ⟨rfl, rfl⟩
            · exact Or.inr ⟨rfl, ee, se, rfl, rfl, rfl⟩

theorem performHandshake_sendCounter (crypto : Crypto) (exchange : Exchange)
    (backend : Backend) :
    (backend.performHandshake crypto exchange).1.sendCounter = backend.sendCounter := by
  have initiated := (buildInitiation_transport crypto exchange backend).2
  unfold performHandshake
  split
  · next sent failed =>
    rw [failed] at initiated
    exact initiated
  · next sent msg succeeded =>
    rw [succeeded] at initiated
    split
    · exact initiated
    · split
      · exact initiated
      · rw [consumeResponse_sendCounter]
        exact initiated

/-- A handshake either fails and keeps the send key, or installs the keys of a
transcript that its own fresh ephemeral is part of. -/
theorem performHandshake_sendKey (crypto : Crypto) (exchange : Exchange) (backend : Backend) :
    ((backend.performHandshake crypto exchange).2 = false ∧
        (backend.performHandshake crypto exchange).1.sendKey = backend.sendKey) ∨
      ((backend.performHandshake crypto exchange).2 = true ∧
        ∃ pair, exchange.draw.ephemeral = some pair ∧
          pair.2.bytes ∈ (backend.transcript crypto exchange).inputs ∧
          (backend.performHandshake crypto exchange).1.sendKey =
            transportKey crypto (.initiator, backend.transcript crypto exchange)) := by
  have kept := (buildInitiation_transport crypto exchange backend).1
  unfold performHandshake
  split
  · next sent unsent =>
    rw [unsent] at kept
    exact Or.inl ⟨rfl, kept⟩
  · next sent msg succeeded =>
    rw [succeeded] at kept
    split
    · exact Or.inl ⟨rfl, kept⟩
    cases received : awaitResponse 64 exchange.received with
    | none => exact Or.inl ⟨rfl, kept⟩
    | some resp =>
        simp only
        rcases consumeResponse_sendKey crypto resp sent with
          ⟨failed, same⟩ | ⟨completed, ee, se, agreeEe, agreeSe, key_eq⟩
        · exact Or.inl ⟨failed, same.trans kept⟩
        · right
          obtain ⟨ephemeralPrivate, ephemeralPublic, es, ss, generated, agreeEs, agreeSs, chain,
            ephemeral_eq, private_eq, psk_eq⟩ := buildInitiation_some succeeded
          rw [ephemeral_eq] at agreeEe
          rw [private_eq] at agreeSe
          have mixed : backend.transcript crypto exchange = {
              rooted := true
              inputs := [ephemeralPublic.bytes, es.bytes, ss.bytes,
                (slice 32 resp 12 : Key).bytes, ee.bytes, se.bytes,
                (backend.presharedKey.getD (Buffer.zero 32)).bytes] } := by
            simp only [transcript, generated, received, agreeEs, agreeSs, agreeEe, agreeSe,
              Option.getD_some]
          refine ⟨completed, (ephemeralPrivate, ephemeralPublic), generated, ?_, ?_⟩
          · rw [mixed]
            exact List.mem_cons_self
          · rw [mixed, key_eq, chain, psk_eq]
            rfl

theorem encapsulate_transport (crypto : Crypto) (backend : Backend) (plain : Bytes) :
    (backend.encapsulate crypto plain).1.sendKey = backend.sendKey ∧
      (backend.encapsulate crypto plain).1.sendCounter =
        (if (backend.encapsulate crypto plain).2.isSome = true then backend.sendCounter + 1
          else backend.sendCounter) := by
  unfold encapsulate
  simp only
  split
  · exact ⟨rfl, rfl⟩
  · split
    · exact ⟨rfl, rfl⟩
    · exact ⟨rfl, rfl⟩

theorem decapsulate_transport (crypto : Crypto) (backend : Backend) (packet : Bytes) :
    (backend.decapsulate crypto packet).1.sendKey = backend.sendKey ∧
      (backend.decapsulate crypto packet).1.sendCounter = backend.sendCounter := by
  unfold decapsulate
  simp only
  repeat' split
  all_goals exact ⟨rfl, rfl⟩

end Backend

namespace Reader

/-- A stage that may encapsulate once. -/
structure Sends (reader : Reader) (result : Reader × Option Bytes) : Prop where
  phase : result.1.phase = reader.phase
  sendKey : result.1.backend.sendKey = reader.backend.sendKey
  sendCounter : result.1.backend.sendCounter =
    if result.2.isSome = true then reader.backend.sendCounter + 1 else reader.backend.sendCounter

/-- A stage that does not touch the sending side. -/
structure Keeps (reader result : Reader) : Prop where
  phase : result.phase = reader.phase
  sendKey : result.backend.sendKey = reader.backend.sendKey
  sendCounter : result.backend.sendCounter = reader.backend.sendCounter

theorem sends_forwardTunReady (crypto : Crypto) (round : Round) (tun : Option Bytes)
    (reader : Reader) : Sends reader (reader.forwardTunReady crypto round tun) := by
  cases tun with
  | none => exact ⟨rfl, rfl, rfl⟩
  | some plain =>
      obtain ⟨key_eq, counter_eq⟩ :=
        Backend.encapsulate_transport crypto reader.backend (plain.take 1500)
      simp only [forwardTunReady, forwardTun]
      split
      · exact ⟨rfl, rfl, rfl⟩
      · split
        · next backend produced =>
          rw [produced] at key_eq counter_eq
          exact ⟨rfl, key_eq, counter_eq⟩
        · next backend wire produced =>
          rw [produced] at key_eq counter_eq
          split
          · exact ⟨rfl, key_eq, counter_eq⟩
          · exact ⟨rfl, key_eq, counter_eq⟩

theorem sends_sendKeepalive (crypto : Crypto) (now : Int) (reader : Reader) :
    Sends reader (reader.sendKeepalive crypto now) := by
  obtain ⟨key_eq, counter_eq⟩ := Backend.encapsulate_transport crypto reader.backend []
  unfold sendKeepalive
  split
  · split
    · next backend produced =>
      rw [produced] at key_eq counter_eq
      exact ⟨rfl, key_eq, counter_eq⟩
    · next backend wire produced =>
      rw [produced] at key_eq counter_eq
      exact ⟨rfl, key_eq, counter_eq⟩
  · exact ⟨rfl, rfl, rfl⟩

theorem keeps_forwardUdpReady (crypto : Crypto) (udp : Option Bytes) (reader : Reader) :
    Keeps reader (reader.forwardUdpReady crypto udp) := by
  cases udp with
  | none => exact ⟨rfl, rfl, rfl⟩
  | some wire =>
      obtain ⟨key_eq, counter_eq⟩ :=
        Backend.decapsulate_transport crypto reader.backend (wire.take 2048)
      simp only [forwardUdpReady, forwardUdp]
      split
      · exact ⟨rfl, rfl, rfl⟩
      · split
        · next backend dropped =>
          rw [dropped] at key_eq counter_eq
          exact ⟨rfl, key_eq, counter_eq⟩
        · next backend plain received =>
          rw [received] at key_eq counter_eq
          split
          · exact ⟨rfl, key_eq, counter_eq⟩
          · exact ⟨rfl, key_eq, counter_eq⟩

theorem keeps_report (now : Int) (reader : Reader) : Keeps reader (reader.report now) := by
  unfold report
  split
  · exact ⟨rfl, rfl, rfl⟩
  · exact ⟨rfl, rfl, rfl⟩

/-- The key and counter after a stage that may run a handshake: new keys start at
counter zero, failed ones leave both. -/
structure Keys (crypto : Crypto) (exchange : Exchange) (reader : Reader)
    (result : Reader × Bool) : Prop where
  kept : result.2 = false → result.1.backend.sendKey = reader.backend.sendKey ∧
    result.1.backend.sendCounter = reader.backend.sendCounter
  installed : result.2 = true → result.1.backend.sendCounter = 0 ∧
    ∃ pair, exchange.draw.ephemeral = some pair ∧
      pair.2.bytes ∈ (reader.backend.transcript crypto exchange).inputs ∧
      result.1.backend.sendKey =
        transportKey crypto (.initiator, reader.backend.transcript crypto exchange)

theorem emitInitiation_frame (crypto : Crypto) (exchange : Exchange) (reader : Reader) :
    ∃ outputs, reader.emitInitiation crypto exchange = { reader with outputs } := by
  unfold emitInitiation
  split
  · exact ⟨_, rfl⟩
  · exact ⟨_, rfl⟩

theorem keys_rekey (crypto : Crypto) (round : Round) (reader : Reader) :
    Keys crypto round.exchange reader (reader.rekey crypto round) := by
  have counter_eq := Backend.performHandshake_sendCounter crypto round.exchange reader.backend
  have outcome := Backend.performHandshake_sendKey crypto round.exchange reader.backend
  obtain ⟨outputs, emitted⟩ := emitInitiation_frame crypto round.exchange reader
  simp only [rekey, emitted]
  split
  · split
    · next backend completed =>
      rw [completed] at outcome
      rcases outcome with ⟨failed, _⟩ | ⟨_, installed⟩
      · cases failed
      · exact ⟨fun failed => (nomatch failed), fun _ => ⟨rfl, installed⟩⟩
    · next backend failed =>
      rw [failed] at outcome counter_eq
      rcases outcome with ⟨_, same⟩ | ⟨completed, _⟩
      · split
        · exact ⟨fun _ => ⟨same, counter_eq⟩, fun completed => nomatch completed⟩
        · exact ⟨fun _ => ⟨same, counter_eq⟩, fun completed => nomatch completed⟩
      · cases completed
  · exact ⟨fun _ => ⟨rfl, rfl⟩, fun completed => nomatch completed⟩

theorem keys_attempt (crypto : Crypto) (input : Attempt) (count : Nat) (reader : Reader) :
    Keys crypto input.exchange reader (reader.attempt crypto input count,
      decide (count < kHandshakeAttempts) && !input.stopRequested &&
        (reader.backend.performHandshake crypto input.exchange).2) := by
  have counter_eq := Backend.performHandshake_sendCounter crypto input.exchange reader.backend
  have outcome := Backend.performHandshake_sendKey crypto input.exchange reader.backend
  obtain ⟨outputs, emitted⟩ := emitInitiation_frame crypto input.exchange reader
  simp only [attempt, emitted]
  split
  · next tried =>
    simp only [tried.1, tried.2, decide_true, Bool.not_false, Bool.true_and]
    split
    · next backend completed =>
      rw [completed] at outcome ⊢
      rcases outcome with ⟨failed, _⟩ | ⟨_, installed⟩
      · cases failed
      · exact ⟨fun failed => (nomatch failed), fun _ => ⟨rfl, installed⟩⟩
    · next backend failed =>
      rw [failed] at outcome counter_eq ⊢
      rcases outcome with ⟨_, same⟩ | ⟨completed, _⟩
      · exact ⟨fun _ => ⟨same, counter_eq⟩, fun completed => nomatch completed⟩
      · cases completed
  · next skipped =>
    refine ⟨fun _ => ⟨rfl, rfl⟩, fun completed => absurd ?_ skipped⟩
    simp only [Bool.and_eq_true, decide_eq_true_eq, Bool.not_eq_true'] at completed
    exact completed.1

end Reader

namespace ObservedReader

structure Tracked (crypto : Crypto) (observed : ObservedReader) : Prop where
  live : observed.reader.phase = .running → observed.sessions.current.isSome = true
  accounted : Accounted crypto observed.sessions observed.sealed observed.reader.backend.sendKey
    observed.reader.backend.sendCounter

section Stages

variable {crypto : Crypto} {observed : ObservedReader}

theorem tracked_move (tracked : Tracked crypto observed) {reader : Reader}
    (keeps : Reader.Keeps observed.reader reader) : Tracked crypto (observed.move reader) where
  live := fun running => tracked.live (keeps.phase ▸ running)
  accounted := by
    simpa only [move, keeps.sendKey, keeps.sendCounter] using tracked.accounted

theorem tracked_sent (tracked : Tracked crypto observed)
    (running : observed.reader.phase = .running) {result : Reader × Option Bytes}
    (sends : Reader.Sends observed.reader result) : Tracked crypto (observed.sent result) := by
  have live := tracked.live running
  unfold sent
  split
  · next produced =>
    have counter_eq := sends.sendCounter
    rw [if_pos produced] at counter_eq
    obtain ⟨session, current⟩ := Option.isSome_iff_exists.mp live
    exact {
      live := fun _ => by simp [SealLog.Machine.send, current]
      accounted := by
        simpa only [sends.sendKey, counter_eq] using tracked.accounted.send live }
  · next silent =>
    have counter_eq := sends.sendCounter
    rw [if_neg silent] at counter_eq
    exact tracked_move tracked ⟨sends.phase, sends.sendKey, counter_eq⟩

theorem tracked_keyed (tracked : Tracked crypto observed) {exchange : Exchange}
    {result : Reader × Bool} (keys : Reader.Keys crypto exchange observed.reader result)
    (running : result.2 = false → result.1.phase = .running → observed.reader.phase = .running)
    (fresh : ∀ pair, exchange.draw.ephemeral = some pair →
      ∀ session ∈ observed.sessions.installed, pair.2.bytes ∉ session.2.inputs) :
    Tracked crypto (observed.keyed crypto exchange result) := by
  unfold keyed
  split
  · next completed =>
    obtain ⟨counter_eq, pair, generated, mixed, key_eq⟩ := keys.installed completed
    have new : ∀ session ∈ observed.sessions.installed,
        session.2 ≠ observed.reader.backend.transcript crypto exchange :=
      fun session member same => fresh pair generated session member (same ▸ mixed)
    exact {
      live := fun _ => rfl
      accounted := by
        simpa only [key_eq, counter_eq] using tracked.accounted.install new }
  · next failed =>
    have failed : result.2 = false := by simpa using failed
    obtain ⟨key_eq, counter_eq⟩ := keys.kept failed
    exact {
      live := fun phase => tracked.live (running failed phase)
      accounted := by simpa only [move, key_eq, counter_eq] using tracked.accounted }

theorem installed_sent (observed : ObservedReader) (result : Reader × Option Bytes) :
    (observed.sent result).sessions.installed = observed.sessions.installed := by
  unfold sent
  split
  · simp only [SealLog.Machine.send]
    split
    · rfl
    · rfl
  · rfl

theorem reader_sent (observed : ObservedReader) (result : Reader × Option Bytes) :
    (observed.sent result).reader = result.1 := by
  unfold sent
  split
  · rfl
  · rfl

theorem reader_keyed (observed : ObservedReader) (exchange : Exchange)
    (result : Reader × Bool) : (observed.keyed crypto exchange result).reader = result.1 := by
  unfold keyed
  split
  · rfl
  · rfl

theorem reader_round (input : Round) (observed : ObservedReader) :
    (observed.round crypto input).reader = observed.reader.round crypto input := by
  unfold round
  split
  · rfl
  · next continued =>
    cases chosen : input.select with
    | interrupted => rfl
    | failed => rfl
    | ready tun udp =>
        simp only [Reader.round, if_neg continued, chosen, reader_keyed, move, reader_sent]

/-- Observing does not disturb: the reader takes its own step. -/
theorem reader_step (event : Reader.Event) (observed : ObservedReader) :
    (observed.step crypto event).reader = observed.reader.step crypto event := by
  cases event with
  | attempt input =>
      cases phase : observed.reader.phase with
      | handshaking count =>
          simp only [step, Reader.step, phase]
          exact reader_keyed observed input.exchange _
      | running => simp only [step, Reader.step, phase]
      | exited => simp only [step, Reader.step, phase]
  | round input =>
      cases phase : observed.reader.phase with
      | handshaking count => simp only [step, Reader.step, phase]
      | running =>
          simp only [step, Reader.step, phase]
          exact reader_round input observed
      | exited => simp only [step, Reader.step, phase]

theorem tracked_round (tracked : Tracked crypto observed)
    (running : observed.reader.phase = .running) {input : Round}
    (fresh : observed.Allowed (.round input)) :
    Tracked crypto (observed.round crypto input) := by
  have exits (reader : Reader) (exited : reader.phase = .exited)
      (same : reader.backend = observed.reader.backend) :
      Tracked crypto (observed.move reader) := {
    live := fun phase => by
      rw [move, exited] at phase
      cases phase
    accounted := by simpa only [move, same] using tracked.accounted }
  unfold round
  split
  · next stopped =>
    simp only [Reader.round, if_pos stopped]
    exact exits _ rfl rfl
  · next continued =>
    cases chosen : input.select with
    | interrupted =>
        simp only [Reader.round, if_neg continued, chosen]
        exact tracked_move tracked ⟨rfl, rfl, rfl⟩
    | failed =>
        simp only [Reader.round, if_neg continued, chosen]
        exact exits _ rfl rfl
    | ready tun udp =>
        have tunSends := Reader.sends_forwardTunReady crypto input tun observed.reader
        have afterTun := tracked_sent tracked running tunSends
        have tunRunning := running
        rw [← tunSends.phase, ← reader_sent observed] at tunRunning
        have udpKeeps := Reader.keeps_forwardUdpReady crypto udp
          (observed.sent (observed.reader.forwardTunReady crypto input tun)).reader
        have afterUdp := tracked_move afterTun udpKeeps
        have udpRunning := udpKeeps.phase.trans tunRunning
        have keepaliveSends := Reader.sends_sendKeepalive crypto input.now
          (((observed.sent (observed.reader.forwardTunReady crypto input tun)).reader).forwardUdpReady
            crypto udp)
        have afterKeepalive := tracked_sent afterUdp udpRunning keepaliveSends
        have afterReport := tracked_move afterKeepalive (Reader.keeps_report input.now _)
        refine tracked_keyed afterReport (Reader.keys_rekey crypto input _) ?_ ?_
        · intro _ _
          rw [move, (Reader.keeps_report input.now _).phase, reader_sent, keepaliveSends.phase]
          exact udpRunning
        · intro pair generated session member
          rw [move, installed_sent, move, installed_sent] at member
          exact fresh pair generated session member

theorem tracked_attempt (tracked : Tracked crypto observed) {count : Nat} {input : Attempt}
    (fresh : observed.Allowed (.attempt input)) :
    Tracked crypto (observed.attempt crypto input count) := by
  refine tracked_keyed tracked (Reader.keys_attempt crypto input count observed.reader) ?_ fresh
  intro failed phase
  simp only [Reader.attempt] at failed phase
  split at phase
  · next tried =>
    simp only [tried.1, tried.2, decide_true, Bool.not_false, Bool.true_and] at failed
    split at phase
    · next backend completed =>
      rw [completed] at failed
      cases failed
    · cases phase
  · cases phase

theorem tracked_step (event : Reader.Event) (allowed : observed.Allowed event)
    (tracked : Tracked crypto observed) : Tracked crypto (observed.step crypto event) := by
  cases event with
  | attempt input =>
      simp only [step]
      split
      · exact tracked_attempt tracked allowed
      · exact tracked
  | round input =>
      simp only [step]
      split
      · next running => exact tracked_round tracked running allowed
      · exact tracked

end Stages

theorem tracked_run {crypto : Crypto} {reader : Reader} (starting : reader.phase = .handshaking 0)
    {events : List Reader.Event}
    (allowed : Run.Along (step crypto) Allowed { reader } events) :
    Tracked crypto (run crypto reader events) := by
  refine Run.invariant_along (fun _ event => tracked_step event) allowed ?_
  exact {
    live := fun running => by
      rw [starting] at running
      cases running
    accounted := Accounted.unused crypto _ _ }

end ObservedReader

/-- Distinct sessions have distinct send keys. -/
def Separate (crypto : Crypto) (sessions : SealLog.Machine (Role × Transcript)) : Prop :=
  ∀ left ∈ sessions.installed, ∀ right ∈ sessions.installed,
    transportKey crypto left = transportKey crypto right → left = right

/-- No session sealed more than 2^64 packets. -/
def Short (sessions : SealLog.Machine (Role × Transcript)) : Prop :=
  ∀ entry ∈ sessions.log, entry.2 < 2 ^ 64

/-- Every run of a peer object and every run of the reader thread uses each pair of
send key and counter at most once. -/
theorem nonce_uniqueness (crypto : Crypto) :
    (∀ calls : List Observed.Call,
      Run.Along (Observed.step crypto) Observed.Allowed {} calls →
      Separate crypto (Observed.run crypto calls).sessions →
      Short (Observed.run crypto calls).sessions →
      (Observed.run crypto calls).sealed.Nodup) ∧
    (∀ (reader : Reader) (events : List Reader.Event), reader.phase = .handshaking 0 →
      Run.Along (ObservedReader.step crypto) ObservedReader.Allowed { reader } events →
      Separate crypto (ObservedReader.run crypto reader events).sessions →
      Short (ObservedReader.run crypto reader events).sessions →
      (ObservedReader.run crypto reader events).sealed.Nodup) := by
  constructor
  · intro calls allowed separate short
    exact (Observed.tracked_run allowed).accounted.nodup separate short
  · intro reader events starting allowed separate short
    exact (ObservedReader.tracked_run starting allowed).accounted.nodup separate short

namespace Transparent

def backend : Backend where
  privateKey := (pair 1).priv
  peerPublicKey := (pair 2).pub
  presharedKey := none

/-- The backend's initiation, and a responder's answer to it. -/
def initiation : Bytes :=
  ((backend.buildInitiation crypto ⟨draw 3 7 0, true, []⟩).2).getD []

def response : Bytes :=
  ((WGPeer.answerInitiation crypto (draw 4 9 0) {} (pair 2).priv initiation).2).getD []

def responderCalls : List Observed.Call := [
  .consumeInitiation (pair 2).priv initiation, .buildResponse (draw 4 9 0),
  .encapsulate 1 [], .encapsulate 2 []]

def readerEvents : List Reader.Event := [
  .attempt ⟨false, ⟨draw 3 7 0, true, [some response]⟩, 1⟩,
  .round ⟨false, .ready (some [0x45]) none, true, 2, 2, false, ⟨⟨none, none, 0, 0⟩, true, []⟩, 3⟩]

end Transparent

private theorem fresh_of_unused {observed : Observed} {draw : Draw}
    (unused : observed.sessions.installed = []) : observed.Fresh draw := by
  intro pair _ session member
  rw [unused] at member
  cases member

private theorem allowed_of_unused {observed : ObservedReader} {event : Reader.Event}
    (unused : observed.sessions.installed = []) : observed.Allowed event := by
  intro pair _ session member
  rw [unused] at member
  cases member

instance (crypto : Crypto) (sessions : SealLog.Machine (Role × Transcript)) :
    Decidable (Separate crypto sessions) :=
  inferInstanceAs (Decidable (∀ left ∈ sessions.installed, ∀ right ∈ sessions.installed,
    transportKey crypto left = transportKey crypto right → left = right))

instance (sessions : SealLog.Machine (Role × Transcript)) : Decidable (Short sessions) :=
  inferInstanceAs (Decidable (∀ entry ∈ sessions.log, entry.2 < 2 ^ 64))

theorem nonce_uniqueness_transparent :
    (Observed.run Transparent.crypto Transparent.responderCalls).sealed.Nodup ∧
      (ObservedReader.run Transparent.crypto
        { backend := Transparent.backend, keepalive := 0 } Transparent.readerEvents).sealed.Nodup := by
  obtain ⟨peer, reader⟩ := nonce_uniqueness Transparent.crypto
  constructor
  · have checked : Separate Transparent.crypto
        (Observed.run Transparent.crypto Transparent.responderCalls).sessions ∧
        Short (Observed.run Transparent.crypto Transparent.responderCalls).sessions := by
      decide +kernel
    refine peer _ ?_ checked.1 checked.2
    exact ⟨trivial, fresh_of_unused (by decide +kernel), trivial, trivial, trivial⟩
  · have checked : Separate Transparent.crypto (ObservedReader.run Transparent.crypto
        { backend := Transparent.backend, keepalive := 0 } Transparent.readerEvents).sessions ∧
        Short (ObservedReader.run Transparent.crypto
          { backend := Transparent.backend, keepalive := 0 } Transparent.readerEvents).sessions := by
      decide +kernel
    refine reader _ _ rfl ?_ checked.1 checked.2
    exact ⟨allowed_of_unused rfl, fun _ generated => (nomatch generated), trivial⟩

namespace Transparent

/-- The left end initiates; the right end consumes that, initiates itself and only
then answers, so its response continues the transcript of its own initiation. -/
def ownInitiation : Bytes :=
  ((WGPeer.buildInitiation crypto (draw 3 7 0) {} (pair 1).priv (pair 2).pub).2).getD []

def crossing : WGPeer × Option Bytes :=
  (WGPeer.consumeInitiation crypto {} (pair 2).priv ownInitiation).1.buildInitiation crypto
    (draw 4 8 0) (pair 2).priv (pair 1).pub

def crossingInitiation : Bytes := crossing.2.getD []

def crossingResponse : Bytes := ((crossing.1.buildResponse crypto (draw 5 9 0)).2).getD []

def rewoundCalls : List Observed.Call := [
  .buildInitiation (draw 3 7 0) (pair 1).priv (pair 2).pub,
  .consumeInitiation (pair 1).priv crossingInitiation, .consumeResponse 1 crossingResponse,
  .encapsulate 2 [],
  .consumeInitiation (pair 1).priv crossingInitiation, .consumeResponse 3 crossingResponse,
  .encapsulate 4 []]

end Transparent

/-- Consuming the same initiation again rewinds the chaining key, so the same response
installs the same keys with the counter back at zero. -/
theorem nonce_reused_after_rewind :
    ¬(Observed.run Transparent.crypto Transparent.rewoundCalls).sealed.Nodup ∧
      Separate Transparent.crypto
        (Observed.run Transparent.crypto Transparent.rewoundCalls).sessions ∧
      Short (Observed.run Transparent.crypto Transparent.rewoundCalls).sessions := by
  decide +kernel

end Sotoportego.WireGuard
