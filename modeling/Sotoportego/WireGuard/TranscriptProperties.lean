import Sotoportego.WireGuard.Transcript

/-!
# No transcript is installed twice

The recorded inputs really make up the chaining key, every installation comes from
a transcript that no earlier one equals, and so the restarted counter never meets
an old send key.
-/

set_option autoImplicit false

namespace Sotoportego.WireGuard

open Octets

namespace Transcript

theorem chain_extend (crypto : Crypto) (transcript : Transcript) (inputs : List Bytes) :
    (transcript.extend inputs).chain crypto =
      inputs.foldl (kdf1 crypto) (transcript.chain crypto) :=
  List.foldl_append

theorem extend_extend (transcript : Transcript) (first second : List Bytes) :
    (transcript.extend first).extend second = transcript.extend (first ++ second) := by
  simp only [extend, List.append_assoc]

theorem ne_extend (transcript : Transcript) (input : Bytes) (inputs : List Bytes) :
    transcript ≠ transcript.extend (input :: inputs) := by
  intro same
  have lengths := congrArg (fun other => other.inputs.length) same
  simp [extend] at lengths

end Transcript

namespace WGPeer

/-- What decides the next encapsulation. -/
def sendState (peer : WGPeer) : Bool × Key × UInt64 :=
  (peer.hasKeys, peer.sendKey, peer.sendCounter)

theorem exchangeInputs_cons (ephemeral : Key) (ee se : Option Key) :
    ∃ rest, exchangeInputs ephemeral ee se = ephemeral.bytes :: rest := by
  cases ee with
  | none => exact ⟨_, rfl⟩
  | some ee =>
      cases se with
      | none => exact ⟨_, rfl⟩
      | some se => exact ⟨_, rfl⟩

theorem initiationInputs_of_drawn {draw : Draw} {ephemeralPriv ephemeralPub : Key}
    (generated : draw.ephemeral = some (ephemeralPriv, ephemeralPub)) (crypto : Crypto)
    (ourPriv peerPub staticPub : Key) :
    ∃ rest, initiationInputs crypto draw ourPriv peerPub staticPub = ephemeralPub.bytes :: rest := by
  simp only [initiationInputs, generated]
  cases crypto.dh ephemeralPriv peerPub with
  | none => exact ⟨_, rfl⟩
  | some es =>
      simp only
      split
      · exact ⟨_, rfl⟩
      · exact ⟨_, rfl⟩

theorem buildInitiation_sendState (crypto : Crypto) (draw : Draw) (peer : WGPeer)
    (ourPriv peerPub : Key) :
    (peer.buildInitiation crypto draw ourPriv peerPub).1.sendState = peer.sendState := by
  unfold buildInitiation
  simp only
  repeat' split
  all_goals rfl

theorem buildInitiation_unkeyed {crypto : Crypto} {ourPriv : Key}
    (invalid : crypto.dhPublic ourPriv = none) (draw : Draw) (peer : WGPeer) (peerPub : Key) :
    (peer.buildInitiation crypto draw ourPriv peerPub).1.chainingKey = peer.chainingKey := by
  simp only [buildInitiation, invalid]

theorem buildInitiation_chain {crypto : Crypto} {ourPriv staticPub : Key}
    (valid : crypto.dhPublic ourPriv = some staticPub) (draw : Draw) (peer : WGPeer)
    (peerPub : Key) :
    (peer.buildInitiation crypto draw ourPriv peerPub).1.chainingKey =
      Transcript.chain crypto {
        rooted := true
        inputs := initiationInputs crypto draw ourPriv peerPub staticPub } := by
  simp only [buildInitiation, valid, initiationInputs]
  cases draw.ephemeral with
  | none => rfl
  | some pair =>
      simp only
      cases crypto.dh pair.1 peerPub with
      | none => rfl
      | some es =>
          simp only
          cases aeadEncrypt crypto
            (kdf2 crypto (kdf1 crypto (crypto.hash kConstruction) pair.2.bytes) es.bytes).2 0
            staticPub.bytes (mixHash crypto (mixHash crypto (crypto.hash
              ((crypto.hash kConstruction).bytes ++ kIdentifier)) peerPub.bytes)
              pair.2.bytes).bytes with
          | none => rfl
          | some sealed =>
              simp only
              cases crypto.dh ourPriv peerPub with
              | none => rfl
              | some ss =>
                  simp only
                  split
                  · rfl
                  · split
                    · rfl
                    · rfl

theorem consumeInitiation_sendState (crypto : Crypto) (peer : WGPeer) (ourPriv : Key)
    (msg : Bytes) : (peer.consumeInitiation crypto ourPriv msg).1.sendState = peer.sendState := by
  unfold consumeInitiation
  split
  · rfl
  · rfl

theorem responderConsume_chain {crypto : Crypto} {ourPriv : Key} {msg : Bytes}
    {consumed : Consumed} (accepted : responderConsume crypto ourPriv msg = some consumed) :
    consumed.chainingKey = Transcript.chain crypto {
      rooted := true
      inputs := [consumed.peerEphemeral.bytes,
        ((crypto.dh ourPriv consumed.peerEphemeral).getD (Buffer.zero 32)).bytes,
        ((crypto.dh ourPriv consumed.initiatorStatic).getD (Buffer.zero 32)).bytes] } := by
  unfold responderConsume at accepted
  simp only at accepted
  split at accepted
  · cases accepted
  · split at accepted
    · cases accepted
    · split at accepted
      · cases accepted
      · next es agreeEs =>
        split at accepted
        · cases accepted
        · split at accepted
          · cases accepted
          · next ss agreeSs =>
            split at accepted
            · cases accepted
            · cases accepted
              simp only [agreeEs, agreeSs, Option.getD_some]
              rfl

/-- One call of `BuildResponse` that drew an ephemeral. -/
theorem buildResponse_drawn {crypto : Crypto} {draw : Draw} {ephemeralPriv ephemeralPub : Key}
    (generated : draw.ephemeral = some (ephemeralPriv, ephemeralPub)) (peer : WGPeer) :
    (peer.buildResponse crypto draw).1.chainingKey =
        (exchangeInputs ephemeralPub (crypto.dh ephemeralPriv peer.peerEphemeral)
          (crypto.dh ephemeralPriv peer.peerStatic)).foldl (kdf1 crypto) peer.chainingKey ∧
      (((peer.buildResponse crypto draw).2.isSome = true ∧
          (peer.buildResponse crypto draw).1.hasKeys = true ∧
          (peer.buildResponse crypto draw).1.sendCounter = 0 ∧
          (peer.buildResponse crypto draw).1.sendKey =
            (kdf2 crypto (peer.buildResponse crypto draw).1.chainingKey []).2) ∨
        ((peer.buildResponse crypto draw).2.isSome = false ∧
          (peer.buildResponse crypto draw).1.sendState = peer.sendState)) := by
  simp only [buildResponse, generated, exchangeInputs]
  cases crypto.dh ephemeralPriv peer.peerEphemeral with
  | none => exact ⟨rfl, Or.inr ⟨rfl, rfl⟩⟩
  | some ee =>
      simp only
      cases crypto.dh ephemeralPriv peer.peerStatic with
      | none => exact ⟨rfl, Or.inr ⟨rfl, rfl⟩⟩
      | some se =>
          simp only
          split
          · exact ⟨rfl, Or.inr ⟨rfl, rfl⟩⟩
          · cases draw.index with
            | none => exact ⟨rfl, Or.inr ⟨rfl, rfl⟩⟩
            | some index => exact ⟨rfl, Or.inl ⟨rfl, rfl, rfl, rfl⟩⟩

theorem consumeResponse_refused {crypto : Crypto} {peer : WGPeer} {resp : Bytes}
    (refused : resp.length ≠ 92 ∨ octetAt resp 0 ≠ 2 ∨ load32Le resp 8 ≠ peer.senderIndex)
    (systemTime : Int) : peer.consumeResponse crypto systemTime resp = (peer, false) := by
  unfold consumeResponse
  split
  · rfl
  · next wellFormed =>
    split
    · rfl
    · next addressed =>
      simp only [not_or, not_not] at wellFormed addressed
      rcases refused with length | type | index
      · exact absurd wellFormed.1 length
      · exact absurd wellFormed.2 type
      · exact absurd addressed index

/-- One call of `ConsumeResponse` that passed the header checks. -/
theorem consumeResponse_mixed {crypto : Crypto} {peer : WGPeer} {resp : Bytes}
    (accepted : ¬(resp.length ≠ 92 ∨ octetAt resp 0 ≠ 2 ∨ load32Le resp 8 ≠ peer.senderIndex))
    (systemTime : Int) :
    (peer.consumeResponse crypto systemTime resp).1.chainingKey =
        (exchangeInputs (slice 32 resp 12)
          (crypto.dh peer.ephemeralPriv (slice 32 resp 12))
          (crypto.dh peer.ourPriv (slice 32 resp 12))).foldl (kdf1 crypto) peer.chainingKey ∧
      (((peer.consumeResponse crypto systemTime resp).2 = true ∧
          (peer.consumeResponse crypto systemTime resp).1.hasKeys = true ∧
          (peer.consumeResponse crypto systemTime resp).1.sendCounter = 0 ∧
          (peer.consumeResponse crypto systemTime resp).1.sendKey =
            (kdf2 crypto (peer.consumeResponse crypto systemTime resp).1.chainingKey []).1) ∨
        ((peer.consumeResponse crypto systemTime resp).2 = false ∧
          (peer.consumeResponse crypto systemTime resp).1.sendState = peer.sendState)) := by
  simp only [not_or, not_not] at accepted
  obtain ⟨length, type, addressed⟩ := accepted
  simp only [consumeResponse, length, type, addressed, ne_eq, not_true_eq_false, or_self, if_false,
    exchangeInputs]
  cases crypto.dh peer.ephemeralPriv (slice 32 resp 12) with
  | none => exact ⟨rfl, Or.inr ⟨rfl, rfl⟩⟩
  | some ee =>
      simp only
      cases crypto.dh peer.ourPriv (slice 32 resp 12) with
      | none => exact ⟨rfl, Or.inr ⟨rfl, rfl⟩⟩
      | some se =>
          simp only
          split
          · exact ⟨rfl, Or.inr ⟨rfl, rfl⟩⟩
          · exact ⟨rfl, Or.inl ⟨rfl, rfl, rfl, rfl⟩⟩

/-- `Encapsulate` advances the counter exactly when it produces a message. -/
theorem encapsulate_sendState (crypto : Crypto) (systemTime : Int) (peer : WGPeer)
    (plain : Bytes) :
    (peer.encapsulate crypto systemTime plain).1.chainingKey = peer.chainingKey ∧
      (((peer.encapsulate crypto systemTime plain).2.isSome = true ∧ peer.hasKeys = true ∧
          (peer.encapsulate crypto systemTime plain).1.sendState =
            (true, peer.sendKey, peer.sendCounter + 1)) ∨
        ((peer.encapsulate crypto systemTime plain).2.isSome = false ∧
          (peer.encapsulate crypto systemTime plain).1.sendState = peer.sendState)) := by
  unfold encapsulate
  split
  · exact ⟨rfl, Or.inr ⟨rfl, rfl⟩⟩
  · next keys =>
    simp only
    split
    · exact ⟨rfl, Or.inr ⟨rfl, rfl⟩⟩
    · split
      · exact ⟨rfl, Or.inr ⟨rfl, rfl⟩⟩
      · have live : peer.hasKeys = true := by simpa using keys
        exact ⟨rfl, Or.inl ⟨rfl, live, by simp [sendState, live]⟩⟩

theorem decapsulate_sendState (crypto : Crypto) (peer : WGPeer) (packet : Bytes) :
    (peer.decapsulate crypto packet).1.chainingKey = peer.chainingKey ∧
      (peer.decapsulate crypto packet).1.sendState = peer.sendState := by
  unfold decapsulate
  simp only
  repeat' split
  all_goals exact ⟨rfl, rfl⟩

theorem expireIfStale_sendState (peer : WGPeer) (now : Int) :
    (peer.expireIfStale now).1.chainingKey = peer.chainingKey ∧
      (peer.expireIfStale now).1.sendKey = peer.sendKey ∧
      (peer.expireIfStale now).1.sendCounter = peer.sendCounter ∧
      ((peer.expireIfStale now).1.hasKeys = true → peer.hasKeys = true) := by
  unfold expireIfStale
  split
  · exact ⟨rfl, rfl, rfl, fun live => nomatch live⟩
  · exact ⟨rfl, rfl, rfl, id⟩

end WGPeer

/-- The sessions account for every recorded encapsulation and for the key and counter
of the next one. -/
structure Accounted (crypto : Crypto) (sessions : SealLog.Machine (Role × Transcript))
    (sealed : List (Key × UInt64)) (sendKey : Key) (sendCounter : UInt64) : Prop where
  ordered : sessions.Ordered
  current : ∀ session, sessions.current = some session →
    sendKey = transportKey crypto session ∧ sendCounter = UInt64.ofNat sessions.counter
  sealed_eq : sealed = sessions.log.map fun entry =>
    (transportKey crypto entry.1, UInt64.ofNat entry.2)

namespace Accounted

variable {crypto : Crypto} {sessions : SealLog.Machine (Role × Transcript)}
  {sealed : List (Key × UInt64)} {sendKey : Key} {sendCounter : UInt64}

theorem unused (crypto : Crypto) (sendKey : Key) (sendCounter : UInt64) :
    Accounted crypto {} [] sendKey sendCounter where
  ordered := SealLog.Machine.ordered_empty
  current := by simp
  sealed_eq := rfl

theorem install (accounted : Accounted crypto sessions sealed sendKey sendCounter)
    {role : Role} {transcript : Transcript}
    (new : ∀ session ∈ sessions.installed, session.2 ≠ transcript) :
    Accounted crypto (sessions.install (role, transcript)) sealed
      (transportKey crypto (role, transcript)) 0 where
  ordered := SealLog.Machine.ordered_install accounted.ordered
    (fun member => new _ member rfl)
  current := by
    intro session same
    cases same
    exact ⟨rfl, rfl⟩
  sealed_eq := accounted.sealed_eq

theorem send (accounted : Accounted crypto sessions sealed sendKey sendCounter)
    (live : sessions.current.isSome = true) :
    Accounted crypto sessions.send (sealed ++ [(sendKey, sendCounter)]) sendKey
      (sendCounter + 1) := by
  obtain ⟨session, current⟩ := Option.isSome_iff_exists.mp live
  obtain ⟨key_eq, counter_eq⟩ := accounted.current session current
  have ordered := SealLog.Machine.ordered_send accounted.ordered
  simp only [SealLog.Machine.send, current] at ordered ⊢
  exact {
    ordered := ordered
    current := by
      intro other same
      cases same
      refine ⟨key_eq, ?_⟩
      rw [counter_eq, UInt64.ofNat_add]
      rfl
    sealed_eq := by
      rw [accounted.sealed_eq, List.map_append, List.map_singleton, key_eq, counter_eq] }

private theorem ofNat_injective {left right : Nat} (leftSmall : left < 2 ^ 64)
    (rightSmall : right < 2 ^ 64) (same : UInt64.ofNat left = UInt64.ofNat right) :
    left = right := by
  have values := congrArg UInt64.toNat same
  rwa [UInt64.toNat_ofNat', UInt64.toNat_ofNat', Nat.mod_eq_of_lt leftSmall,
    Nat.mod_eq_of_lt rightSmall] at values

/-- Distinct sessions with distinct send keys, none of more than 2^64 sends. -/
theorem nodup (accounted : Accounted crypto sessions sealed sendKey sendCounter)
    (separate : ∀ left ∈ sessions.installed, ∀ right ∈ sessions.installed,
      transportKey crypto left = transportKey crypto right → left = right)
    (short : ∀ entry ∈ sessions.log, entry.2 < 2 ^ 64) : sealed.Nodup := by
  rw [accounted.sealed_eq]
  apply accounted.ordered.nodup_map separate
  intro left leftMember right rightMember same
  exact ofNat_injective (short left leftMember) (short right rightMember) same

end Accounted

namespace Observed

/-- No installed transcript continues this one. -/
def Unextended (observed : Observed) (transcript : Transcript) : Prop :=
  ∀ session ∈ observed.sessions.installed, ∀ input inputs,
    session.2 ≠ transcript.extend (input :: inputs)

structure Tracked (crypto : Crypto) (observed : Observed) : Prop where
  chain : observed.peer.chainingKey = observed.transcript.chain crypto
  keyed : observed.peer.hasKeys = true → observed.sessions.current.isSome = true
  unextended : observed.armed = true → observed.Unextended observed.transcript
  accounted : Accounted crypto observed.sessions observed.sealed observed.peer.sendKey
    observed.peer.sendCounter

theorem tracked_fresh (crypto : Crypto) : Tracked crypto {} where
  chain := rfl
  keyed := by simp
  unextended := by
    intro _ session member
    cases member
  accounted := Accounted.unused crypto _ _

section Steps

variable {crypto : Crypto} {observed : Observed}

/-- Moving the handshake along leaves the sessions as they are. -/
theorem Tracked.move (tracked : Tracked crypto observed) {peer : WGPeer}
    {transcript : Transcript} {armed : Bool}
    (chain : peer.chainingKey = transcript.chain crypto)
    (same : peer.sendState = observed.peer.sendState)
    (unextended : armed = true → observed.Unextended transcript) :
    Tracked crypto { observed with peer, transcript, armed } := by
  simp only [WGPeer.sendState, Prod.mk.injEq] at same
  obtain ⟨keys_eq, key_eq, counter_eq⟩ := same
  exact {
    chain := chain
    keyed := fun live => tracked.keyed (keys_eq ▸ live)
    unextended := unextended
    accounted := by
      simpa only [key_eq, counter_eq] using tracked.accounted }

theorem Tracked.stay (tracked : Tracked crypto observed) {peer : WGPeer}
    (chain : peer.chainingKey = observed.peer.chainingKey)
    (same : peer.sendState = observed.peer.sendState) :
    Tracked crypto { observed with peer } :=
  tracked.move (chain.trans tracked.chain) same tracked.unextended

theorem Tracked.installs (tracked : Tracked crypto observed) {peer : WGPeer}
    {transcript : Transcript} {armed : Bool} {role : Role}
    (chain : peer.chainingKey = transcript.chain crypto)
    (key : peer.sendKey = transportKey crypto (role, transcript))
    (counter : peer.sendCounter = 0)
    (new : ∀ session ∈ observed.sessions.installed, session.2 ≠ transcript)
    (unextended : observed.Unextended transcript) :
    Tracked crypto { observed with
      peer, transcript, armed, sessions := observed.sessions.install (role, transcript) } where
  chain := chain
  keyed := fun _ => rfl
  unextended := by
    intro _ session member input inputs
    rcases List.mem_append.mp member with old | latest
    · exact unextended session old input inputs
    · rw [List.mem_singleton.mp latest]
      exact Transcript.ne_extend transcript input inputs
  accounted := by
    simpa only [key, counter] using tracked.accounted.install new

/-- A transcript that contains a fresh ephemeral is neither installed nor continued. -/
theorem unextended_of_fresh {ephemeral : Key} {transcript : Transcript}
    (fresh : ∀ session ∈ observed.sessions.installed, ephemeral.bytes ∉ session.2.inputs)
    (mixed : ephemeral.bytes ∈ transcript.inputs) :
    (∀ session ∈ observed.sessions.installed, session.2 ≠ transcript) ∧
      observed.Unextended transcript := by
  constructor
  · intro session member same
    exact fresh session member (same ▸ mixed)
  · intro session member input inputs same
    apply fresh session member
    rw [same]
    exact List.mem_append_left _ mixed

theorem tracked_buildInitiation (tracked : Tracked crypto observed) {draw : Draw}
    (fresh : observed.Fresh draw) (ourPriv peerPub : Key) :
    Tracked crypto (observed.step crypto (.buildInitiation draw ourPriv peerPub)) := by
  have same := WGPeer.buildInitiation_sendState crypto draw observed.peer ourPriv peerPub
  simp only [step]
  cases valid : crypto.dhPublic ourPriv with
  | none =>
      exact tracked.stay (WGPeer.buildInitiation_unkeyed valid draw observed.peer peerPub) same
  | some staticPub =>
      apply tracked.move (WGPeer.buildInitiation_chain valid draw observed.peer peerPub) same
      intro drawn
      obtain ⟨pair, generated⟩ := Option.isSome_iff_exists.mp drawn
      obtain ⟨rest, inputs_eq⟩ :=
        WGPeer.initiationInputs_of_drawn generated crypto ourPriv peerPub staticPub
      rw [inputs_eq]
      exact (unextended_of_fresh (fresh pair generated) List.mem_cons_self).2

theorem tracked_consumeInitiation (tracked : Tracked crypto observed) (ourPriv : Key)
    (msg : Bytes) : Tracked crypto (observed.step crypto (.consumeInitiation ourPriv msg)) := by
  have same := WGPeer.consumeInitiation_sendState crypto observed.peer ourPriv msg
  simp only [step]
  cases accepted : WGPeer.responderConsume crypto ourPriv msg with
  | none =>
      apply tracked.stay _ same
      simp only [WGPeer.consumeInitiation, accepted]
  | some consumed =>
      apply tracked.move _ same
      · intro unarmed
        cases unarmed
      · simp only [WGPeer.consumeInitiation, accepted]
        exact WGPeer.responderConsume_chain accepted

theorem tracked_buildResponse (tracked : Tracked crypto observed) {draw : Draw}
    (fresh : observed.Fresh draw) :
    Tracked crypto (observed.step crypto (.buildResponse draw)) := by
  simp only [step]
  cases generated : draw.ephemeral with
  | none =>
      apply tracked.stay
      · simp only [WGPeer.buildResponse, generated]
      · simp only [WGPeer.buildResponse, generated]
  | some pair =>
      obtain ⟨chain, outcome⟩ := WGPeer.buildResponse_drawn generated observed.peer
      rw [tracked.chain, ← Transcript.chain_extend] at chain
      obtain ⟨rest, inputs_eq⟩ := WGPeer.exchangeInputs_cons pair.2
        (crypto.dh pair.1 observed.peer.peerEphemeral) (crypto.dh pair.1 observed.peer.peerStatic)
      have mixed : pair.2.bytes ∈ (observed.transcript.extend (WGPeer.exchangeInputs pair.2
          (crypto.dh pair.1 observed.peer.peerEphemeral)
          (crypto.dh pair.1 observed.peer.peerStatic))).inputs := by
        rw [inputs_eq]
        exact List.mem_append_right _ List.mem_cons_self
      obtain ⟨new, unextended⟩ := unextended_of_fresh (fresh pair generated) mixed
      dsimp only
      rcases outcome with ⟨produced, _, counter, key⟩ | ⟨failed, same⟩
      · rw [if_pos produced]
        rw [chain] at key
        exact tracked.installs chain key counter new unextended
      · rw [if_neg (by simp [failed])]
        exact tracked.move chain same (fun _ => unextended)

theorem tracked_consumeResponse (tracked : Tracked crypto observed)
    (armed : observed.armed = true) (systemTime : Int) (resp : Bytes) :
    Tracked crypto (observed.step crypto (.consumeResponse systemTime resp)) := by
  simp only [step]
  split
  · next refused =>
    rw [WGPeer.consumeResponse_refused refused]
    exact tracked
  · next accepted =>
    obtain ⟨chain, outcome⟩ := WGPeer.consumeResponse_mixed accepted systemTime
    rw [tracked.chain, ← Transcript.chain_extend] at chain
    have before := tracked.unextended armed
    obtain ⟨rest, inputs_eq⟩ := WGPeer.exchangeInputs_cons (slice 32 resp 12)
      (crypto.dh observed.peer.ephemeralPriv (slice 32 resp 12))
      (crypto.dh observed.peer.ourPriv (slice 32 resp 12))
    have unextended : observed.Unextended (observed.transcript.extend
        (WGPeer.exchangeInputs (slice 32 resp 12)
          (crypto.dh observed.peer.ephemeralPriv (slice 32 resp 12))
          (crypto.dh observed.peer.ourPriv (slice 32 resp 12)))) := by
      intro session member input inputs
      rw [Transcript.extend_extend, inputs_eq]
      exact before session member _ _
    rcases outcome with ⟨completed, _, counter, key⟩ | ⟨failed, same⟩
    · rw [if_pos completed]
      rw [chain] at key
      refine tracked.installs chain key counter ?_ unextended
      intro session member
      rw [inputs_eq]
      exact before session member _ _
    · rw [if_neg (by simp [failed])]
      exact tracked.move chain same (fun _ => unextended)

theorem tracked_encapsulate (tracked : Tracked crypto observed) (systemTime : Int)
    (plain : Bytes) :
    Tracked crypto (observed.step crypto (.encapsulate systemTime plain)) := by
  obtain ⟨chain, outcome⟩ :=
    WGPeer.encapsulate_sendState crypto systemTime observed.peer plain
  simp only [step]
  rcases outcome with ⟨produced, live, moved⟩ | ⟨failed, same⟩
  · have accounted := tracked.accounted.send (tracked.keyed live)
    obtain ⟨session, current⟩ := Option.isSome_iff_exists.mp (tracked.keyed live)
    simp only [WGPeer.sendState, Prod.mk.injEq] at moved
    obtain ⟨_, sameKey, nextCounter⟩ := moved
    rw [if_pos produced]
    exact {
      chain := chain.trans tracked.chain
      keyed := by simp [SealLog.Machine.send, current]
      unextended := by
        simpa only [Unextended, SealLog.Machine.send, current] using tracked.unextended
      accounted := by simpa only [sameKey, nextCounter] using accounted }
  · rw [if_neg (by simp [failed])]
    exact tracked.stay chain same

theorem tracked_expireIfStale (tracked : Tracked crypto observed) (now : Int) :
    Tracked crypto (observed.step crypto (.expireIfStale now)) := by
  obtain ⟨chain, key_eq, counter_eq, live⟩ :=
    WGPeer.expireIfStale_sendState observed.peer now
  exact {
    chain := chain.trans tracked.chain
    keyed := fun keys => tracked.keyed (live keys)
    unextended := tracked.unextended
    accounted := by simpa only [step, key_eq, counter_eq] using tracked.accounted }

theorem tracked_step (call : Call) (allowed : observed.Allowed call)
    (tracked : Tracked crypto observed) : Tracked crypto (observed.step crypto call) := by
  cases call with
  | buildInitiation draw ourPriv peerPub =>
      exact tracked_buildInitiation tracked allowed ourPriv peerPub
  | consumeInitiation ourPriv msg => exact tracked_consumeInitiation tracked ourPriv msg
  | buildResponse draw => exact tracked_buildResponse tracked allowed
  | consumeResponse systemTime resp =>
      exact tracked_consumeResponse tracked allowed systemTime resp
  | encapsulate systemTime plain => exact tracked_encapsulate tracked systemTime plain
  | decapsulate packet =>
      obtain ⟨chain, same⟩ := WGPeer.decapsulate_sendState crypto observed.peer packet
      exact tracked.stay chain same
  | expireIfStale now => exact tracked_expireIfStale tracked now

end Steps

theorem tracked_run {crypto : Crypto} {calls : List Call}
    (allowed : Run.Along (step crypto) Allowed {} calls) : Tracked crypto (run crypto calls) :=
  Run.invariant_along (fun _ call => tracked_step call) allowed (tracked_fresh crypto)

end Observed

end Sotoportego.WireGuard
