import Sotoportego.WireGuard.HandshakeProperties
import Sotoportego.WireGuard.Link

/-!
# When crossing handshakes converge

One peer object has a single set of handshake fields. As long as every initiation
arrives while its sender still holds that handshake, an idle network leaves both
ends with one session; two initiations that cross leave them with different keys.
-/

set_option autoImplicit false

namespace Sotoportego.WireGuard

open Octets

@[simp] theorem Side.other_other (side : Side) : side.other.other = side := by
  cases side <;> rfl

theorem Side.other_ne (side : Side) : side.other ≠ side := by
  cases side <;> decide

theorem Side.eq_or_eq_other (side other : Side) : side = other ∨ side = other.other := by
  cases side <;> cases other <;> decide

namespace Link

/-- The message carries the index its addressee would accept a response for. -/
def Matches (link : Link) (message : Side × Bytes) : Prop :=
  load32Le message.2 8 = (link.peer message.1).senderIndex

/-- A response in flight that completes the session its sender already installed. -/
structure Pending (crypto : Crypto) (link : Link) (side : Side) (resp : Bytes) : Prop where
  inFlight : (side, resp) ∈ link.flight
  completes : ∀ systemTime, ∃ initiator,
    (link.peer side).consumeResponse crypto systemTime resp = (initiator, true) ∧
      WGPeer.Agree initiator (link.peer side.other)
  only : ∀ message ∈ link.flight, link.Matches message → message = (side, resp)

inductive Settled (crypto : Crypto) (link : Link) : Prop where
  | initiating (message : Side × Bytes) (inFlight : message ∈ link.flight)
      (type : octetAt message.2 0 = 1)
  | unkeyed (idle : link.flight = []) (keyless : (link.peer .left).hasKeys = false)
  | agreed (agree : WGPeer.Agree (link.peer .left) (link.peer .right))
      (unmatched : ∀ message ∈ link.flight, ¬link.Matches message)
  | pending (side : Side) (resp : Bytes) (pending : Pending crypto link side resp)

structure Coherent (crypto : Crypto) (static : Side → KeyPair crypto) (link : Link) : Prop where
  distinct : (link.flight.map handshake).Nodup
  nonzero : ∀ message ∈ link.flight, (handshake message).2 ≠ 0
  outstanding : ∀ side msg, (side, msg) ∈ link.flight → octetAt msg 0 = 1 →
    load32Le msg 4 = (link.peer side.other).senderIndex →
    WGPeer.Outstanding crypto (static side.other) (static side) (link.peer side.other) msg
  settled : Settled crypto link

theorem handshake_initiation {side : Side} {msg : Bytes} (type : octetAt msg 0 = 1) :
    handshake (side, msg) = (side.other, load32Le msg 4) := by
  simp [handshake, type]

theorem handshake_response {side : Side} {msg : Bytes} (type : octetAt msg 0 ≠ 1) :
    handshake (side, msg) = (side, load32Le msg 8) := by
  simp [handshake, type]

theorem coherent_fresh (crypto : Crypto) (static : Side → KeyPair crypto) :
    Coherent crypto static fresh where
  distinct := List.nodup_nil
  nonzero := by
    intro message member
    cases member
  outstanding := by
    intro side msg member
    cases member
  settled := .unkeyed rfl rfl

section Steps

variable {crypto : Crypto} {static : Side → KeyPair crypto} {link : Link}

theorem coherent_initiate (lawful : crypto.Lawful) (coherent : Coherent crypto static link)
    {side : Side} {draw : Draw} (nonzero : draw.index ≠ some 0)
    (drawn : Drawn crypto link side draw) :
    Coherent crypto static (link.step crypto static (.initiate side draw)) := by
  obtain ⟨ephemeral, index, generated, index_eq, unused⟩ := drawn
  obtain ⟨initiator, msg, built, sender, outstanding⟩ :=
    WGPeer.buildInitiation_outstanding lawful (static side) (static side.other) ephemeral draw
      index (link.peer side) generated index_eq
  obtain ⟨_, _, consumed⟩ := outstanding.consumed
  obtain ⟨_, type, read⟩ := WGPeer.responderConsume_some consumed
  have named : handshake (side.other, msg) = (side, index) := by
    rw [handshake_initiation type, ← read, Side.other_other]
    exact congrArg (Prod.mk side) sender
  simp only [step, built]
  exact {
    distinct := by
      rw [List.map_append, List.map_singleton, named]
      exact List.nodup_append.mpr ⟨coherent.distinct, List.nodup_singleton _,
        fun old member new newMember same =>
          unused (List.mem_singleton.mp newMember ▸ same ▸ member)⟩
    nonzero := by
      intro message member
      rcases List.mem_append.mp member with old | new
      · exact coherent.nonzero message old
      · rw [List.mem_singleton.mp new, named]
        intro zero
        exact nonzero (index_eq.trans (congrArg some zero))
    outstanding := by
      intro side' msg' member type' current
      dsimp only at member current ⊢
      rcases List.mem_append.mp member with old | new
      · by_cases same : side'.other = side
        · rw [same, Function.update_self, sender] at current
          have clash : handshake (side', msg') = (side, index) := by
            rw [handshake_initiation type', same, current]
          exact absurd (clash ▸ List.mem_map_of_mem old) unused
        · rw [Function.update_of_ne same] at current ⊢
          exact coherent.outstanding side' msg' old type' current
      · obtain ⟨side_eq, msg_eq⟩ := Prod.mk.inj (List.mem_singleton.mp new)
        subst side_eq msg_eq
        rw [Side.other_other, Function.update_self]
        exact outstanding
    settled := .initiating (side.other, msg) (by simp) type }

/-- Taking one message out of flight leaves the others, under other handshakes. -/
theorem flight_erase (coherent : Coherent crypto static link) {position : Nat}
    {message : Side × Bytes} (found : link.flight[position]? = some message) :
    (∀ other, other ∈ link.flight ↔ other = message ∨ other ∈ link.flight.eraseIdx position) ∧
      ((link.flight.eraseIdx position).map handshake).Nodup ∧
      handshake message ∉ (link.flight.eraseIdx position).map handshake := by
  obtain ⟨inside, taken⟩ := List.getElem?_eq_some_iff.mp found
  have permuted := List.getElem_cons_eraseIdx_perm inside
  rw [taken] at permuted
  have distinct := (permuted.map handshake).nodup_iff.mpr coherent.distinct
  rw [List.map_cons, List.nodup_cons] at distinct
  refine ⟨?_, distinct.2, distinct.1⟩
  intro other
  rw [← permuted.mem_iff, List.mem_cons]

theorem coherent_answer (lawful : crypto.Lawful) (coherent : Coherent crypto static link)
    {position : Nat} {side : Side} {msg : Bytes} {draw : Draw}
    (found : link.flight[position]? = some (side, msg)) (type : octetAt msg 0 = 1)
    (current : load32Le msg 4 = (link.peer side.other).senderIndex)
    (drawn : Drawn crypto link side draw) :
    Coherent crypto static (link.step crypto static (.deliver position draw)) := by
  obtain ⟨members, distinct, gone⟩ := flight_erase coherent found
  obtain ⟨answer, index, generated, index_eq, unused⟩ := drawn
  have inFlight : (side, msg) ∈ link.flight := (members _).mpr (Or.inl rfl)
  have outstanding := coherent.outstanding side msg inFlight type current
  obtain ⟨_, _, consumedBytes⟩ := outstanding.consumed
  have length := (WGPeer.responderConsume_some consumedBytes).1
  obtain ⟨recovered, responder₁, responder, resp, consumed, answered, sender, _, completes⟩ :=
    WGPeer.answer_outstanding lawful outstanding (link.peer side) answer draw index generated
      index_eq
  obtain ⟨_, completed, _⟩ := completes 0
  obtain ⟨_, respType, respIndex⟩ := WGPeer.consumeResponse_true completed
  have respKind : octetAt resp 0 ≠ 1 := by
    rw [respType]
    decide
  have named : handshake (side.other, resp) = handshake (side, msg) := by
    rw [handshake_response respKind, handshake_initiation type, respIndex, current]
  have handled : handle crypto static draw side (link.peer side) msg = (responder, some resp) := by
    simp only [handle, type, length, and_self, if_true, recovered, WGPeer.answerInitiation,
      consumed, answered]
  have unclaimed (message : Side × Bytes) (member : message ∈ link.flight) :
      handshake message ≠ (side, index) :=
    fun same => unused (same ▸ List.mem_map_of_mem member)
  simp only [step, found, handled]
  exact {
    distinct := by
      rw [List.map_append, List.map_singleton, named]
      exact List.nodup_append.mpr ⟨distinct, List.nodup_singleton _,
        fun old member new newMember same =>
          gone (List.mem_singleton.mp newMember ▸ same ▸ member)⟩
    nonzero := by
      intro message member
      rcases List.mem_append.mp member with old | new
      · exact coherent.nonzero message ((members _).mpr (Or.inr old))
      · rw [List.mem_singleton.mp new, named]
        exact coherent.nonzero _ inFlight
    outstanding := by
      intro side' msg' member type' current'
      dsimp only at member current' ⊢
      rcases List.mem_append.mp member with old | new
      · have before := (members _).mpr (Or.inr old)
        by_cases same : side'.other = side
        · rw [same, Function.update_self, sender] at current'
          exact absurd (by rw [handshake_initiation type', same, current'])
            (unclaimed _ before)
        · rw [Function.update_of_ne same] at current' ⊢
          exact coherent.outstanding side' msg' before type' current'
      · obtain ⟨_, msg_eq⟩ := Prod.mk.inj (List.mem_singleton.mp new)
        exact absurd (msg_eq ▸ type') respKind
    settled := by
      by_cases busy : ∃ message ∈ link.flight.eraseIdx position, octetAt message.2 0 = 1
      · obtain ⟨message, member, initiation⟩ := busy
        exact .initiating message (List.mem_append_left _ member) initiation
      · refine .pending side.other resp ⟨by simp, ?_, ?_⟩
        · intro systemTime
          obtain ⟨initiator, accepted, agree, _⟩ := completes systemTime
          refine ⟨initiator, ?_, ?_⟩ <;> dsimp only
          · rw [Function.update_of_ne (Side.other_ne side)]
            exact accepted
          · rw [Side.other_other, Function.update_self]
            exact agree
        · intro message member matched
          rcases List.mem_append.mp member with old | new
          · exfalso
            obtain ⟨side', msg'⟩ := message
            have before := (members _).mpr (Or.inr old)
            have kind : octetAt msg' 0 ≠ 1 := fun initiation => busy ⟨_, old, initiation⟩
            simp only [Matches] at matched
            rcases Side.eq_or_eq_other side' side with here | there
            · rw [here, Function.update_self, sender] at matched
              exact unclaimed _ before (by rw [handshake_response kind, here, matched])
            · rw [there, Function.update_of_ne (Side.other_ne side)] at matched
              apply gone
              rw [handshake_initiation type, current, ← matched, ← there,
                ← handshake_response kind]
              exact List.mem_map_of_mem old
          · exact List.mem_singleton.mp new }

/-- A message that is not an initiation either leaves its addressee alone or is a
response to the handshake the addressee holds. -/
theorem handle_response (crypto : Crypto) (static : Side → KeyPair crypto) (draw : Draw)
    (side : Side) (peer : WGPeer) {msg : Bytes} (type : octetAt msg 0 ≠ 1) :
    (handle crypto static draw side peer msg = (peer, none) ∧
        ¬(octetAt msg 0 = 2 ∧ msg.length = 92 ∧ load32Le msg 8 ≠ 0 ∧
          load32Le msg 8 = peer.senderIndex)) ∨
      (handle crypto static draw side peer msg =
          ((peer.consumeResponse crypto draw.systemTime msg).1, none) ∧
        load32Le msg 8 = peer.senderIndex) := by
  unfold handle
  rw [if_neg (fun initiation => type initiation.1)]
  split
  · simp only
    split
    · next addressed => exact Or.inr ⟨rfl, addressed.2.symm⟩
    · next unaddressed =>
      exact Or.inl ⟨rfl, fun response => unaddressed ⟨response.2.2.1, response.2.2.2.symm⟩⟩
  · next wellFormed => exact Or.inl ⟨rfl, fun response => wellFormed ⟨response.1, response.2.1⟩⟩

/-- A dropped message changes nothing but the flight. -/
theorem coherent_drop (coherent : Coherent crypto static link) {position : Nat} {side : Side}
    {msg : Bytes} (found : link.flight[position]? = some (side, msg)) (type : octetAt msg 0 ≠ 1)
    (refused : ¬(octetAt msg 0 = 2 ∧ msg.length = 92 ∧ load32Le msg 8 ≠ 0 ∧
      load32Le msg 8 = (link.peer side).senderIndex)) :
    Coherent crypto static { link with flight := link.flight.eraseIdx position } := by
  obtain ⟨members, distinct, _⟩ := flight_erase coherent found
  have before {message : Side × Bytes} (member : message ∈ link.flight.eraseIdx position) :
      message ∈ link.flight := (members _).mpr (Or.inr member)
  have after {message : Side × Bytes} (member : message ∈ link.flight)
      (different : message ≠ (side, msg)) : message ∈ link.flight.eraseIdx position :=
    ((members _).mp member).resolve_left different
  exact {
    distinct := distinct
    nonzero := fun message member => coherent.nonzero message (before member)
    outstanding := fun side' msg' member => coherent.outstanding side' msg' (before member)
    settled := by
      cases coherent.settled with
      | initiating message inFlight initiation =>
          exact .initiating message
            (after inFlight (fun same => type (by rw [same] at initiation; exact initiation)))
            initiation
      | unkeyed idle keyless =>
          rw [idle] at found
          cases found
      | agreed agree unmatched =>
          exact .agreed agree (fun message member => unmatched message (before member))
      | pending side' resp pending =>
          refine .pending side' resp ⟨after pending.inFlight ?_, pending.completes, ?_⟩
          · intro same
            obtain ⟨side_eq, resp_eq⟩ := Prod.mk.inj same
            subst side_eq resp_eq
            obtain ⟨_, completed, _⟩ := pending.completes 0
            obtain ⟨length, response, addressed⟩ := WGPeer.consumeResponse_true completed
            have nonzero := coherent.nonzero _ pending.inFlight
            rw [handshake_response type] at nonzero
            exact refused ⟨response, length, nonzero, addressed⟩
          · exact fun message member matched => pending.only message (before member) matched }

theorem coherent_complete (coherent : Coherent crypto static link) {position : Nat} {side : Side}
    {msg : Bytes} (found : link.flight[position]? = some (side, msg)) (type : octetAt msg 0 ≠ 1)
    (matched : load32Le msg 8 = (link.peer side).senderIndex) (systemTime : Int) :
    Coherent crypto static {
      peer := Function.update link.peer side
        ((link.peer side).consumeResponse crypto systemTime msg).1
      flight := link.flight.eraseIdx position } := by
  obtain ⟨members, distinct, gone⟩ := flight_erase coherent found
  have sender := WGPeer.consumeResponse_senderIndex crypto systemTime (link.peer side) msg
  have before {message : Side × Bytes} (member : message ∈ link.flight.eraseIdx position) :
      message ∈ link.flight := (members _).mpr (Or.inr member)
  exact {
    distinct := distinct
    nonzero := fun message member => coherent.nonzero message (before member)
    outstanding := by
      intro side' msg' member type' current
      dsimp only at member current ⊢
      by_cases same : side'.other = side
      · rw [same, Function.update_self, sender] at current
        exfalso
        apply gone
        rw [handshake_response type, matched, ← current, ← same, ← handshake_initiation type']
        exact List.mem_map_of_mem member
      · rw [Function.update_of_ne same] at current ⊢
        exact coherent.outstanding side' msg' (before member) type' current
    settled := by
      cases coherent.settled with
      | initiating message inFlight initiation =>
          have kept := ((members _).mp inFlight).resolve_left
            (fun same => type (by rw [same] at initiation; exact initiation))
          exact .initiating message kept initiation
      | unkeyed idle keyless =>
          rw [idle] at found
          cases found
      | agreed agree unmatched =>
          exact absurd matched (unmatched (side, msg) ((members _).mpr (Or.inl rfl)))
      | pending side' resp pending =>
          obtain ⟨side_eq, resp_eq⟩ :=
            Prod.mk.inj (pending.only (side, msg) ((members _).mpr (Or.inl rfl)) matched)
          subst side_eq resp_eq
          obtain ⟨initiator, completed, agree⟩ := pending.completes systemTime
          refine .agreed ?_ ?_
          · rw [completed]
            cases side with
            | left => exact agree
            | right => exact agree.symm
          · intro message member again
            have matchedBefore : link.Matches message := by
              simp only [Matches] at again ⊢
              by_cases same : message.1 = side
              · rw [same, Function.update_self, sender] at again
                rw [same]
                exact again
              · rw [Function.update_of_ne same] at again
                exact again
            have same := pending.only message (before member) matchedBefore
            exact gone (same ▸ List.mem_map_of_mem member) }

theorem coherent_step (lawful : crypto.Lawful) (event : Event)
    (undisturbed : Undisturbed crypto link event) (coherent : Coherent crypto static link) :
    Coherent crypto static (link.step crypto static event) := by
  cases event with
  | initiate side draw => exact coherent_initiate lawful coherent undisturbed.1 undisturbed.2
  | deliver position draw =>
      cases found : link.flight[position]? with
      | none =>
          simp only [step, found]
          exact coherent
      | some message =>
          obtain ⟨side, msg⟩ := message
          by_cases type : octetAt msg 0 = 1
          · obtain ⟨current, drawn⟩ := undisturbed side msg found type
            exact coherent_answer lawful coherent found type current drawn
          · rcases handle_response crypto static draw side (link.peer side) type with
              ⟨handled, refused⟩ | ⟨handled, matched⟩
            · simp only [step, found, handled, Function.update_eq_self]
              exact coherent_drop coherent found type refused
            · simp only [step, found, handled]
              exact coherent_complete coherent found type matched draw.systemTime

end Steps

/-- In every run whose initiations all arrive undisturbed, an idle network with keys
at both ends has one session at both ends. -/
theorem crossing_convergence {crypto : Crypto} (lawful : crypto.Lawful)
    (static : Side → KeyPair crypto) (events : List Event)
    (undisturbed : Run.Along (step crypto static) (Undisturbed crypto) fresh events) :
    let link := run crypto static fresh events
    link.flight = [] → (link.peer .left).hasKeys = true → (link.peer .right).hasKeys = true →
      WGPeer.Agree (link.peer .left) (link.peer .right) := by
  intro link idle leftKeys rightKeys
  have coherent : Coherent crypto static link :=
    Run.invariant_along (fun _ event => coherent_step lawful event) undisturbed
      (coherent_fresh crypto static)
  cases coherent.settled with
  | initiating message inFlight _ =>
      rw [idle] at inFlight
      cases inFlight
  | unkeyed _ keyless =>
      rw [keyless] at leftKeys
      cases leftKeys
  | agreed agree _ => exact agree
  | pending side resp pending =>
      have inFlight := pending.inFlight
      rw [idle] at inFlight
      cases inFlight

def transparentStatic : Side → KeyPair Transparent.crypto
  | .left => Transparent.pair 1
  | .right => Transparent.pair 2

private theorem drawn_transparent {link : Link} {side : Side} (seed : UInt8) {index : UInt32}
    {systemTime : Int} (unused : (side, index) ∉ link.flight.map handshake) :
    Drawn Transparent.crypto link side (Transparent.draw seed index systemTime) :=
  ⟨Transparent.pair seed, index, rfl, rfl, unused⟩

private theorem undisturbed_transparent {link : Link} {position : Nat} (seed : UInt8)
    {index : UInt32} {systemTime : Int}
    (checked : ∀ message ∈ link.flight[position]?.toList, octetAt message.2 0 = 1 →
      load32Le message.2 4 = (link.peer message.1.other).senderIndex ∧
        (message.1, index) ∉ link.flight.map handshake) :
    Undisturbed Transparent.crypto link
      (.deliver position (Transparent.draw seed index systemTime)) := by
  intro side msg found type
  obtain ⟨current, unused⟩ := checked (side, msg) (by simp [found]) type
  exact ⟨current, drawn_transparent seed unused⟩

def handshakeRun : List Event := [
  .initiate .left (Transparent.draw 3 7 1), .deliver 0 (Transparent.draw 4 8 2),
  .deliver 0 (Transparent.draw 5 9 3)]

theorem crossing_convergence_handshakeRun :
    WGPeer.Agree ((run Transparent.crypto transparentStatic fresh handshakeRun).peer .left)
      ((run Transparent.crypto transparentStatic fresh handshakeRun).peer .right) := by
  have undisturbed : Run.Along (step Transparent.crypto transparentStatic)
      (Undisturbed Transparent.crypto) fresh handshakeRun :=
    ⟨⟨by decide, drawn_transparent 3 (by decide)⟩,
      undisturbed_transparent 4 (by decide +kernel),
      undisturbed_transparent 5 (by decide +kernel), trivial⟩
  exact crossing_convergence Transparent.lawful transparentStatic handshakeRun undisturbed
    (by decide +kernel) (by decide +kernel) (by decide +kernel)

/-- Both ends initiate before either message arrives. Each answers the other, drops
the answer to its own initiation, and keeps the keys of a different handshake. -/
theorem crossing_diverges :
    let link := run Transparent.crypto transparentStatic fresh [
      .initiate .left (Transparent.draw 3 7 1), .initiate .right (Transparent.draw 4 8 1),
      .deliver 0 (Transparent.draw 5 9 2), .deliver 0 (Transparent.draw 6 10 2),
      .deliver 0 (Transparent.draw 6 10 3), .deliver 0 (Transparent.draw 6 10 3)]
    link.flight = [] ∧ (link.peer .left).hasKeys = true ∧ (link.peer .right).hasKeys = true ∧
      (link.peer .left).sendKey ≠ (link.peer .right).recvKey := by
  decide +kernel

end Link

end Sotoportego.WireGuard
