import Sotoportego.Tailscale.LifetimeProperties

/-!
# Initiations that are answered again

Nothing of an answered initiation is remembered, so whether its copy replaces the transport
is decided by the draw alone.
-/

set_option autoImplicit false

namespace Sotoportego.Tailscale

open Octets CText
open WireGuard

/-! ## The transport of a peer -/

structure Transport where
  sendKey : Key
  recvKey : Key
  receiverIndex : UInt32
  sendCounter : UInt64
  replay : ReplayWindow

def transport (wg : WGPeer) : Option Transport :=
  if wg.hasKeys = true then
    some {
      sendKey := wg.sendKey
      recvKey := wg.recvKey
      receiverIndex := wg.receiverIndex
      sendCounter := wg.sendCounter
      replay := wg.replay }
  else none

/-- The transport of the peer stored under a name. -/
def transportOf (name : CString) (plane : DataPlane) : Option Transport := do
  let position ← plane.set.find name
  let peer ← plane.set.peers[position]?
  transport peer.wg

/-- The draw suffices for a response: both shared secrets exist and an index was drawn. -/
def Answerable (crypto : Crypto) (draw : Draw) (peerEphemeral initiatorStatic : Key) : Prop :=
  draw.index.isSome = true ∧ ∃ ephemeral ∈ draw.ephemeral,
    (crypto.dh ephemeral.1 peerEphemeral).isSome = true ∧
      (crypto.dh ephemeral.1 initiatorStatic).isSome = true

section Answer

variable {crypto : Crypto} {draw : Draw} {peer : WGPeer}

theorem buildResponse_refused
    (refused : ¬ Answerable crypto draw peer.peerEphemeral peer.peerStatic) :
    transport (peer.buildResponse crypto draw).1 = transport peer := by
  unfold WGPeer.buildResponse
  simp only
  split
  · rfl
  · next ephemeralPriv ephemeralPub drawn =>
    split
    · rfl
    · next first =>
      split
      · rfl
      · next second =>
        split
        · rfl
        · split
          · rfl
          · next index =>
            exact absurd ⟨by simp [index], _, drawn, by simp [first], by simp [second]⟩ refused

theorem buildResponse_answered (lawful : crypto.Lawful)
    (answerable : Answerable crypto draw peer.peerEphemeral peer.peerStatic) :
    ∃ installed, transport (peer.buildResponse crypto draw).1 = some installed ∧
      installed.sendCounter = 0 ∧ installed.replay = {} := by
  obtain ⟨indexed, ⟨ephemeralPriv, ephemeralPub⟩, drawn, first, second⟩ := answerable
  obtain ⟨senderIndex, index⟩ := Option.isSome_iff_exists.mp indexed
  obtain ⟨shared, first⟩ := Option.isSome_iff_exists.mp first
  obtain ⟨static, second⟩ := Option.isSome_iff_exists.mp second
  rw [Option.mem_def] at drawn
  unfold WGPeer.buildResponse
  simp only [drawn, first, second, index]
  split
  · next refused =>
    obtain ⟨cipher, sealed, _⟩ := aeadEncrypt_total lawful _ 0 [] _
    rw [sealed] at refused
    cases refused
  · exact ⟨_, rfl, rfl, rfl⟩

/-- The whole branch on the peer, once the initiation has been opened. -/
theorem answerInitiation_eq {nodePrivate : Key} {msg : Bytes} {consumed : WGPeer.Consumed}
    (opened : WGPeer.responderConsume crypto nodePrivate msg = some consumed) :
    peer.answerInitiation crypto draw nodePrivate msg =
      WGPeer.buildResponse crypto draw { peer with
        chainingKey := consumed.chainingKey
        hash := consumed.hash
        peerEphemeral := consumed.peerEphemeral
        pendingReceiverIndex := consumed.recvIndex
        ourPriv := nodePrivate
        peerStatic := consumed.initiatorStatic } := by
  simp [WGPeer.answerInitiation, WGPeer.consumeInitiation, opened]

theorem answerInitiation_refused {nodePrivate : Key} {msg : Bytes} {consumed : WGPeer.Consumed}
    (opened : WGPeer.responderConsume crypto nodePrivate msg = some consumed) (peer : WGPeer)
    (refused : ¬ Answerable crypto draw consumed.peerEphemeral consumed.initiatorStatic) :
    transport (peer.answerInitiation crypto draw nodePrivate msg).1 = transport peer := by
  rw [answerInitiation_eq opened]
  exact buildResponse_refused refused

theorem answerInitiation_answered (lawful : crypto.Lawful) {nodePrivate : Key} {msg : Bytes}
    {consumed : WGPeer.Consumed}
    (opened : WGPeer.responderConsume crypto nodePrivate msg = some consumed) (peer : WGPeer)
    (answerable : Answerable crypto draw consumed.peerEphemeral consumed.initiatorStatic) :
    ∃ installed, transport (peer.answerInitiation crypto draw nodePrivate msg).1 = some installed ∧
      installed.sendCounter = 0 ∧ installed.replay = {} := by
  rw [answerInitiation_eq opened]
  exact buildResponse_answered lawful answerable

end Answer

/-! ## What was answered -/

/-- The initiation opens under our key and names this peer. -/
def From (crypto : Crypto) (nodePrivate : Key) (name : CString) (msg : Bytes) : Prop :=
  ∃ consumed, WGPeer.responderConsume crypto nodePrivate msg = some consumed ∧
    name = toHex consumed.initiatorStatic.bytes

/-- Every answer in the log was to an initiation of the peer it was sent to. -/
def Answers (crypto : Crypto) (nodePrivate : Key) (log : List Entry) : Prop :=
  ∀ entry ∈ log, ∀ msg, entry.action = .answered msg → From crypto nodePrivate entry.peer msg

def Silent (outcome : Outcome) : Prop :=
  ∀ msg, Action.answered msg ∉ outcome.2

section Silent

variable (context : Context) {peer : ManagedPeer}

theorem silent_andThen {first : Outcome} {next : ManagedPeer → Outcome} (before : Silent first)
    (after : ∀ peer, Silent (next peer)) : Silent (first.andThen next) := by
  intro msg member
  obtain member | member := List.mem_append.mp member
  · exact before msg member
  · exact after _ msg member

theorem silent_probe (peer : ManagedPeer) : Silent (context.probe peer) := by
  intro msg
  unfold Context.probe Context.sendDiscoPing
  repeat' split
  all_goals simp

theorem silent_expire (peer : ManagedPeer) : Silent (context.expire peer) := by
  intro msg
  unfold Context.expire
  simp only
  split
  · simp
  · simp

theorem silent_sendPeerBytes (peer : ManagedPeer) (message msg : Bytes) :
    Action.answered msg ∉ context.sendPeerBytes peer message := by
  unfold Context.sendPeerBytes
  split
  · simp
  · split
    · simp
    · simp

theorem silent_initiate (draw : Draw) (peer : ManagedPeer) :
    Silent (context.initiate draw peer) := by
  intro msg
  unfold Context.initiate
  simp only
  split
  · simpa using silent_sendPeerBytes context peer _ msg
  · simp

theorem silent_encapsulate (packet : Bytes) (peer : ManagedPeer) :
    Silent (context.encapsulate packet peer) := by
  intro msg
  unfold Context.encapsulate
  simp only
  split
  · simpa using silent_sendPeerBytes context peer _ msg
  · simp

theorem silent_transmit (packet : Bytes) (draw : Draw) (peer : ManagedPeer) :
    Silent (context.transmit packet draw peer) := by
  have idle : Silent (peer, []) := fun msg => List.not_mem_nil
  unfold Context.transmit
  split
  · split
    · exact silent_initiate context draw peer
    · exact idle
  · refine silent_andThen ?_ (silent_encapsulate context packet)
    unfold Context.rekeyIfDue
    split
    · exact silent_initiate context draw peer
    · exact idle

theorem silent_sendToPeer (packet : Bytes) (draw : Draw) (peer : ManagedPeer) :
    Silent (context.sendToPeer packet draw peer) :=
  silent_andThen (silent_andThen (silent_probe context peer) (silent_expire context))
    (silent_transmit context packet draw)

theorem silent_maintainPeer (draw : Draw) (peer : ManagedPeer) :
    Silent (context.maintainPeer draw peer) := by
  have idle (peer : ManagedPeer) : Silent (peer, []) := fun msg => List.not_mem_nil
  unfold Context.maintainPeer
  split
  · exact idle peer
  · refine silent_andThen (silent_expire context peer) fun peer => ?_
    unfold Context.upkeep
    split
    · exact idle peer
    · split
      · exact silent_initiate context draw peer
      · split
        · exact silent_encapsulate context [] peer
        · exact idle peer

theorem silent_consumeResponse (resp : Bytes) (peer : ManagedPeer) :
    Silent (context.consumeResponse resp peer) := by
  intro msg
  unfold Context.consumeResponse
  simp only
  split
  · simp
  · simp

theorem silent_receive (tunOpen : Bool) (datagram : Bytes) (peer : ManagedPeer) :
    Silent (context.receive tunOpen datagram peer) := by
  intro msg
  unfold Context.receive
  simp only
  repeat' split
  all_goals simp

theorem answered_answer {msg bytes : Bytes} {draw : Draw} {peer : ManagedPeer}
    (member : Action.answered msg ∈ (context.answer bytes draw peer).2) : msg = bytes := by
  unfold Context.answer at member
  simp only at member
  split at member
  · simpa [silent_sendPeerBytes context peer _ msg] using member
  · cases member

end Silent

section Run

variable {crypto : Crypto} {nodePrivate : Key} {plane next : DataPlane}

theorem answers_updatePeer {position : Nat} {work : ManagedPeer → Outcome}
    (answers : Answers crypto nodePrivate plane.log)
    (named : ∀ peer, plane.set.peers[position]? = some peer → ∀ msg,
      Action.answered msg ∈ (work peer).2 → From crypto nodePrivate peer.nodeKeyHex msg) :
    Answers crypto nodePrivate (plane.updatePeer position work).log := by
  unfold DataPlane.updatePeer
  split
  · exact answers
  · next peer stored =>
    intro entry member msg answered
    obtain member | member := List.mem_append.mp member
    · exact answers entry member msg answered
    · obtain ⟨action, taken, rfl⟩ := List.mem_map.mp member
      cases answered
      exact named peer stored msg taken

theorem find_some {set : TSPeerSet} {name : CString} {position : Nat} {peer : ManagedPeer}
    (found : set.find name = some position) (stored : set.peers[position]? = some peer) :
    peer.nodeKeyHex = name := by
  obtain ⟨inside, same, _⟩ := List.findIdx?_eq_some_iff_getElem.mp found
  rw [List.getElem?_eq_getElem inside] at stored
  cases stored
  exact of_decide_eq_true same

theorem answers_step {event : Event} (stepped : plane.step crypto nodePrivate event = some next)
    (answers : Answers crypto nodePrivate plane.log) : Answers crypto nodePrivate next.log := by
  have silent {target : Option Nat} {work : ManagedPeer → Outcome}
      (quiet : ∀ peer, Silent (work peer)) :
      Answers crypto nodePrivate (plane.updateFound target work).log :=
    updateFound_invariant (fun plane => Answers crypto nodePrivate plane.log)
      (fun _ _ _ _ => answers_updatePeer answers fun peer _ msg taken =>
        absurd taken (quiet peer msg)) answers
  cases event with
  | tunPacket packet draw =>
      cases stepped
      exact silent (silent_sendToPeer _ packet draw)
  | tick draws =>
      cases stepped
      refine walk_invariant (fun plane => Answers crypto nodePrivate plane.log)
        (fun current position peer _ _ _ kept => ?_) answers _
      exact answers_updatePeer kept fun peer _ msg taken =>
        absurd taken (silent_maintainPeer _ _ peer msg)
  | datagram bytes draw =>
      cases stepped
      unfold DataPlane.handleWireGuardPacket
      simp only
      split
      · exact answers
      · split
        · split
          · exact answers
          · next peerStatic recovered =>
            obtain ⟨consumed, opened, same⟩ := Option.map_eq_some_iff.mp recovered
            refine updateFound_invariant (fun plane => Answers crypto nodePrivate plane.log)
              (fun position found _ _ => answers_updatePeer answers fun peer stored msg taken => ?_)
              answers
            cases answered_answer _ taken
            exact ⟨consumed, opened, by rw [same]; exact find_some found stored⟩
        · split
          · exact silent (silent_consumeResponse _ bytes)
          · split
            · exact silent (silent_receive _ _ bytes)
            · exact answers
  | pong sender endpoint =>
      cases stepped
      exact silent fun _ _ => List.not_mem_nil
  | mapResponse json =>
      simp only [DataPlane.step, DataPlane.applyMapResponse] at stepped
      split at stepped
      · cases stepped
        exact answers
      · obtain ⟨updated, _, same⟩ := Option.map_eq_some_iff.mp stepped
        cases same
        exact answers
  | elapse micros =>
      cases stepped
      exact answers
  | derp up =>
      cases stepped
      exact answers
  | tun isOpen =>
      cases stepped
      exact answers

theorem answers_run {clock : Int} {events : List Event}
    (reached : DataPlane.run crypto nodePrivate { clock } events = some plane) :
    Answers crypto nodePrivate plane.log := by
  have along : Run.AlongPartial (DataPlane.step crypto nodePrivate) (fun _ _ => True) { clock }
      events := Run.alongPartial_of_forall (fun _ _ => trivial) _ _
  have start : Answers crypto nodePrivate ([] : List Entry) := by
    intro entry member
    cases member
  have preserved : ∀ (plane : DataPlane) (event : Event) (next : DataPlane), True →
      plane.step crypto nodePrivate event = some next →
      Answers crypto nodePrivate plane.log → Answers crypto nodePrivate next.log :=
    fun _ _ _ _ stepped answers => answers_step stepped answers
  exact Run.invariant_partial preserved along reached start

/-! ## The second delivery -/

/-- The peer is not stored any more, or the draw does not suffice for a response. -/
def Harmless (crypto : Crypto) (nodePrivate : Key) (plane : DataPlane) (name : CString)
    (msg : Bytes) (draw : Draw) : Prop :=
  plane.set.find name = none ∨ ∀ consumed ∈ WGPeer.responderConsume crypto nodePrivate msg,
    ¬ Answerable crypto draw consumed.peerEphemeral consumed.initiatorStatic

/-- Keys that were used since they were installed. -/
def Used (transport : Transport) : Prop :=
  transport.sendCounter ≠ 0 ∨ transport.replay ≠ {}

theorem find_modified {plane : DataPlane} {name : CString} {position : Nat} {peer : ManagedPeer}
    {work : ManagedPeer → Outcome} (found : plane.set.find name = some position)
    (stored : plane.set.peers[position]? = some peer)
    (same : (work peer).1.nodeKeyHex = peer.nodeKeyHex) :
    transportOf name (plane.updatePeer position work) = transport (work peer).1.wg := by
  obtain ⟨before, after, split, _, replaced⟩ := set_split stored
  have names : TSPeerSet.keys (plane.set.peers.set position (work peer).1) =
      TSPeerSet.keys plane.set.peers := by
    rw [replaced, split]
    simp [TSPeerSet.keys, same]
  have still : TSPeerSet.find { peers := plane.set.peers.set position (work peer).1 } name =
      some position := by
    rw [TSPeerSet.find, TSPeerSet.indexOf_eq, names, ← TSPeerSet.indexOf_eq]
    exact found
  have inside : position < plane.set.peers.length := (List.getElem?_eq_some_iff.mp stored).1
  simp only [transportOf, DataPlane.updatePeer, stored, still, Option.bind_eq_bind,
    Option.bind_some, List.getElem?_set_self inside]

theorem handle_answered (plane : DataPlane) {msg : Bytes} (draw : Draw) {name : CString}
    {consumed : WGPeer.Consumed}
    (opened : WGPeer.responderConsume crypto nodePrivate msg = some consumed)
    (author : name = toHex consumed.initiatorStatic.bytes) :
    plane.handleWireGuardPacket crypto nodePrivate msg draw =
      plane.updateFound (plane.set.find name)
        ((plane.context crypto nodePrivate).answer msg draw) := by
  have shape : msg.length = 148 ∧ octetAt msg 0 = 1 := by
    by_contra other
    rw [WGPeer.responderConsume, if_pos (by tauto)] at opened
    cases opened
  unfold DataPlane.handleWireGuardPacket
  simp only
  rw [if_neg (by omega), if_pos ⟨shape.2, shape.1⟩, WGPeer.recoverInitiatorStatic, opened, author]
  rfl

/-- What a repeated initiation makes of the peer it is from. -/
theorem transportOf_answered {msg : Bytes} (draw : Draw) {name : CString}
    {consumed : WGPeer.Consumed}
    (opened : WGPeer.responderConsume crypto nodePrivate msg = some consumed)
    (author : name = toHex consumed.initiatorStatic.bytes) {position : Nat} {peer : ManagedPeer}
    (found : plane.set.find name = some position) (stored : plane.set.peers[position]? = some peer) :
    transportOf name (plane.handleWireGuardPacket crypto nodePrivate msg draw) =
      transport (peer.wg.answerInitiation crypto { draw with systemTime := plane.clock }
        nodePrivate msg).1 := by
  rw [handle_answered plane draw opened author, found, DataPlane.updateFound]
  have answered : ((plane.context crypto nodePrivate).answer msg draw peer).1 =
      { peer with wg := (peer.wg.answerInitiation crypto { draw with systemTime := plane.clock }
        nodePrivate msg).1 } := by
    unfold Context.answer
    simp only [DataPlane.context]
    split
    · rfl
    · rfl
  rw [find_modified found stored (by rw [answered]), answered]

/-- After any run, a copy of an initiation that was answered leaves the transport alone when it
is harmless, and, where the keys have been used, only then. -/
theorem repeated_initiation (lawful : crypto.Lawful) (clock : Int) (events : List Event)
    (plane : DataPlane) (reached : DataPlane.run crypto nodePrivate { clock } events = some plane)
    (entry : Entry) (logged : entry ∈ plane.log) (msg : Bytes)
    (answered : entry.action = .answered msg) (draw : Draw) (next : DataPlane)
    (stepped : plane.step crypto nodePrivate (.datagram msg draw) = some next) :
    (Harmless crypto nodePrivate plane entry.peer msg draw →
      transportOf entry.peer next = transportOf entry.peer plane) ∧
    ((∀ installed ∈ transportOf entry.peer plane, Used installed) →
      transportOf entry.peer next = transportOf entry.peer plane →
      Harmless crypto nodePrivate plane entry.peer msg draw) := by
  obtain ⟨consumed, opened, name⟩ := answers_run reached entry logged msg answered
  cases stepped
  cases found : plane.set.find entry.peer with
  | none =>
      have ignored := handle_answered plane draw opened name
      rw [found] at ignored
      exact ⟨fun _ => congrArg (transportOf entry.peer) ignored, fun _ _ => .inl found⟩
  | some position =>
      obtain ⟨inside, _, _⟩ := List.findIdx?_eq_some_iff_getElem.mp found
      have stored := List.getElem?_eq_getElem inside
      have after := transportOf_answered draw opened name found stored
      have before : transportOf entry.peer plane = transport plane.set.peers[position].wg := by
        simp only [transportOf, found, stored, Option.bind_eq_bind, Option.bind_some]
      constructor
      · rintro (absent | refused)
        · exact absurd (found.symm.trans absent) (by simp)
        · rw [before]
          exact after.trans (answerInitiation_refused opened _ (refused consumed opened))
      · intro used same
        refine .inr fun other again answerable => ?_
        cases opened.symm.trans again
        have ready : Answerable crypto { draw with systemTime := plane.clock }
            consumed.peerEphemeral consumed.initiatorStatic := answerable
        obtain ⟨installed, fresh, counter, window⟩ := answerInitiation_answered lawful opened
          plane.set.peers[position].wg ready
        have kept : transportOf entry.peer plane = some installed := same ▸ after.trans fresh
        exact (used installed kept).elim (absurd counter) (absurd window)

end Run

/-- A draw for which no index came. -/
def indexless : Draw :=
  { Transparent.draw 5 9 0 with index := none }

theorem repeated_initiation_sample :
    ∃ plane next entry, Sample.plane [] = some plane ∧ entry ∈ plane.log ∧
      plane.step Transparent.crypto (Transparent.pair 1).priv (.datagram Sample.initiation indexless) =
        some next ∧ transportOf entry.peer next = transportOf entry.peer plane := by
  have defined : ((Sample.plane []).bind fun plane => plane.log.find? fun entry =>
      entry.action = .answered Sample.initiation).isSome = true := by
    decide +kernel
  obtain ⟨entry, found⟩ := Option.isSome_iff_exists.mp defined
  obtain ⟨plane, reached, first⟩ := Option.bind_eq_some_iff.mp found
  have logged := List.mem_of_find?_eq_some first
  have holds := List.find?_some first
  have answered : entry.action = .answered Sample.initiation := of_decide_eq_true holds
  refine ⟨plane, _, entry, reached, logged, rfl, ?_⟩
  exact (repeated_initiation Transparent.lawful 1 _ plane reached entry logged _ answered indexless _
    rfl).1 (.inr fun _ _ answerable => by cases answerable.1)

/-- Whether a second delivery of the sample initiation changes the send key of a peer that
answered it. -/
def replaced (plane : DataPlane) : Bool :=
  plane.log.any fun entry => entry.action = .answered Sample.initiation &&
    (plane.handleWireGuardPacket Transparent.crypto (Transparent.pair 1).priv Sample.initiation
        (Transparent.draw 5 9 0) |> transportOf entry.peer).map Transport.sendKey ≠
      (transportOf entry.peer plane).map Transport.sendKey

/-- The initiation is answered, and answered again with other keys. -/
theorem repeated_initiation_replaces :
    ¬ ∀ (events : List Event) (plane : DataPlane),
      DataPlane.run Transparent.crypto (Transparent.pair 1).priv { clock := 1 } events =
        some plane →
      ∀ entry ∈ plane.log, ∀ msg, entry.action = .answered msg → ∀ draw next,
        plane.step Transparent.crypto (Transparent.pair 1).priv (.datagram msg draw) = some next →
        transportOf entry.peer next = transportOf entry.peer plane := by
  intro claim
  have again : (Sample.plane []).any replaced = true := by decide +kernel
  obtain ⟨plane, reached, again⟩ := (Option.any_eq_true _ _).mp again
  obtain ⟨entry, logged, differs⟩ := List.any_eq_true.mp again
  rw [Bool.and_eq_true, decide_eq_true_iff, decide_eq_true_iff] at differs
  exact differs.2 (congrArg (Option.map Transport.sendKey)
    (claim _ plane reached entry logged _ differs.1 _ _ rfl))

end Sotoportego.Tailscale
