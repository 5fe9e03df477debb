import Sotoportego.Tailscale.PathProperties
import Sotoportego.WireGuard.HandshakeProperties
import Sotoportego.WireGuard.TranscriptProperties

/-!
# Falling back to the relay

`_SendPeerBytes` asks only whether a path is direct, and only a pong or the end of the peer
changes that, so a direct path that has gone quiet is still used. A run falls back exactly when,
with the relay up, nothing is ever due to a peer whose last pong came from an endpoint that has
gone quiet.
-/

set_option autoImplicit false

namespace Sotoportego.Tailscale

open Octets CText WireGuard

/-! ## When a message is due -/

namespace Context

variable (context : Context)

/-- An initiation towards the peer can be built. -/
def Initiates (draw : Draw) (peer : ManagedPeer) : Prop :=
  (peer.wg.buildInitiation context.crypto { draw with systemTime := context.now }
    context.nodePrivate peer.wg.nodeKey).2.isSome = true

def Seals (packet : Bytes) (peer : ManagedPeer) : Prop :=
  (peer.wg.encapsulate context.crypto context.now packet).2.isSome = true

/-- A packet for a peer calls for a message: the packet itself, a handshake at most every five
seconds while there are no keys, a rekey. -/
def PacketDue (packet : Bytes) (draw : Draw) (peer : ManagedPeer) : Prop :=
  let peer := (context.expire peer).1
  if peer.wg.hasKeys = false then
    context.now - peer.lastHandshake > 5000000 ∧ context.Initiates draw peer
  else
    peer.wg.shouldInitiateRekey context.now = true ∧ context.Initiates draw peer ∨
      context.Seals packet peer

/-- A tick calls for a rekey or else for a keepalive. -/
def UpkeepDue (draw : Draw) (peer : ManagedPeer) : Prop :=
  let peer := (context.expire peer).1
  peer.wg.hasKeys = true ∧
    if peer.wg.shouldInitiateRekey context.now then context.Initiates draw peer
    else peer.wg.shouldKeepalive context.now = true ∧ context.Seals [] peer

/-- An initiation of the peer is answered. -/
def ResponseDue (msg : Bytes) (draw : Draw) (peer : ManagedPeer) : Prop :=
  (peer.wg.answerInitiation context.crypto { draw with systemTime := context.now }
    context.nodePrivate msg).2.isSome = true

end Context

section Sending

variable {context : Context} {peer : ManagedPeer} {packet : Bytes} {draw : Draw}

theorem sends_sendPeerBytes (up : context.derpUp = true) (message : Bytes) :
    Sends (context.sendPeerBytes peer message) := by
  rw [Context.sendPeerBytes, up]
  cases peerSockaddr peer with
  | none => exact ⟨.derp, message, List.mem_singleton_self _⟩
  | some destination => exact ⟨.direct _ _, message, List.mem_singleton_self _⟩

theorem sends_initiate (up : context.derpUp = true) :
    Sends (context.initiate draw peer).2 ↔ context.Initiates draw peer := by
  rw [Context.initiate, Context.Initiates]
  cases built : (peer.wg.buildInitiation context.crypto { draw with systemTime := context.now }
      context.nodePrivate peer.wg.nodeKey).2 with
  | none => exact iff_of_false not_sends_nil Bool.false_ne_true
  | some init =>
      obtain ⟨route, message, sent⟩ := @sends_sendPeerBytes context peer up init
      exact iff_of_true ⟨route, message, List.mem_cons_of_mem _ sent⟩ rfl

theorem sends_encapsulate (up : context.derpUp = true) :
    Sends (context.encapsulate packet peer).2 ↔ context.Seals packet peer := by
  rw [Context.encapsulate, Context.Seals]
  cases built : (peer.wg.encapsulate context.crypto context.now packet).2 with
  | none => exact iff_of_false not_sends_nil Bool.false_ne_true
  | some message =>
      obtain ⟨route, message, sent⟩ := @sends_sendPeerBytes context peer up message
      exact iff_of_true ⟨route, message, List.mem_cons_of_mem _ sent⟩ rfl

theorem sends_answer (up : context.derpUp = true) {msg : Bytes} :
    Sends (context.answer msg draw peer).2 ↔ context.ResponseDue msg draw peer := by
  rw [Context.answer, Context.ResponseDue]
  cases built : (peer.wg.answerInitiation context.crypto { draw with systemTime := context.now }
      context.nodePrivate msg).2 with
  | none => exact iff_of_false not_sends_nil Bool.false_ne_true
  | some response =>
      obtain ⟨route, message, sent⟩ := @sends_sendPeerBytes context peer up response
      exact iff_of_true
        ⟨route, message, List.mem_cons_of_mem _ (List.mem_cons_of_mem _ sent)⟩ rfl

theorem encapsulate_isSome {left right : WGPeer} (same : left.sendState = right.sendState)
    (crypto : Crypto) (now : Int) (plain : Bytes) :
    (left.encapsulate crypto now plain).2.isSome = (right.encapsulate crypto now plain).2.isSome := by
  have keys : left.hasKeys = right.hasKeys := congrArg Prod.fst same
  have key : left.sendKey = right.sendKey := congrArg (fun state => state.2.1) same
  have counter : left.sendCounter = right.sendCounter := congrArg (fun state => state.2.2) same
  unfold WGPeer.encapsulate
  rw [keys, key, counter]
  split
  · rfl
  · simp only
    split
    · rfl
    · split <;> rfl

/-- The keys in use are the same after an initiation. -/
theorem seals_initiate : context.Seals packet (context.initiate draw peer).1 ↔
    context.Seals packet peer := by
  have same := WGPeer.buildInitiation_sendState context.crypto
    { draw with systemTime := context.now } peer.wg context.nodePrivate peer.wg.nodeKey
  have wg : (context.initiate draw peer).1.wg = (peer.wg.buildInitiation context.crypto
      { draw with systemTime := context.now } context.nodePrivate peer.wg.nodeKey).1 := by
    simp only [Context.initiate]
    split <;> rfl
  rw [Context.Seals, Context.Seals, wg, encapsulate_isSome same]

theorem sends_transmit (up : context.derpUp = true) :
    Sends (context.transmit packet draw peer).2 ↔
      if peer.wg.hasKeys = false then
        context.now - peer.lastHandshake > 5000000 ∧ context.Initiates draw peer
      else
        peer.wg.shouldInitiateRekey context.now = true ∧ context.Initiates draw peer ∨
          context.Seals packet peer := by
  rw [Context.transmit]
  split
  next =>
    split
    next late => rw [sends_initiate up, and_iff_right late]
    next early => exact iff_of_false not_sends_nil fun due => early due.1
  next =>
    rw [Outcome.andThen, sends_append, sends_encapsulate up, Context.rekeyIfDue]
    split
    next rekey => rw [sends_initiate up, seals_initiate, and_iff_right rekey]
    next calm => exact or_congr (iff_of_false not_sends_nil fun due => calm due.1) Iff.rfl

theorem sends_sendToPeer (up : context.derpUp = true) :
    Sends (context.sendToPeer packet draw peer).2 ↔ context.PacketDue packet draw peer := by
  obtain ⟨lastDiscoPing, actions, probed, silent⟩ := @probe_cases context peer
  rw [Context.sendToPeer, Outcome.andThen, Outcome.andThen, sends_append, sends_append,
    or_iff_right (not_or.mpr ⟨probed ▸ silent, not_sends_expire⟩), sends_transmit up, probed]
  exact Iff.rfl

theorem sends_maintainPeer (up : context.derpUp = true) :
    Sends (context.maintainPeer draw peer).2 ↔ context.UpkeepDue draw peer := by
  rw [Context.maintainPeer]
  split
  next keyless =>
    refine iff_of_false not_sends_nil fun due => ?_
    have kept : (peer.wg.expireIfStale context.now).1.hasKeys = false := by
      unfold WGPeer.expireIfStale
      split
      · rfl
      · exact keyless
    exact Bool.false_ne_true (kept.symm.trans due.1)
  next =>
    rw [Outcome.andThen, sends_append, or_iff_right not_sends_expire, Context.UpkeepDue,
      Context.upkeep]
    generalize (context.expire peer).1 = fresh
    split
    next keyless =>
      refine iff_of_false not_sends_nil fun due => ?_
      exact Bool.false_ne_true (keyless.symm.trans due.1)
    next keys =>
      rw [and_iff_right (Bool.eq_true_of_not_eq_false keys)]
      split
      next => exact sends_initiate up
      next =>
        split
        next due => rw [sends_encapsulate up, and_iff_right due]
        next early => exact iff_of_false not_sends_nil fun due => early due.1

end Sending

namespace DataPlane

variable (crypto : Crypto) (nodePrivate : Key)

/-- The event calls for a message to the peer at the position. -/
def Due (plane : DataPlane) (event : Event) (position : Nat) (peer : ManagedPeer) : Prop :=
  match event with
  | .tunPacket packet draw =>
      plane.route packet = some position ∧
        (plane.context crypto nodePrivate).PacketDue packet draw peer
  | .tick draws => (plane.context crypto nodePrivate).UpkeepDue (draws position) peer
  | .datagram bytes draw =>
      octetAt bytes 0 = 1 ∧ bytes.length = 148 ∧
        ((WGPeer.recoverInitiatorStatic crypto nodePrivate bytes).bind fun peerStatic =>
          plane.set.find (toHex peerStatic.bytes)) = some position ∧
        (plane.context crypto nodePrivate).ResponseDue bytes draw peer
  | _ => False

variable {crypto nodePrivate} {plane : DataPlane} {event : Event} {peer : ManagedPeer}

theorem workFound_sends {found : Option Nat} {work : ManagedPeer → Outcome} :
    (∃ actions, (peer, actions) ∈ plane.workFound found work ∧ Sends actions) ↔
      ∃ position, plane.set.peers[position]? = some peer ∧ found = some position ∧
        Sends (work peer).2 := by
  simp only [workFound, Option.mem_toList, Option.map_eq_some_iff, Option.bind_eq_some_iff]
  constructor
  · rintro ⟨_, ⟨_, ⟨position, located, stored⟩, same⟩, sends⟩
    cases same
    exact ⟨position, stored, located, sends⟩
  · rintro ⟨position, stored, located, sends⟩
    exact ⟨_, ⟨peer, ⟨position, located, stored⟩, rfl⟩, sends⟩

theorem workFound_silent {found : Option Nat} {work : ManagedPeer → Outcome}
    (silent : ∀ peer, ¬ Sends (work peer).2) :
    ¬ ∃ actions, (peer, actions) ∈ plane.workFound found work ∧ Sends actions := by
  rw [workFound_sends]
  rintro ⟨_, _, _, sends⟩
  exact silent peer sends

/-- With the relay up, what is due is sent and nothing else. -/
theorem works_sends (up : plane.derpUp = true) :
    (∃ actions, (peer, actions) ∈ plane.works crypto nodePrivate event ∧ Sends actions) ↔
      ∃ position, plane.set.peers[position]? = some peer ∧
        plane.Due crypto nodePrivate event position peer := by
  cases event with
  | tunPacket packet draw =>
      refine workFound_sends.trans (exists_congr fun position => and_congr_right fun _ => ?_)
      exact and_congr_right fun _ => sends_sendToPeer up
  | tick draws =>
      have walked (position : Nat) := @sends_maintainPeer (plane.context crypto nodePrivate) peer
        (draws position) up
      simp only [works, List.mem_map, Prod.exists, List.mem_zipIdx_iff_getElem?, Prod.mk.injEq, Due,
        ← walked]
      constructor
      · rintro ⟨_, ⟨_, position, stored, rfl, rfl⟩, sends⟩
        exact ⟨position, stored, sends⟩
      · rintro ⟨position, stored, sends⟩
        exact ⟨_, ⟨_, position, stored, rfl, rfl⟩, sends⟩
  | datagram bytes draw =>
      by_cases initiation : octetAt bytes 0 = 1 ∧ bytes.length = 148
      · have long : ¬ bytes.length < 4 := by omega
        simp only [works, Due, if_neg long, if_pos initiation]
        cases WGPeer.recoverInitiatorStatic crypto nodePrivate bytes with
        | none => simp
        | some peerStatic =>
            refine workFound_sends.trans (exists_congr fun position => and_congr_right fun _ => ?_)
            rw [sends_answer up]
            simp [initiation]
      · refine iff_of_false ?_ ?_
        · simp only [works, if_neg initiation]
          split
          next => simp
          next =>
            split
            next => exact workFound_silent fun _ => not_sends_consumeResponse
            next =>
              split
              next => exact workFound_silent fun _ => not_sends_receive
              next => simp
        · rintro ⟨_, _, type, length, _⟩
          exact initiation ⟨type, length⟩
  | elapse | pong | mapResponse | derp | tun => simp [works, Due]

end DataPlane

/-! ## The history of the paths -/

inductive PathEntry where
  | ponged (peer : CString) (endpoint : Bytes) (time : Int)
  /-- A datagram on the socket. -/
  | heard (endpoint : Bytes) (time : Int)
  /-- The peers that a map response leaves. -/
  | listed (peers : List CString)
  | sent (peer : CString) (time : Int) (route : Route) (relayUp : Bool)
  deriving DecidableEq

/-- What the last pong of a peer confirmed. -/
structure Confirmed where
  endpoint : Bytes
  /-- The last sign of life from there, as long as no silence exceeded the window. -/
  alive : Option Int

def noteConfirmed (window : Int) (name : CString) (held : Option Confirmed) :
    PathEntry → Option Confirmed
  | .ponged peer endpoint time =>
      if peer = name then some { endpoint, alive := some time } else held
  | .heard endpoint time => held.map fun confirmed =>
      if confirmed.endpoint = endpoint then
        { confirmed with
          alive := confirmed.alive.bind fun last =>
            if time - last ≤ window then some time else none }
      else confirmed
  | .listed peers => if name ∈ peers then held else none
  | .sent _ _ _ _ => held

/-- The last pong of a peer since it was listed. -/
def lastConfirmed (window : Int) (name : CString) (log : List PathEntry) : Option Confirmed :=
  log.foldl (noteConfirmed window name) none

/-- The confirmed endpoint has not been quiet for longer than the window since the pong. -/
def Alive (window : Int) (log : List PathEntry) (name : CString) (time : Int) : Prop :=
  ∃ held ∈ lastConfirmed window name log, ∃ last ∈ held.alive, time - last ≤ window

/-- With the relay up, a message over a quiet path goes through the relay. -/
def FallsBack (window : Int) (log : List PathEntry) : PathEntry → Prop
  | .sent peer time route relayUp =>
      relayUp = true → ¬ Alive window log peer time → route = .derp
  | _ => True

/-- The data plane, and what is sent and heard. -/
structure PathPlane where
  plane : DataPlane := {}
  log : List PathEntry := []

namespace PathPlane

inductive Event where
  /-- Datagrams here come through the relay. -/
  | plane (event : Tailscale.Event)
  /-- A datagram on the socket, with the endpoint it came from. -/
  | udp (bytes : Bytes) (draw : Draw) (endpoint : Bytes)

def Event.underlying : Event → Tailscale.Event
  | .plane event => event
  | .udp bytes draw _ => .datagram bytes draw

/-- The signs of life of an event. -/
def lifeOf (plane : DataPlane) : Event → List PathEntry
  | .plane (.pong sender endpoint) =>
      (((plane.set.findByDiscoKey (toHex sender.bytes)).bind fun position =>
        plane.set.peers[position]?).map fun peer =>
          .ponged peer.nodeKeyHex endpoint plane.clock).toList
  | .udp _ _ endpoint => [.heard endpoint plane.clock]
  | _ => []

/-- What the history learns of the peers after an event. -/
def leftOf (plane : DataPlane) : Event → List PathEntry
  | .plane (.mapResponse _) => [.listed (TSPeerSet.keys plane.set.peers)]
  | _ => []

variable (crypto : Crypto) (nodePrivate : Key)

/-- The messages of an event. -/
def sendsOf (plane : DataPlane) (event : Event) : List PathEntry :=
  (plane.works crypto nodePrivate event.underlying).flatMap fun work =>
    work.2.filterMap fun action =>
      match action with
      | .sent route _ => some (.sent work.1.nodeKeyHex plane.clock route plane.derpUp)
      | _ => none

def step (state : PathPlane) (event : Event) : Option PathPlane :=
  (state.plane.step crypto nodePrivate event.underlying).map fun plane =>
    { plane
      log := state.log ++ lifeOf state.plane event ++
        sendsOf crypto nodePrivate state.plane event ++ leftOf plane event }

/-- With the relay up, nothing is due to a peer whose last pong came from an endpoint that one
can send to and that has gone quiet. -/
def Timely (window : Int) (state : PathPlane) (event : Event) : Prop :=
  state.plane.derpUp = true → ∀ position peer, state.plane.set.peers[position]? = some peer →
    state.plane.Due crypto nodePrivate event.underlying position peer →
    ∀ held ∈ lastConfirmed window peer.nodeKeyHex state.log,
      (destination held.endpoint).isSome = true →
        Alive window (state.log ++ lifeOf state.plane event) peer.nodeKeyHex state.plane.clock

variable {crypto nodePrivate} {window : Int}

theorem mem_sendsOf {plane : DataPlane} {event : Event} {entry : PathEntry} :
    entry ∈ sendsOf crypto nodePrivate plane event ↔
      ∃ peer actions, (peer, actions) ∈ plane.works crypto nodePrivate event.underlying ∧
        ∃ route message, .sent route message ∈ actions ∧
          entry = .sent peer.nodeKeyHex plane.clock route plane.derpUp := by
  simp only [sendsOf, List.mem_flatMap, List.mem_filterMap]
  constructor
  · rintro ⟨⟨peer, actions⟩, worked, action, member, shown⟩
    cases action with
    | sent route message =>
        cases shown
        exact ⟨peer, actions, worked, route, message, member, rfl⟩
    | _ => cases shown
  · rintro ⟨peer, actions, worked, route, message, member, rfl⟩
    exact ⟨(peer, actions), worked, _, member, rfl⟩

/-- Messages leave the history as it is. -/
theorem lastConfirmed_sends (plane : DataPlane) (event : Event) (name : CString)
    (log : List PathEntry) :
    lastConfirmed window name (log ++ sendsOf crypto nodePrivate plane event) =
      lastConfirmed window name log := by
  have each : ∀ entry ∈ sendsOf crypto nodePrivate plane event, ∀ held,
      noteConfirmed window name held entry = held := by
    intro entry member held
    obtain ⟨_, _, _, _, _, _, rfl⟩ := mem_sendsOf.mp member
    rfl
  rw [lastConfirmed, List.foldl_append, ← lastConfirmed]
  generalize sendsOf crypto nodePrivate plane event = sends at each
  induction sends with
  | nil => rfl
  | cons entry sends continued =>
      rw [List.foldl_cons, each entry List.mem_cons_self]
      exact continued fun later member => each later (List.mem_cons_of_mem _ member)

/-! ## The history and the paths -/

def lastEndpoint (window : Int) (name : CString) (log : List PathEntry) : Option Bytes :=
  (lastConfirmed window name log).map Confirmed.endpoint

theorem lastEndpoint_concat (name : CString) (log : List PathEntry) (entry : PathEntry) :
    lastEndpoint window name (log ++ [entry]) =
      match entry with
      | .ponged peer endpoint _ =>
          if peer = name then some endpoint else lastEndpoint window name log
      | .listed peers => if name ∈ peers then lastEndpoint window name log else none
      | _ => lastEndpoint window name log := by
  rw [lastEndpoint, lastConfirmed, List.foldl_append, ← lastConfirmed, List.foldl_cons,
    List.foldl_nil, lastEndpoint]
  cases entry with
  | ponged peer endpoint time =>
      simp only [noteConfirmed]
      split <;> rfl
  | heard endpoint time =>
      simp only [noteConfirmed, Option.map_map]
      refine congrArg (Option.map · _) (funext fun held => ?_)
      rw [Function.comp_apply]
      split <;> rfl
  | listed peers =>
      simp only [noteConfirmed]
      split <;> rfl
  | sent => rfl

/-- The paths of the peers are their history. -/
structure Recorded (window : Int) (state : PathPlane) : Prop where
  apart : (TSPeerSet.keys state.plane.set.peers).Nodup
  each : ∀ peer ∈ state.plane.set.peers,
    lastEndpoint window peer.nodeKeyHex state.log = peer.direct
  absent : ∀ name ∉ TSPeerSet.keys state.plane.set.peers, lastEndpoint window name state.log = none

/-- What an event other than a pong leaves, when the history forgets the peers that have gone and
no other endpoint. -/
theorem Recorded.keep {state : PathPlane} {plane : DataPlane} {event : Tailscale.Event}
    {log : List PathEntry} (recorded : Recorded window state)
    (stepped : state.plane.step crypto nodePrivate event = some plane)
    (other : ∀ sender endpoint, event ≠ .pong sender endpoint)
    (apart : (TSPeerSet.keys plane.set.peers).Nodup)
    (kept : ∀ name, lastEndpoint window name log =
      if name ∈ TSPeerSet.keys plane.set.peers then lastEndpoint window name state.log else none) :
    Recorded window { plane, log } := by
  refine ⟨apart, fun peer member => ?_, fun name gone => (kept name).trans (if_neg gone)⟩
  have listed : peer.nodeKeyHex ∈ TSPeerSet.keys plane.set.peers := List.mem_map_of_mem member
  rw [kept, if_pos listed]
  obtain ⟨old, stored, name, same⟩ | ⟨new, none⟩ := step_direct stepped other member
  · rw [← name, recorded.each old stored, same]
  · rw [none, recorded.absent _ new]

/-- A pong changes the path and the history of one peer. -/
theorem Recorded.pong {state : PathPlane} (recorded : Recorded window state) (sender : Key)
    (endpoint : Bytes) :
    Recorded window
      { plane := state.plane.updateFound (state.plane.set.findByDiscoKey (toHex sender.bytes))
          (DataPlane.upgradePath endpoint state.plane.clock)
        log := state.log ++ lifeOf state.plane (.plane (.pong sender endpoint)) } := by
  rw [lifeOf]
  cases state.plane.set.findByDiscoKey (toHex sender.bytes) with
  | none =>
      rw [Option.bind_none, Option.map_none, Option.toList_none, List.append_nil]
      exact recorded
  | some position =>
      rw [Option.bind_some, DataPlane.updateFound, DataPlane.updatePeer]
      cases stored : state.plane.set.peers[position]? with
      | none =>
          rw [Option.map_none, Option.toList_none, List.append_nil]
          exact recorded
      | some peer =>
          rw [Option.map_some, Option.toList_some]
          obtain ⟨before, after, split, _, replaced⟩ := set_split stored
          have differs := distinct_names (split ▸ recorded.apart)
          have keys : TSPeerSet.keys (state.plane.set.peers.set position
              (DataPlane.upgradePath endpoint state.plane.clock peer).1) =
              TSPeerSet.keys state.plane.set.peers := by
            rw [replaced, split]
            simp [TSPeerSet.keys, DataPlane.upgradePath]
          refine ⟨keys ▸ recorded.apart, fun other member => ?_, fun name gone => ?_⟩
          · rw [lastEndpoint_concat]
            dsimp only at member
            rw [replaced] at member
            obtain front | rear := List.mem_append.mp member
            · have elsewhere := differs other (List.mem_append_left _ front)
              simp only [if_neg elsewhere]
              exact recorded.each other (split ▸ List.mem_append_left _ front)
            · obtain rfl | rear := List.mem_cons.mp rear
              · rw [direct_upgradePath]
                exact if_pos rfl
              · have elsewhere := differs other (List.mem_append_right _ rear)
                simp only [if_neg elsewhere]
                exact recorded.each other
                  (split ▸ List.mem_append_right _ (List.mem_cons_of_mem _ rear))
          · rw [keys] at gone
            have elsewhere : peer.nodeKeyHex ≠ name := by
              rintro rfl
              exact gone (List.mem_map_of_mem (List.mem_of_getElem? stored))
            rw [lastEndpoint_concat]
            simp only [if_neg elsewhere]
            exact recorded.absent name gone

theorem keys_applyMapResponse {plane next : DataPlane} {json : Bytes}
    (applied : plane.applyMapResponse json = some next)
    (apart : (TSPeerSet.keys plane.set.peers).Nodup) :
    (TSPeerSet.keys next.set.peers).Nodup := by
  unfold DataPlane.applyMapResponse at applied
  split at applied
  · cases applied
    exact apart
  · next netmap parsed =>
    obtain ⟨updated, result, rfl⟩ := Option.map_eq_some_iff.mp applied
    have spec := TSPeerSet.update_spec plane.set netmap
    rw [result] at spec
    exact spec.1.1

theorem recorded_step {state next : PathPlane} {event : Event} (recorded : Recorded window state)
    (stepped : state.step crypto nodePrivate event = some next) : Recorded window next := by
  obtain ⟨plane, applied, rfl⟩ := Option.map_eq_some_iff.mp stepped
  have sent (name : CString) (log : List PathEntry) :
      lastEndpoint window name (log ++ sendsOf crypto nodePrivate state.plane event) =
        lastEndpoint window name log := by
    rw [lastEndpoint, lastConfirmed_sends, lastEndpoint]
  -- Neither a pong nor a map response: the same peers, the same endpoints.
  have still (other : ∀ sender endpoint, event.underlying ≠ .pong sender endpoint)
      (unmapped : ∀ json, event.underlying ≠ .mapResponse json) (left : leftOf plane event = [])
      (same : ∀ name, lastEndpoint window name (state.log ++ lifeOf state.plane event) =
        lastEndpoint window name state.log) :
      Recorded window
        { plane
          log := state.log ++ lifeOf state.plane event ++
            sendsOf crypto nodePrivate state.plane event ++ leftOf plane event } := by
    have keys : TSPeerSet.keys plane.set.peers = TSPeerSet.keys state.plane.set.peers := by
      rw [keys_located, step_located applied other unmapped, ← keys_located]
    refine recorded.keep applied other (keys ▸ recorded.apart) fun name => ?_
    rw [left, List.append_nil, sent, keys, same]
    split
    next => rfl
    next gone => exact recorded.absent name gone
  cases event with
  | udp bytes draw endpoint =>
      exact still nofun nofun rfl fun name => lastEndpoint_concat name state.log _
  | plane event =>
      have unchanged (idle : lifeOf state.plane (.plane event) = []) (name : CString) :
          lastEndpoint window name (state.log ++ lifeOf state.plane (.plane event)) =
            lastEndpoint window name state.log := by
        rw [idle, List.append_nil]
      cases event with
      | pong sender endpoint =>
          cases applied
          have messages : sendsOf crypto nodePrivate state.plane (.plane (.pong sender endpoint)) =
              [] := rfl
          rw [messages, leftOf, List.append_nil, List.append_nil]
          · exact recorded.pong sender endpoint
          · nofun
      | mapResponse json =>
          refine recorded.keep applied nofun (keys_applyMapResponse applied recorded.apart)
            fun name => ?_
          rw [leftOf, lastEndpoint_concat, sent, unchanged rfl]
      | elapse | tunPacket | tick | datagram | derp | tun =>
          exact still nofun nofun rfl (unchanged rfl)

/-! ## Falling back -/

theorem lifeOf_fallsBack (window : Int) (plane : DataPlane) (event : Event) :
    ∀ entry ∈ lifeOf plane event, ∀ log, FallsBack window log entry := by
  intro entry member log
  unfold lifeOf at member
  split at member
  · simp only [Option.mem_toList, Option.map_eq_some_iff] at member
    obtain ⟨_, _, rfl⟩ := member
    trivial
  · cases List.mem_singleton.mp member
    trivial
  · cases member

theorem leftOf_fallsBack (window : Int) (plane : DataPlane) (event : Event) :
    ∀ entry ∈ leftOf plane event, ∀ log, FallsBack window log entry := by
  intro entry member log
  unfold leftOf at member
  split at member
  · cases List.mem_singleton.mp member
    trivial
  · cases member

/-- One event keeps the log falling back exactly when it is timely. -/
theorem fallsBack_step {state next : PathPlane} {event : Event} (recorded : Recorded window state)
    (stepped : state.step crypto nodePrivate event = some next) :
    Run.Logged (FallsBack window) next.log ↔
      Run.Logged (FallsBack window) state.log ∧ Timely crypto nodePrivate window state event := by
  obtain ⟨plane, _, rfl⟩ := Option.map_eq_some_iff.mp stepped
  have life : Run.Along (fun earlier entry => earlier ++ [entry]) (FallsBack window) state.log
      (lifeOf state.plane event) :=
    Run.along_of_forall (lifeOf_fallsBack window state.plane event) state.log
  have left (log : List PathEntry) : Run.Along (fun earlier entry => earlier ++ [entry])
      (FallsBack window) log (leftOf plane event) :=
    Run.along_of_forall (leftOf_fallsBack window plane event) log
  have together : ∀ earlier, ∀ added ∈ sendsOf crypto nodePrivate state.plane event,
      ∀ entry ∈ sendsOf crypto nodePrivate state.plane event,
      (FallsBack window (earlier ++ [added]) entry ↔ FallsBack window earlier entry) := by
    intro earlier added addedSent entry listed
    obtain ⟨_, _, _, _, _, _, rfl⟩ := mem_sendsOf.mp addedSent
    obtain ⟨_, _, _, _, _, _, rfl⟩ := mem_sendsOf.mp listed
    simp only [FallsBack, Alive, lastConfirmed, List.foldl_append, List.foldl_cons, List.foldl_nil,
      noteConfirmed]
  -- A stored peer is sent to directly exactly when its history says so.
  have routed {peer : ManagedPeer} (stored : peer ∈ state.plane.set.peers) :
      routeOf peer ≠ .derp ↔ ∃ held ∈ lastConfirmed window peer.nodeKeyHex state.log,
        (destination held.endpoint).isSome = true := by
    rw [Ne, routeOf_derp, Bool.not_eq_false, peerSockaddr_eq, ← recorded.each peer stored,
      lastEndpoint]
    cases lastConfirmed window peer.nodeKeyHex state.log with
    | none => simp
    | some held => simp
  rw [Run.logged_append, Run.logged_append, Run.logged_append, Run.along_together together,
    and_iff_left (left _), and_iff_left life]
  refine and_congr_right fun _ => ?_
  constructor
  · intro justified up position peer stored due held known usable
    obtain ⟨actions, worked, route, message, member⟩ :=
      (DataPlane.works_sends up).mpr ⟨position, stored, due⟩
    by_contra quiet
    have relayed := justified _ (mem_sendsOf.mpr ⟨peer, actions, worked, route, message, member, rfl⟩)
      up quiet
    rw [DataPlane.works_routed worked member] at relayed
    exact (routed (List.mem_of_getElem? stored)).mpr ⟨held, known, usable⟩ relayed
  · intro timely entry listed
    obtain ⟨peer, actions, worked, route, message, member, rfl⟩ := mem_sendsOf.mp listed
    intro up quiet
    obtain ⟨position, stored, due⟩ :=
      (DataPlane.works_sends up).mp ⟨actions, worked, route, message, member⟩
    rw [DataPlane.works_routed worked member]
    by_contra direct
    obtain ⟨held, known, usable⟩ := (routed (List.mem_of_getElem? stored)).mp direct
    exact quiet (timely up position peer stored due held known usable)

theorem recorded_start {start : DataPlane} (apart : (TSPeerSet.keys start.set.peers).Nodup)
    (relayed : ∀ peer ∈ start.set.peers, peer.path.mode ≠ .direct) :
    Recorded window { plane := start } :=
  ⟨apart, fun peer member => (if_neg (relayed peer member)).symm, fun _ _ => rfl⟩

theorem fallsBack_run {state final : PathPlane} {events : List Event}
    (recorded : Recorded window state)
    (reached : Run.runPartial (step crypto nodePrivate) state events = some final) :
    Run.Logged (FallsBack window) final.log ↔ Run.Logged (FallsBack window) state.log ∧
      Run.AlongPartial (step crypto nodePrivate) (Timely crypto nodePrivate window) state events := by
  have preserved (state : PathPlane) (event : Event) (next : PathPlane)
      (stepped : state.step crypto nodePrivate event = some next)
      (recorded : Recorded window state) : Recorded window next :=
    recorded_step recorded stepped
  have each (state : PathPlane) (event : Event) (next : PathPlane)
      (recorded : Recorded window state)
      (stepped : state.step crypto nodePrivate event = some next) :
      Run.Logged (FallsBack window) next.log ↔
        Run.Logged (FallsBack window) state.log ∧ Timely crypto nodePrivate window state event :=
    fallsBack_step recorded stepped
  exact Run.iff_alongPartial preserved each recorded reached

/-- In every run the messages fall back to the relay exactly when none is ever due to a peer whose
confirmed endpoint is quiet. -/
theorem sends_fall_back (start : DataPlane) (apart : (TSPeerSet.keys start.set.peers).Nodup)
    (relayed : ∀ peer ∈ start.set.peers, peer.path.mode ≠ .direct) (events : List Event)
    {final : PathPlane}
    (reached : Run.runPartial (step crypto nodePrivate) { plane := start } events = some final) :
    Run.Logged (FallsBack window) final.log ↔
      Run.AlongPartial (step crypto nodePrivate) (Timely crypto nodePrivate window)
        { plane := start } events :=
  (fallsBack_run (recorded_start apart relayed) reached).trans (and_iff_right Run.logged_nil)

/-- The decision the send path leaves out: a quiet path, once evaluated, is the relay's. -/
theorem evaluate_relays {peer : ManagedPeer} {now staleAfterUs : Int}
    (quiet : now - peer.path.lastDirectActivity > staleAfterUs) :
    routeOf { peer with path := peer.path.evaluate now staleAfterUs } = .derp := by
  rw [routeOf_derp, PeerPath.evaluate]
  by_cases direct : peer.path.mode = .direct
  · simp [direct, quiet, peerSockaddr]
  · simp [direct, peerSockaddr]

/-! ## A path that stays direct -/

namespace Sample

def key (seed : UInt8) : Key := (Transparent.pair seed).priv

def peer : ManagedPeer where
  nodeKeyHex := toHex (key 2).bytes
  discoKey := toHex (key 4).bytes
  allowedIPs := [ascii "100.64.0.9/32"]
  endpoints := [ascii "203.0.113.7:41641"]
  wg := { nodeKey := key 2 }

def start : DataPlane where
  clock := 10000000
  derpUp := true
  set := { peers := [peer] }

def packet : Bytes := [0x45, 0, 0, 20, 0, 0, 0, 0, 64, 17, 0, 0, 100, 64, 0, 1, 100, 64, 0, 9]

/-- A pong, a silence, and a packet. -/
def silence (micros : Nat) : List Event :=
  [.plane (.pong (key 4) (ascii "203.0.113.7:41641")), .plane (.elapse micros),
    .plane (.tunPacket packet (Transparent.draw 3 7 0))]

/-- The peer after its pong. -/
def upgraded : ManagedPeer :=
  { peer with path := peer.path.upgradeToDirect (ascii "203.0.113.7:41641") 10000000 }

def afterPong : PathPlane where
  plane := { start with set := { peers := [upgraded] } }
  log := [.ponged peer.nodeKeyHex (ascii "203.0.113.7:41641") 10000000]

def afterSilence (micros : Nat) : PathPlane :=
  { afterPong with plane := { afterPong.plane with clock := 10000000 + micros } }

theorem pong_step (nodePrivate : Key) :
    step Transparent.crypto nodePrivate { plane := start }
      (.plane (.pong (key 4) (ascii "203.0.113.7:41641"))) = some afterPong := by
  have found : start.set.findByDiscoKey (toHex (key 4).bytes) = some 0 := by decide +kernel
  simp only [step, Event.underlying, DataPlane.step, lifeOf, found]
  rfl

/-- After the silence the packet calls for an initiation. -/
theorem silence_due (micros : Nat) :
    (afterSilence micros).plane.Due Transparent.crypto (key 1)
      (.tunPacket packet (Transparent.draw 3 7 0)) 0 upgraded := by
  constructor
  · have found : ({ peers := [upgraded] } : TSPeerSet).findByAllowedIP (dottedQuad packet 16) =
        some 0 := by decide +kernel
    exact (if_neg (by decide)).trans found
  · obtain ⟨wg, init, built, _⟩ := WGPeer.buildInitiation_outstanding Transparent.lawful
      (Transparent.pair 1) (Transparent.pair 2) (Transparent.pair 3)
      { Transparent.draw 3 7 0 with systemTime := (afterSilence micros).plane.clock } 7 upgraded.wg
      rfl rfl
    have kept (context : Context) : (context.expire upgraded).1 = upgraded := by
      simp [Context.expire, WGPeer.expireIfStale, upgraded, peer]
    have idle : upgraded.wg.hasKeys = false := rfl
    have late : (0 : Int) ≤ micros := Int.natCast_nonneg micros
    have clock : (afterSilence micros).plane.clock = 10000000 + micros := rfl
    have never : upgraded.lastHandshake = 0 := rfl
    simp only [Context.PacketDue, kept, idle, if_true, DataPlane.context, clock, never]
    refine ⟨by omega, ?_⟩
    exact congrArg (fun result => result.2.isSome) built

/-- The pong is the last that is known of the path. -/
theorem silence_known (window : Int) (micros : Nat) :
    lastConfirmed window upgraded.nodeKeyHex (afterSilence micros).log =
      some { endpoint := ascii "203.0.113.7:41641", alive := some 10000000 } := by
  simp [lastConfirmed, afterSilence, afterPong, noteConfirmed, upgraded]

theorem silence_runs (micros : Nat) :
    ∃ final, Run.runPartial (step Transparent.crypto (key 1)) { plane := start } (silence micros) =
      some final := by
  have second : step Transparent.crypto (key 1) afterPong (.plane (.elapse micros)) =
      some (afterSilence micros) := rfl
  simp only [Run.runPartial, silence, List.foldlM_cons, List.foldlM_nil, pong_step, second,
    Option.bind_eq_bind, Option.bind_some]
  exact ⟨_, rfl⟩

end Sample

theorem sends_fall_back_sample :
    ∃ final, Run.runPartial (step Transparent.crypto (Sample.key 1)) { plane := Sample.start }
        (Sample.silence 5000000) = some final ∧ Run.Logged (FallsBack 15000000) final.log := by
  obtain ⟨final, reached⟩ := Sample.silence_runs 5000000
  have within : Timely Transparent.crypto (Sample.key 1) 15000000 (Sample.afterSilence 5000000)
      (.plane (.tunPacket Sample.packet (Transparent.draw 3 7 0))) := by
    rintro _ position peer stored _ held known _
    have single : peer = Sample.upgraded := List.mem_singleton.mp (List.mem_of_getElem? stored)
    rw [lifeOf, List.append_nil, single]
    · exact ⟨_, Sample.silence_known 15000000 5000000, 10000000, rfl, by decide⟩
    all_goals nofun
  refine ⟨final, reached, (sends_fall_back Sample.start ?_ ?_ _ reached).mpr ?_⟩
  · decide +kernel
  · decide +kernel
  · refine ⟨fun _ _ _ _ due => due.elim, fun next stepped => ?_⟩
    cases stepped.symm.trans (Sample.pong_step _)
    refine ⟨fun _ _ _ _ due => due.elim, fun next stepped => ?_⟩
    cases stepped
    exact ⟨within, fun _ _ => trivial⟩

/-- Whatever the window, a silence longer than that leaves the path direct. -/
theorem silence_stays_direct :
    ¬ ∃ window : Int, ∀ (crypto : Crypto) (nodePrivate : Key) (start : DataPlane)
      (events : List Event) (final : PathPlane), crypto.Lawful →
      (∀ peer ∈ start.set.peers, peer.path.mode ≠ .direct) →
      Run.runPartial (step crypto nodePrivate) { plane := start } events = some final →
      Run.Logged (FallsBack window) final.log := by
  rintro ⟨window, claim⟩
  let micros := window.toNat + 1
  obtain ⟨final, reached⟩ := Sample.silence_runs micros
  have relayed : ∀ peer ∈ Sample.start.set.peers, peer.path.mode ≠ .direct := by decide +kernel
  have logged := claim _ _ _ _ final Transparent.lawful relayed reached
  have recorded : Recorded window { plane := Sample.start } :=
    recorded_start (by decide +kernel) relayed
  obtain ⟨_, timely⟩ := (fallsBack_run recorded reached).mp logged
  obtain ⟨held, known, last, noted, recent⟩ :=
    ((timely.2 _ (Sample.pong_step _)).2 (Sample.afterSilence micros) rfl).1 rfl 0 Sample.upgraded
      rfl (Sample.silence_due micros) _ (Sample.silence_known window micros) (by decide +kernel)
  rw [lifeOf, List.append_nil] at known
  · cases known.symm.trans (Sample.silence_known window micros)
    cases noted
    have clock : (Sample.afterSilence micros).plane.clock = 10000000 + (micros : Int) := rfl
    omega
  all_goals nofun

end PathPlane

end Sotoportego.Tailscale
