import Sotoportego.Tailscale.DataPlaneProperties

/-!
# Paths of the peers

The work on a peer leaves its path alone and sends over that path. Only a pong makes a path
direct.
-/

set_option autoImplicit false

namespace Sotoportego.Tailscale

open Octets CText WireGuard

/-- Where `_SendPeerBytes` sends, if it sends. -/
def routeOf (peer : ManagedPeer) : Route :=
  match peerSockaddr peer with
  | some (address, port) => .direct address port
  | none => .derp

theorem routeOf_derp {peer : ManagedPeer} :
    routeOf peer = .derp ↔ (peerSockaddr peer).isSome = false := by
  unfold routeOf
  cases peerSockaddr peer <;> simp

/-- Some action sends. -/
def Sends (actions : List Action) : Prop := ∃ route message, .sent route message ∈ actions

theorem sends_append {first second : List Action} :
    Sends (first ++ second) ↔ Sends first ∨ Sends second := by
  simp only [Sends, List.mem_append, exists_or]

theorem not_sends {actions : List Action} (silent : ∀ route message, .sent route message ∉ actions) :
    ¬ Sends actions :=
  fun ⟨route, message, member⟩ => silent route message member

theorem not_sends_nil : ¬ Sends [] := not_sends fun _ _ => List.not_mem_nil

/-- Work that keeps the path and sends over it. -/
structure Routed (peer : ManagedPeer) (outcome : Outcome) : Prop where
  path : outcome.1.path = peer.path
  name : outcome.1.nodeKeyHex = peer.nodeKeyHex
  sends : ∀ route message, .sent route message ∈ outcome.2 → route = routeOf peer

section Works

variable {context : Context} {peer : ManagedPeer} {packet : Bytes} {draw : Draw}

theorem routeOf_path {other : ManagedPeer} (same : other.path = peer.path) :
    routeOf other = routeOf peer := by
  unfold routeOf peerSockaddr
  rw [same]

theorem Routed.andThen {first : Outcome} {next : ManagedPeer → Outcome} (routed : Routed peer first)
    (continued : Routed first.1 (next first.1)) : Routed peer (first.andThen next) := by
  refine ⟨continued.path.trans routed.path, continued.name.trans routed.name, ?_⟩
  intro route message member
  obtain member | member := List.mem_append.mp member
  · exact routed.sends route message member
  · exact (continued.sends route message member).trans (routeOf_path routed.path)

theorem sendPeerBytes_routed {message : Bytes} {route : Route} {sent : Bytes}
    (member : .sent route sent ∈ context.sendPeerBytes peer message) : route = routeOf peer := by
  unfold Context.sendPeerBytes at member
  unfold routeOf
  cases found : peerSockaddr peer with
  | some destination =>
      rw [found] at member
      cases List.mem_singleton.mp member
      rfl
  | none =>
      rw [found] at member
      simp only at member
      split at member
      · cases List.mem_singleton.mp member
        rfl
      · cases member

/-- Work that sends nothing. -/
theorem Routed.silent {outcome : Outcome} (path : outcome.1.path = peer.path)
    (name : outcome.1.nodeKeyHex = peer.nodeKeyHex) (silent : ¬ Sends outcome.2) :
    Routed peer outcome :=
  ⟨path, name, fun route message member => absurd ⟨route, message, member⟩ silent⟩

theorem idle_routed : Routed peer (peer, []) :=
  .silent rfl rfl not_sends_nil

/-- A probe sends pings, which are no messages, and only notes their time. -/
theorem probe_cases : ∃ lastDiscoPing actions,
    context.probe peer = ({ peer with lastDiscoPing }, actions) ∧ ¬ Sends actions := by
  unfold Context.probe Context.sendDiscoPing
  split
  · exact ⟨_, _, rfl, not_sends_nil⟩
  · split
    · exact ⟨_, _, rfl, not_sends_nil⟩
    · split
      · exact ⟨_, _, rfl, not_sends_nil⟩
      · split
        · exact ⟨_, _, rfl, not_sends_nil⟩
        · exact ⟨_, _, rfl, not_sends (by simp)⟩

theorem probe_routed : Routed peer (context.probe peer) := by
  obtain ⟨lastDiscoPing, actions, probed, silent⟩ := @probe_cases context peer
  rw [probed]
  exact .silent rfl rfl silent

theorem not_sends_expire : ¬ Sends (context.expire peer).2 := by
  refine not_sends fun route message => ?_
  simp only [Context.expire]
  split <;> simp

theorem expire_routed : Routed peer (context.expire peer) :=
  .silent rfl rfl not_sends_expire

theorem initiate_routed : Routed peer (context.initiate draw peer) := by
  simp only [Context.initiate]
  split
  · refine ⟨rfl, rfl, fun route message member => ?_⟩
    obtain member | member := List.mem_cons.mp member
    · cases member
    · exact sendPeerBytes_routed member
  · exact .silent rfl rfl not_sends_nil

theorem encapsulate_routed : Routed peer (context.encapsulate packet peer) := by
  simp only [Context.encapsulate]
  split
  · refine ⟨rfl, rfl, fun route message member => ?_⟩
    obtain member | member := List.mem_cons.mp member
    · cases member
    · exact sendPeerBytes_routed member
  · exact .silent rfl rfl not_sends_nil

theorem rekeyIfDue_routed : Routed peer (context.rekeyIfDue draw peer) := by
  unfold Context.rekeyIfDue
  split
  · exact initiate_routed
  · exact idle_routed

theorem transmit_routed : Routed peer (context.transmit packet draw peer) := by
  unfold Context.transmit
  split
  · split
    · exact initiate_routed
    · exact idle_routed
  · exact rekeyIfDue_routed.andThen encapsulate_routed

theorem sendToPeer_routed : Routed peer (context.sendToPeer packet draw peer) :=
  (probe_routed.andThen expire_routed).andThen transmit_routed

theorem upkeep_routed : Routed peer (context.upkeep draw peer) := by
  unfold Context.upkeep
  split
  · exact idle_routed
  · split
    · exact initiate_routed
    · split
      · exact encapsulate_routed
      · exact idle_routed

theorem maintainPeer_routed : Routed peer (context.maintainPeer draw peer) := by
  unfold Context.maintainPeer
  split
  · exact idle_routed
  · exact expire_routed.andThen upkeep_routed

theorem answer_routed {msg : Bytes} : Routed peer (context.answer msg draw peer) := by
  simp only [Context.answer]
  split
  · refine ⟨rfl, rfl, fun route message member => ?_⟩
    obtain member | member := List.mem_cons.mp member
    · cases member
    · obtain member | member := List.mem_cons.mp member
      · cases member
      · exact sendPeerBytes_routed member
  · exact .silent rfl rfl not_sends_nil

theorem not_sends_consumeResponse {resp : Bytes} :
    ¬ Sends (context.consumeResponse resp peer).2 := by
  refine not_sends fun route message => ?_
  simp only [Context.consumeResponse]
  split <;> simp

theorem consumeResponse_routed {resp : Bytes} : Routed peer (context.consumeResponse resp peer) :=
  .silent rfl rfl not_sends_consumeResponse

theorem not_sends_receive {tunOpen : Bool} {datagram : Bytes} :
    ¬ Sends (context.receive tunOpen datagram peer).2 := by
  refine not_sends fun route message => ?_
  simp only [Context.receive]
  split
  · split <;> simp
  · simp

theorem receive_routed {tunOpen : Bool} {datagram : Bytes} :
    Routed peer (context.receive tunOpen datagram peer) := by
  have kept : (context.receive tunOpen datagram peer).1.path = peer.path ∧
      (context.receive tunOpen datagram peer).1.nodeKeyHex = peer.nodeKeyHex := by
    simp only [Context.receive]
    split <;> exact ⟨rfl, rfl⟩
  exact .silent kept.1 kept.2 not_sends_receive

end Works

/-! ## The work of an event -/

namespace DataPlane

variable (crypto : Crypto) (nodePrivate : Key)

def workFound (plane : DataPlane) (found : Option Nat) (work : ManagedPeer → Outcome) :
    List (ManagedPeer × List Action) :=
  ((found.bind fun position => plane.set.peers[position]?).map fun peer =>
    (peer, (work peer).2)).toList

/-- The peers an event works on, as they are before it, and the actions on each. -/
def works (plane : DataPlane) : Event → List (ManagedPeer × List Action)
  | .tunPacket packet draw =>
      plane.workFound (plane.route packet)
        ((plane.context crypto nodePrivate).sendToPeer packet draw)
  | .tick draws => plane.set.peers.zipIdx.map fun entry =>
      (entry.1, ((plane.context crypto nodePrivate).maintainPeer (draws entry.2) entry.1).2)
  | .datagram bytes draw =>
      let context := plane.context crypto nodePrivate
      if bytes.length < 4 then []
      else if octetAt bytes 0 = 1 ∧ bytes.length = 148 then
        match WGPeer.recoverInitiatorStatic crypto nodePrivate bytes with
        | none => []
        | some peerStatic =>
            plane.workFound (plane.set.find (toHex peerStatic.bytes)) (context.answer bytes draw)
      else if octetAt bytes 0 = 2 ∧ bytes.length = 92 then
        plane.workFound (plane.set.findBySenderIndex (load32Le bytes 8))
          (context.consumeResponse bytes)
      else if octetAt bytes 0 = 4 ∧ 32 ≤ bytes.length then
        plane.workFound (plane.set.findBySenderIndex (load32Le bytes 4))
          (context.receive plane.tunOpen bytes)
      else []
  | _ => []

variable {crypto nodePrivate}

/-- Every message an event sends takes the route of its peer. -/
theorem works_routed {plane : DataPlane} {event : Event} {peer : ManagedPeer}
    {actions : List Action} (worked : (peer, actions) ∈ plane.works crypto nodePrivate event)
    {route : Route} {message : Bytes} (sent : .sent route message ∈ actions) :
    route = routeOf peer := by
  have found {target : Option Nat} {work : ManagedPeer → Outcome}
      (listed : (peer, actions) ∈ plane.workFound target work) (routed : Routed peer (work peer)) :
      route = routeOf peer := by
    simp only [workFound, Option.mem_toList, Option.map_eq_some_iff] at listed
    obtain ⟨_, _, same⟩ := listed
    cases same
    exact routed.sends route message sent
  cases event with
  | tunPacket packet draw => exact found worked sendToPeer_routed
  | tick draws =>
      obtain ⟨entry, _, same⟩ := List.mem_map.mp worked
      cases same
      exact maintainPeer_routed.sends route message sent
  | datagram bytes draw =>
      unfold works at worked
      simp only at worked
      split at worked
      · cases worked
      · split at worked
        · split at worked
          · cases worked
          · exact found worked answer_routed
        · split at worked
          · exact found worked consumeResponse_routed
          · split at worked
            · exact found worked receive_routed
            · cases worked
  | elapse | pong | mapResponse | derp | tun => cases worked

end DataPlane

/-! ## Where paths come from -/

/-- The endpoint of a direct path. -/
def ManagedPeer.direct (peer : ManagedPeer) : Option Bytes :=
  if peer.path.mode = .direct then some peer.path.endpoint else none

/-- Where a datagram to an endpoint goes. -/
def destination (endpoint : Bytes) : Option (Nat × Int) :=
  if endpoint = [] then none
  else do
    let (host, portText) ← splitPort endpoint
    let port := atoi (.ofBytes portText)
    if port ≤ 0 then none
    else return (← inetPton (.ofBytes host), port % 2 ^ 16)

theorem peerSockaddr_eq (peer : ManagedPeer) :
    peerSockaddr peer = peer.direct.bind destination := by
  rw [peerSockaddr, ManagedPeer.direct]
  by_cases direct : peer.path.mode = .direct
  · simp only [direct, if_true, Option.bind_some, destination]
    simp
  · simp [direct]

theorem direct_refresh (peer : ManagedPeer) (entry : NetmapPeer) :
    (peer.refresh entry).direct = peer.direct := by
  have used : peer.path.useDerp.mode = .direct ↔ peer.path.mode = .direct := by
    unfold PeerPath.useDerp
    split
    next none => simp [none]
    next => rfl
  have endpoint : peer.path.useDerp.endpoint = peer.path.endpoint := by
    unfold PeerPath.useDerp
    split <;> rfl
  unfold ManagedPeer.refresh ManagedPeer.direct
  simp only
  split
  · simp only [used, endpoint]
  · rfl

theorem direct_enroll (entry : NetmapPeer) : (ManagedPeer.enroll entry).direct = none := by
  unfold ManagedPeer.enroll
  rw [direct_refresh]
  rfl

theorem direct_upgradePath (endpoint : Bytes) (now : Int) (peer : ManagedPeer) :
    (DataPlane.upgradePath endpoint now peer).1.direct = some endpoint := if_pos rfl

def located (peer : ManagedPeer) : CString × PeerPath := (peer.nodeKeyHex, peer.path)

section Paths

variable {crypto : Crypto} {nodePrivate : Key} {plane next : DataPlane} {event : Event}

/-- What holds of all peers holds of all after work on one of them, when it does of that one. -/
theorem updateFound_each {good : ManagedPeer → Prop} {found : Option Nat}
    {work : ManagedPeer → Outcome}
    (worked : ∀ position ∈ found, ∀ peer, plane.set.peers[position]? = some peer →
      good (work peer).1)
    (every : ∀ peer ∈ plane.set.peers, good peer) :
    ∀ peer ∈ (plane.updateFound found work).set.peers, good peer := by
  cases found with
  | none => exact every
  | some position =>
      rw [DataPlane.updateFound, DataPlane.updatePeer]
      cases stored : plane.set.peers[position]? with
      | none => exact every
      | some old =>
          intro peer member
          obtain member | rfl := List.mem_or_eq_of_mem_set member
          · exact every peer member
          · exact worked position rfl old stored

/-- Work that keeps what is read off a peer keeps it of all peers. -/
theorem updatePeer_view {α : Type} {view : ManagedPeer → α} {position : Nat}
    {work : ManagedPeer → Outcome} (same : ∀ peer, view (work peer).1 = view peer) :
    (plane.updatePeer position work).set.peers.map view = plane.set.peers.map view := by
  unfold DataPlane.updatePeer
  cases stored : plane.set.peers[position]? with
  | none => rfl
  | some peer =>
      obtain ⟨before, after, split, _, replaced⟩ := set_split stored
      dsimp only
      rw [replaced, split, List.map_append, List.map_append, List.map_cons, List.map_cons, same]

theorem updateFound_view {α : Type} {view : ManagedPeer → α} {found : Option Nat}
    {work : ManagedPeer → Outcome} (same : ∀ peer, view (work peer).1 = view peer) :
    (plane.updateFound found work).set.peers.map view = plane.set.peers.map view := by
  cases found with
  | none => rfl
  | some position => exact updatePeer_view same

theorem Routed.located {peer : ManagedPeer} {outcome : Outcome} (routed : Routed peer outcome) :
    located outcome.1 = located peer :=
  Prod.ext routed.name routed.path

/-- Only pongs and netmaps change names and paths. -/
theorem step_located (stepped : plane.step crypto nodePrivate event = some next)
    (other : ∀ sender endpoint, event ≠ .pong sender endpoint)
    (unmapped : ∀ json, event ≠ .mapResponse json) :
    next.set.peers.map located = plane.set.peers.map located := by
  cases event with
  | tunPacket packet draw =>
      cases stepped
      exact updateFound_view fun _ => sendToPeer_routed.located
  | tick draws =>
      cases stepped
      refine walk_invariant (fun current => current.set.peers.map located =
        plane.set.peers.map located) (fun current position peer _ _ _ kept => ?_) rfl _
      exact (updatePeer_view fun _ => maintainPeer_routed.located).trans kept
  | datagram bytes draw =>
      cases stepped
      unfold DataPlane.handleWireGuardPacket
      simp only
      split
      · rfl
      · split
        · split
          · rfl
          · exact updateFound_view fun _ => answer_routed.located
        · split
          · exact updateFound_view fun _ => consumeResponse_routed.located
          · split
            · exact updateFound_view fun _ => receive_routed.located
            · rfl
  | pong sender endpoint => exact absurd rfl (other sender endpoint)
  | mapResponse json => exact absurd rfl (unmapped json)
  | elapse | derp | tun =>
      cases stepped
      rfl

theorem keys_located (peers : List ManagedPeer) :
    TSPeerSet.keys peers = (peers.map located).map Prod.fst := by
  rw [List.map_map]
  rfl

/-- Only netmaps change the names. -/
theorem step_keys (stepped : plane.step crypto nodePrivate event = some next)
    (unmapped : ∀ json, event ≠ .mapResponse json) :
    TSPeerSet.keys next.set.peers = TSPeerSet.keys plane.set.peers := by
  by_cases confirmed : ∃ sender endpoint, event = .pong sender endpoint
  · obtain ⟨sender, endpoint, rfl⟩ := confirmed
    cases stepped
    exact updateFound_view fun _ => rfl
  · rw [keys_located, keys_located, step_located stepped (fun sender endpoint same =>
      confirmed ⟨sender, endpoint, same⟩) unmapped]

/-- After an event other than a pong, a peer has the direct path that the peer of its name had
before, and none when there was no such peer. -/
theorem step_direct (stepped : plane.step crypto nodePrivate event = some next)
    (other : ∀ sender endpoint, event ≠ .pong sender endpoint) {peer : ManagedPeer}
    (member : peer ∈ next.set.peers) :
    (∃ old ∈ plane.set.peers, old.nodeKeyHex = peer.nodeKeyHex ∧ old.direct = peer.direct) ∨
      peer.nodeKeyHex ∉ TSPeerSet.keys plane.set.peers ∧ peer.direct = none := by
  by_cases mapped : ∃ json, event = .mapResponse json
  · obtain ⟨json, rfl⟩ := mapped
    simp only [DataPlane.step, DataPlane.applyMapResponse] at stepped
    split at stepped
    · cases stepped
      exact .inl ⟨peer, member, rfl, rfl⟩
    · obtain ⟨updated, result, rfl⟩ := Option.map_eq_some_iff.mp stepped
      have same (peer : ManagedPeer) (entry : NetmapPeer) :
          ((peer.refresh entry).nodeKeyHex, (peer.refresh entry).direct) =
            (peer.nodeKeyHex, peer.direct) :=
        congrArg (Prod.mk peer.nodeKeyHex) (direct_refresh peer entry)
      obtain ⟨entries, sublist, fresh⟩ :=
        @TSPeerSet.update_views _ (fun peer => (peer.nodeKeyHex, peer.direct)) same _ _ _ _ result
      obtain stored | enrolled := List.mem_append.mp (sublist.subset (List.mem_map_of_mem member))
      · obtain ⟨old, managed, equal⟩ := List.mem_map.mp stored
        exact .inl ⟨old, managed, congrArg Prod.fst equal, congrArg Prod.snd equal⟩
      · obtain ⟨entry, listed, equal⟩ := List.mem_map.mp enrolled
        have name : entry.nodeKey = peer.nodeKeyHex := congrArg Prod.fst equal
        have path : (ManagedPeer.enroll entry).direct = peer.direct := congrArg Prod.snd equal
        exact .inr ⟨name ▸ fresh entry listed, path ▸ direct_enroll entry⟩
  · have kept := step_located stepped other fun json same => mapped ⟨json, same⟩
    have stored : located peer ∈ plane.set.peers.map located :=
      kept ▸ List.mem_map_of_mem member
    obtain ⟨old, managed, equal⟩ := List.mem_map.mp stored
    have path : old.path = peer.path := congrArg Prod.snd equal
    refine .inl ⟨old, managed, congrArg Prod.fst equal, ?_⟩
    rw [ManagedPeer.direct, ManagedPeer.direct, path]

end Paths

end Sotoportego.Tailscale
