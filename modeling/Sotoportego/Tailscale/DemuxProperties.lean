import Sotoportego.Tailscale.LifetimeProperties
import Sotoportego.WireGuard.ChannelProperties

/-!
# Inbound packets find their keys

One field of a peer is both the index of its keys and the index of the handshake under
way. As long as no handshake starts towards a peer that has keys, the index under which keys
were installed leads back to their peer.
-/

set_option autoImplicit false

namespace Sotoportego.Tailscale

open Octets CText
open WireGuard

/-- The keys of the session were installed last, under the index it still has. -/
def Indexed (log : List Entry) (name : CString) (session : Session) : Prop :=
  session.hasKeys = true → session.index ≠ 0 ∧
    ∃ install, lastInstall name log = some install ∧ install.index = session.index ∧
      install.recvKey = session.recvKey

/-- No handshake starts while there are keys, and every index is the present one or drawn. -/
def Calm (drawn : UInt32 → Prop) (session : Session) : Action → Prop
  | .initiated index => session.hasKeys = false ∧ drawn index
  | .installed index _ _ => index ≠ 0 ∧ (index = session.index ∨ drawn index)
  | _ => True

section Calm

variable {drawn : UInt32 → Prop}

theorem calm_lenient : Lenient (Calm drawn) := by
  intro session action unrestricted
  cases action with
  | initiated index => simp [Action.Plain] at unrestricted
  | installed index sendKey recvKey => simp [Action.Plain] at unrestricted
  | _ => trivial

theorem indexed_concat {log : List Entry} {name : CString} {session : Session} {now : Int}
    {action : Action} (calm : Calm drawn session action) (indexed : Indexed log name session) :
    Indexed (log ++ [⟨name, now, action⟩]) name (session.apply now action) := by
  intro live
  cases action with
  | expired => cases live
  | initiated index =>
      have dropped : session.hasKeys = false := calm.1
      exact absurd (dropped.symm.trans live) (by decide)
  | installed index sendKey recvKey =>
      exact ⟨calm.1, _, lastInstall_installed name log now index sendKey recvKey, rfl, rfl⟩
  | _ =>
      rw [lastInstall_kept (by simp)]
      exact indexed live

theorem calm_ledger (now : Int) : Ledger (Calm drawn) now Indexed (fun _ => True) where
  own _ _ _ _ calm _ indexed := ⟨trivial, indexed_concat calm indexed⟩
  other log name session entry differs indexed := by
    intro live
    rw [lastInstall_other differs]
    exact indexed live
  idle _ _ _ idle live := by
    rw [idle] at live
    cases live

/-- Calm work leaves the index as it was, or drawn. -/
theorem calm_index {now : Int} {session : Session} {actions : List Action}
    (calm : Run.Along (Session.apply now) (Calm drawn) session actions) :
    (Run.run (Session.apply now) session actions).index = session.index ∨
      drawn (Run.run (Session.apply now) session actions).index := by
  induction actions generalizing session with
  | nil => exact .inl rfl
  | cons action actions continued =>
      obtain unchanged | fresh := continued calm.2
      · rw [Run.run_cons, unchanged]
        have first := calm.1
        cases action with
        | initiated index => exact .inr first.2
        | installed index sendKey recvKey => exact first.2
        | _ => exact .inl rfl
      · exact .inr fresh

end Calm

/-! ## Indices apart -/

/-- The indices in use. -/
def indices (peers : List ManagedPeer) : List UInt32 :=
  (peers.map fun peer => peer.wg.senderIndex).filter (· ≠ 0)

def Unused (peers : List ManagedPeer) (index : UInt32) : Prop :=
  index ≠ 0 ∧ ∀ peer ∈ peers, peer.wg.senderIndex ≠ index

theorem indices_middle (before after : List ManagedPeer) (peer : ManagedPeer) :
    indices (before ++ peer :: after) =
      indices before ++ (if peer.wg.senderIndex ≠ 0 then [peer.wg.senderIndex] else []) ++
        indices after := by
  by_cases pending : peer.wg.senderIndex ≠ 0 <;> simp [indices, pending]

theorem mem_indices {peers : List ManagedPeer} {index : UInt32} :
    index ∈ indices peers ↔ index ≠ 0 ∧ ∃ peer ∈ peers, peer.wg.senderIndex = index := by
  simp [indices, and_comm]

/-- A peer may take an index that no peer uses. -/
theorem apart_replace {before after : List ManagedPeer} {peer next : ManagedPeer}
    (apart : (indices (before ++ peer :: after)).Nodup)
    (index : next.wg.senderIndex = peer.wg.senderIndex ∨
      Unused (before ++ peer :: after) next.wg.senderIndex) :
    (indices (before ++ next :: after)).Nodup := by
  obtain same | ⟨nonzero, unused⟩ := index
  · simpa [indices, same] using apart
  · rw [indices_middle] at apart ⊢
    rw [if_pos nonzero]
    have others : (indices before ++ indices after).Nodup := by
      refine apart.sublist (List.Sublist.append ?_ (List.Sublist.refl _))
      exact List.sublist_append_left _ _
    simp only [List.append_assoc, List.singleton_append]
    refine List.nodup_middle.mpr (List.nodup_cons.mpr ⟨fun member => ?_, others⟩)
    have elsewhere : ∃ other ∈ before ++ after, other.wg.senderIndex = next.wg.senderIndex := by
      obtain member | member := List.mem_append.mp member
      · obtain ⟨_, other, listed, same⟩ := mem_indices.mp member
        exact ⟨other, List.mem_append_left _ listed, same⟩
      · obtain ⟨_, other, listed, same⟩ := mem_indices.mp member
        exact ⟨other, List.mem_append_right _ listed, same⟩
    obtain ⟨other, listed, same⟩ := elsewhere
    exact unused other (by simp at listed ⊢; tauto) same

/-- An index in use leads to the only peer that has it. -/
theorem findBySenderIndex_apart {set : TSPeerSet} {position : Nat} {peer : ManagedPeer}
    (apart : (indices set.peers).Nodup) (stored : set.peers[position]? = some peer)
    (nonzero : peer.wg.senderIndex ≠ 0) :
    set.findBySenderIndex peer.wg.senderIndex = some position := by
  obtain ⟨before, after, split, length, _⟩ := set_split stored
  rw [split, indices_middle, if_pos nonzero] at apart
  have absent : ∀ other ∈ before, other.wg.senderIndex ≠ peer.wg.senderIndex := by
    intro other listed same
    have used : peer.wg.senderIndex ∈ indices before := mem_indices.mpr ⟨nonzero, other, listed, same⟩
    have separate := List.disjoint_of_nodup_append (List.nodup_append.mp apart).1
    exact separate used (List.mem_singleton_self _)
  rw [TSPeerSet.findBySenderIndex, if_neg nonzero, split, List.findIdx?_append,
    List.findIdx?_eq_none_iff.mpr (by simpa using absent)]
  simp [List.findIdx?_cons, length]

/-! ## Undisturbed runs -/

instance (now : Int) (peer : ManagedPeer) : Decidable (RekeyDue now peer) :=
  inferInstanceAs (Decidable (_ ∧ _))

instance (peers : List ManagedPeer) (index : UInt32) : Decidable (Unused peers index) :=
  inferInstanceAs (Decidable (_ ∧ _))

/-- No peer with keys is due for a rekey when it is sent to or looked after, and the indices
drawn are not in use. -/
def Undisturbed (plane : DataPlane) : Event → Prop
  | .tunPacket packet draw => ∀ position ∈ plane.route packet,
      ∀ peer ∈ plane.set.peers[position]?, ∀ index ∈ draw.index,
        ¬ RekeyDue plane.clock peer ∧ Unused plane.set.peers index
  | .tick draws => ∀ position < plane.set.peers.length,
      ∀ peer ∈ plane.set.peers[position]?, ∀ _ ∈ (draws position).index,
        ¬ RekeyDue plane.clock peer
  | .datagram bytes draw =>
      octetAt bytes 0 = 1 → ∀ index ∈ draw.index, Unused plane.set.peers index
  | _ => True

instance (plane : DataPlane) : ∀ event, Decidable (Undisturbed plane event)
  | .tunPacket packet _ => inferInstanceAs (Decidable (∀ position ∈ plane.route packet,
      ∀ peer ∈ plane.set.peers[position]?, ∀ index ∈ _, _ ∧ _))
  | .tick draws => inferInstanceAs (Decidable (∀ position < plane.set.peers.length,
      ∀ peer ∈ plane.set.peers[position]?, ∀ index ∈ (draws position).index, _))
  | .datagram bytes _ =>
      inferInstanceAs (Decidable (octetAt bytes 0 = 1 → ∀ index ∈ _, Unused _ index))
  | .elapse _ | .pong _ _ | .mapResponse _ | .derp _ | .tun _ =>
      inferInstanceAs (Decidable True)

/-- The indices an event may give to a peer. The tick gives none. -/
def drawnBy (plane : DataPlane) : Event → UInt32 → Prop
  | .tick _, _ => False
  | _, index => Unused plane.set.peers index

theorem calm_admissible {plane : DataPlane} {event : Event}
    (undisturbed : Undisturbed plane event) :
    Admissible (Calm (drawnBy plane event)) plane event := by
  cases event with
  | tunPacket packet draw =>
      intro position routed peer stored
      have calm := undisturbed position routed peer stored
      refine ⟨⟨calm_lenient, fun due index drawn => ?_, fun _ _ _ => trivial⟩, ?_⟩
      · exact absurd due (calm index drawn).1
      · intro session dropped index drawn
        exact ⟨dropped, (calm index drawn).2⟩
  | tick draws =>
      intro position peer stored
      have inside := (List.getElem?_eq_some_iff.mp stored).1
      have calm := undisturbed position inside peer stored
      exact ⟨calm_lenient, fun due index drawn => absurd due (calm index drawn), fun _ _ _ => trivial⟩
  | datagram bytes draw =>
      refine ⟨calm_lenient, fun type session index drawn _ _ => ?_,
        fun session nonzero _ _ => ⟨nonzero, .inl rfl⟩, fun _ _ _ _ _ _ _ => trivial⟩
      have unused := undisturbed type index drawn
      exact ⟨unused.1, .inr unused⟩
  | _ => trivial

/-- Everything stored is reachable under its index. -/
structure Demultiplexed (plane : DataPlane) : Prop where
  held : Held Indexed (fun _ => True) plane
  apart : (indices plane.set.peers).Nodup

theorem indices_update {set result : TSPeerSet} {netmap : TSNetmap} {counts : TSPeerSet.Counts}
    (updated : set.update netmap = some (result, counts)) :
    (indices result.peers).Sublist (indices set.peers) := by
  obtain ⟨added, kept, fresh⟩ := TSPeerSet.update_identities updated
  have read (peers : List ManagedPeer) : indices peers =
      ((peers.map TSPeerSet.identity).map fun entry => entry.2.senderIndex).filter (· ≠ 0) := by
    rw [indices, List.map_map]
    rfl
  have idle : (added.map fun entry => entry.2.senderIndex).filter (· ≠ 0) = [] := by
    rw [List.filter_eq_nil_iff]
    intro index member
    obtain ⟨entry, listed, rfl⟩ := List.mem_map.mp member
    obtain ⟨nodeKey, same⟩ := fresh entry listed
    rw [same]
    simp [WGPeer.setNodeKey]
  have shorter := (kept.map fun entry => entry.2.senderIndex).filter (· ≠ 0)
  rw [List.map_append, List.filter_append, idle, List.append_nil] at shorter
  rw [read, read]
  exact shorter

theorem demultiplexed_step {plane next : DataPlane} {crypto : Crypto} {nodePrivate : Key}
    {event : Event} (undisturbed : Undisturbed plane event)
    (stepped : plane.step crypto nodePrivate event = some next)
    (before : Demultiplexed plane) : Demultiplexed next := by
  have admissible := calm_admissible undisturbed
  refine ⟨held_step (calm_ledger plane.clock) admissible stepped before.held, ?_⟩
  refine step_invariant (fun plane => (indices plane.set.peers).Nodup) admissible
    before.held.real stepped ?_ ?_ ?_
  · intro current position peer work _ only stored follows apart
    obtain ⟨front, back, split, _, replaced⟩ := set_split stored
    simp only [DataPlane.updatePeer, stored, replaced]
    have index := calm_index follows.permitted
    rw [follows.reached] at index
    rw [split] at apart
    refine apart_replace apart (index.imp id fun drawn => ?_)
    cases event with
    | tick draws => exact absurd drawn id
    | _ =>
        have same : current = plane := only (by simp)
        rw [← split, same]
        exact drawn
  · intro netmap set counts updated
    exact before.apart.sublist (indices_update updated)
  · intro changed same _
    rw [same]
    exact before.apart

theorem demultiplexed_start (clock : Int) : Demultiplexed { clock } :=
  ⟨held_start trivial clock, by simp [indices]⟩

/-- The index of the keys leads to the peer, and a packet sealed under them that is addressed
to it is opened and delivered. -/
def FoundByIndex (crypto : Crypto) (nodePrivate : Key) (plane : DataPlane) (position : Nat)
    (peer : ManagedPeer) : Prop :=
  ∃ install, lastInstall peer.nodeKeyHex plane.log = some install ∧
    plane.set.findBySenderIndex install.index = some position ∧
    ∀ counter packet datagram draw, Payload packet →
      WGPeer.Sealed crypto install.recvKey counter packet datagram →
      load32Le datagram 4 = install.index → (peer.wg.replay.validate counter).2 = true →
      (peer.wg.decapsulate crypto datagram).2 = some packet ∧
        (plane.handleWireGuardPacket crypto nodePrivate datagram draw).log = plane.log ++
          if packet ≠ [] ∧ plane.tunOpen = true then
            [⟨peer.nodeKeyHex, plane.clock, .delivered install.recvKey packet⟩]
          else []

theorem handle_sealed {crypto : Crypto} (lawful : crypto.Lawful) (nodePrivate : Key)
    {plane : DataPlane} {position : Nat} {peer : ManagedPeer} {counter : UInt64}
    {packet datagram : Bytes} (draw : Draw) (stored : plane.set.peers[position]? = some peer)
    (genuine : WGPeer.Sealed crypto peer.wg.recvKey counter packet datagram)
    (addressed : plane.set.findBySenderIndex (load32Le datagram 4) = some position)
    (opened : (peer.wg.decapsulate crypto datagram).2 = some packet) :
    (plane.handleWireGuardPacket crypto nodePrivate datagram draw).log = plane.log ++
      if packet ≠ [] ∧ plane.tunOpen = true then
        [⟨peer.nodeKeyHex, plane.clock, .delivered peer.wg.recvKey packet⟩]
      else [] := by
  obtain ⟨type, long⟩ := genuine.shape lawful
  unfold DataPlane.handleWireGuardPacket
  simp only [type]
  rw [if_neg (by omega), if_neg (by simp), if_neg (by simp), if_pos ⟨trivial, long⟩, addressed]
  simp only [DataPlane.updateFound, DataPlane.updatePeer, DataPlane.context, stored,
    Context.receive, opened]
  split
  · rfl
  · rfl

/-- In an undisturbed run every peer with keys is found under the index they were installed
with. -/
theorem live_keys_found {crypto : Crypto} (lawful : crypto.Lawful) (nodePrivate : Key)
    (clock : Int) (events : List Event)
    (undisturbed : Run.AlongPartial (DataPlane.step crypto nodePrivate) Undisturbed { clock } events)
    (plane : DataPlane) (reached : DataPlane.run crypto nodePrivate { clock } events = some plane)
    (position : Nat) (peer : ManagedPeer) (stored : plane.set.peers[position]? = some peer)
    (live : peer.wg.hasKeys = true) : FoundByIndex crypto nodePrivate plane position peer := by
  have demultiplexed : Demultiplexed plane :=
    Run.invariant_partial (fun _ _ _ allowed stepped before =>
      demultiplexed_step allowed stepped before) undisturbed reached (demultiplexed_start clock)
  have member : peer ∈ plane.set.peers := List.mem_of_getElem? stored
  obtain ⟨nonzero, install, found, index, key⟩ := demultiplexed.held.each peer member live
  have leads := findBySenderIndex_apart demultiplexed.apart stored nonzero
  change install.index = peer.wg.senderIndex at index
  change install.recvKey = peer.wg.recvKey at key
  refine ⟨install, found, index ▸ leads, ?_⟩
  intro counter packet datagram draw payload genuine addressed fresh
  rw [key] at genuine ⊢
  have opened := (WGPeer.decapsulate_sealed lawful live payload genuine).1
  rw [if_pos fresh] at opened
  refine ⟨opened, handle_sealed lawful nodePrivate draw stored genuine ?_ opened⟩
  rw [addressed, index]
  exact leads

/-! ## A rekey that hides the live keys -/

/-- The first stored peer, when it has keys. -/
def firstLive (plane : DataPlane) : Option ManagedPeer :=
  plane.set.peers[0]?.filter fun peer => peer.wg.hasKeys

theorem live_keys_found_sample :
    ∃ plane peer, Sample.plane [.elapse 60000000, .tick fun _ => Transparent.draw 5 9 0] = some plane ∧
      plane.set.peers[0]? = some peer ∧ peer.wg.hasKeys = true ∧
      FoundByIndex Transparent.crypto (Transparent.pair 1).priv plane 0 peer := by
  have defined : ((Sample.plane [.elapse 60000000, .tick fun _ => Transparent.draw 5 9 0]).bind
      firstLive).isSome = true := by
    decide +kernel
  obtain ⟨peer, found⟩ := Option.isSome_iff_exists.mp defined
  obtain ⟨plane, reached, first⟩ := Option.bind_eq_some_iff.mp found
  obtain ⟨stored, live⟩ := Option.filter_eq_some_iff.mp first
  exact ⟨plane, peer, reached, stored, live, live_keys_found Transparent.lawful _ _ _
    (by decide +kernel) plane reached 0 peer stored live⟩

/-- The first peer has keys, but the index they were installed under does not lead to it. -/
def hidden (plane : DataPlane) : Bool :=
  (firstLive plane).any fun peer => (lastInstall peer.nodeKeyHex plane.log).all fun install =>
    plane.set.findBySenderIndex install.index ≠ some 0

/-- Two minutes after the installation the tick starts a new handshake. The keys stay in use,
but their index is gone. -/
theorem rekey_hides_keys :
    ¬ ∀ (events : List Event) (plane : DataPlane) (position : Nat) (peer : ManagedPeer),
      DataPlane.run Transparent.crypto (Transparent.pair 1).priv { clock := 1 } events =
        some plane → plane.set.peers[position]? = some peer → peer.wg.hasKeys = true →
      FoundByIndex Transparent.crypto (Transparent.pair 1).priv plane position peer := by
  intro claim
  have lost : (Sample.plane [.elapse 120000001, .tick fun _ => Transparent.draw 5 9 0]).any
      hidden = true := by
    decide +kernel
  obtain ⟨plane, reached, lost⟩ := (Option.any_eq_true _ _).mp lost
  obtain ⟨peer, first, gone⟩ := (Option.any_eq_true _ _).mp lost
  obtain ⟨stored, live⟩ := Option.filter_eq_some_iff.mp first
  obtain ⟨install, found, leads, _⟩ := claim _ plane 0 peer reached stored live
  rw [found] at gone
  simp [leads] at gone

end Sotoportego.Tailscale
