import Sotoportego.Tailscale.PeerSetProperties
import Sotoportego.Tailscale.SessionProperties

/-!
# Invariants of the data plane

A property of each peer against the log is kept by every event, once it is kept by the
single actions the event may take. The rule is stated once, for any such property.
-/

set_option autoImplicit false

namespace Sotoportego.Tailscale

open Octets CText
open WireGuard

/-- How a property of log, peer name and session, and one of the log alone, survive the
permitted actions of one peer. -/
structure Ledger (permit : Session → Action → Prop) (now : Int)
    (good : List Entry → CString → Session → Prop) (sound : List Entry → Prop) : Prop where
  own : ∀ log name session action, permit session action → sound log → good log name session →
    sound (log ++ [⟨name, now, action⟩]) ∧
      good (log ++ [⟨name, now, action⟩]) name (session.apply now action)
  other : ∀ log name session entry, entry.peer ≠ name → good log name session →
    good (log ++ [entry]) name session
  idle : ∀ log name session, session.hasKeys = false → good log name session

/-- The property holds of every stored peer and of the log. -/
structure Held (good : List Entry → CString → Session → Prop) (sound : List Entry → Prop)
    (plane : DataPlane) : Prop where
  distinct : (TSPeerSet.keys plane.set.peers).Nodup
  real : ∀ peer ∈ plane.set.peers, peer.wg.testClock = 0
  each : ∀ peer ∈ plane.set.peers, good plane.log peer.nodeKeyHex (session peer.wg)
  sound : sound plane.log

section Rules

variable {permit : Session → Action → Prop} {now : Int}
  {good : List Entry → CString → Session → Prop} {sound : List Entry → Prop}

def entriesOf (name : CString) (now : Int) (actions : List Action) : List Entry :=
  actions.map fun action => ⟨name, now, action⟩

theorem Ledger.own_run (ledger : Ledger permit now good sound) {log : List Entry}
    {name : CString} {session : Session} {actions : List Action}
    (permitted : Run.Along (Session.apply now) permit session actions) (before : sound log)
    (held : good log name session) :
    sound (log ++ entriesOf name now actions) ∧
      good (log ++ entriesOf name now actions) name
        (Run.run (Session.apply now) session actions) := by
  induction actions generalizing log session with
  | nil => simpa [entriesOf] using ⟨before, held⟩
  | cons action actions continued =>
      obtain ⟨next, kept⟩ := ledger.own log name session action permitted.1 before held
      have rest := continued permitted.2 next kept
      simpa [entriesOf] using rest

theorem Ledger.other_run (ledger : Ledger permit now good sound) {log : List Entry}
    {name other : CString} {session : Session} (differs : other ≠ name) (actions : List Action)
    (held : good log name session) :
    good (log ++ entriesOf other now actions) name session := by
  induction actions generalizing log with
  | nil => simpa [entriesOf] using held
  | cons action actions continued =>
      have next := ledger.other log name session ⟨other, now, action⟩ differs held
      simpa [entriesOf] using continued next

theorem set_split {peers : List ManagedPeer} {position : Nat} {peer : ManagedPeer}
    (found : peers[position]? = some peer) :
    ∃ before after, peers = before ++ peer :: after ∧ before.length = position ∧
      ∀ next, peers.set position next = before ++ next :: after := by
  obtain ⟨inside, same⟩ := List.getElem?_eq_some_iff.mp found
  refine ⟨peers.take position, peers.drop (position + 1), ?_, by simp; omega, fun next => ?_⟩
  · rw [← same, List.cons_getElem_drop_succ, List.take_append_drop]
  · exact List.set_eq_take_append_cons_drop.trans (if_pos inside)

private theorem mem_middle {α : Type} {value entry : α} {before after : List α} :
    value ∈ before ++ entry :: after ↔ value = entry ∨ value ∈ before ++ after := by
  simp only [List.mem_append, List.mem_cons]
  tauto

theorem distinct_names {before after : List ManagedPeer} {peer : ManagedPeer}
    (distinct : (TSPeerSet.keys (before ++ peer :: after)).Nodup) :
    ∀ other ∈ before ++ after, peer.nodeKeyHex ≠ other.nodeKeyHex := by
  intro other member same
  simp only [TSPeerSet.keys, List.map_append, List.map_cons] at distinct
  have fresh := (List.nodup_cons.mp (List.nodup_middle.mp distinct)).1
  rw [← List.map_append] at fresh
  exact fresh (List.mem_map.mpr ⟨other, member, same.symm⟩)

theorem held_updatePeer {plane : DataPlane} {position : Nat} {peer : ManagedPeer}
    {work : ManagedPeer → Outcome} (ledger : Ledger permit plane.clock good sound)
    (held : Held good sound plane) (found : plane.set.peers[position]? = some peer)
    (follows : Follows permit plane.clock peer (work peer)) :
    Held good sound (plane.updatePeer position work) := by
  obtain ⟨before, after, split, _, replaced⟩ := set_split found
  have member : peer ∈ plane.set.peers := List.mem_of_getElem? found
  obtain ⟨kept, own⟩ := ledger.own_run follows.permitted held.sound (held.each peer member)
  rw [follows.reached] at own
  have differs := distinct_names (split ▸ held.distinct)
  simp only [DataPlane.updatePeer, found, replaced]
  constructor
  · have names : TSPeerSet.keys (before ++ (work peer).1 :: after) =
        TSPeerSet.keys plane.set.peers := by
      rw [split]
      simp [TSPeerSet.keys, follows.name]
    rw [names]
    exact held.distinct
  · intro other listed
    obtain rfl | elsewhere := mem_middle.mp listed
    · exact follows.clock.trans (held.real peer member)
    · exact held.real other (split ▸ mem_middle.mpr (.inr elsewhere))
  · intro other listed
    obtain rfl | elsewhere := mem_middle.mp listed
    · rw [follows.name]
      exact own
    · have stored : other ∈ plane.set.peers := split ▸ mem_middle.mpr (.inr elsewhere)
      exact ledger.other_run (differs other elsewhere) _ (held.each other stored)
  · exact kept

theorem updateFound_invariant (invariant : DataPlane → Prop) {plane : DataPlane}
    {found : Option Nat} {work : ManagedPeer → Outcome}
    (each : ∀ position ∈ found, ∀ peer, plane.set.peers[position]? = some peer →
      invariant (plane.updatePeer position work))
    (initial : invariant plane) : invariant (plane.updateFound found work) := by
  cases found with
  | none => exact initial
  | some position =>
      cases stored : plane.set.peers[position]? with
      | none => simpa [DataPlane.updateFound, DataPlane.updatePeer, stored] using initial
      | some peer => exact each position rfl peer stored

/-- The walk over the positions reaches each peer as it was before the walk. -/
theorem walk_invariant (invariant : DataPlane → Prop) {plane : DataPlane}
    {work : Nat → ManagedPeer → Outcome}
    (each : ∀ current position peer, current.clock = plane.clock →
      plane.set.peers[position]? = some peer → current.set.peers[position]? = some peer →
      invariant current → invariant (current.updatePeer position (work position)))
    (initial : invariant plane) (count : Nat) :
    invariant ((List.range count).foldl
      (fun current position => current.updatePeer position (work position)) plane) := by
  suffices walked : ∀ current, current = (List.range count).foldl
      (fun current position => current.updatePeer position (work position)) plane →
      invariant current ∧ current.clock = plane.clock ∧
        ∀ position, count ≤ position →
          current.set.peers[position]? = plane.set.peers[position]? from (walked _ rfl).1
  induction count with
  | zero =>
      rintro current rfl
      exact ⟨initial, rfl, fun _ _ => rfl⟩
  | succ count continued =>
      rintro current rfl
      rw [List.range_succ, List.foldl_append]
      obtain ⟨kept, clock, beyond⟩ := continued _ rfl
      generalize (List.range count).foldl
        (fun current position => current.updatePeer position (work position)) plane = middle
        at kept clock beyond ⊢
      simp only [List.foldl_cons, List.foldl_nil]
      cases stored : middle.set.peers[count]? with
      | none =>
          have same : middle.updatePeer count (work count) = middle := by
            simp [DataPlane.updatePeer, stored]
          rw [same]
          exact ⟨kept, clock, fun position later => beyond position (by omega)⟩
      | some peer =>
          have original := (beyond count (Nat.le_refl _)).symm.trans stored
          refine ⟨each middle count peer clock original stored kept, ?_, fun position later => ?_⟩
          · simpa [DataPlane.updatePeer, stored] using clock
          · have differs : count ≠ position := by omega
            simpa [DataPlane.updatePeer, stored, List.getElem?_set_ne differs] using
              beyond position (by omega)

theorem held_update {plane : DataPlane} {netmap : TSNetmap} {set : TSPeerSet}
    {counts : TSPeerSet.Counts} (ledger : Ledger permit now good sound)
    (held : Held good sound plane) (updated : plane.set.update netmap = some (set, counts)) :
    Held good sound { plane with netmap, set } := by
  have spec := TSPeerSet.update_spec plane.set netmap
  rw [updated] at spec
  obtain ⟨added, kept, fresh⟩ := TSPeerSet.update_identities updated
  have origin : ∀ peer ∈ set.peers, TSPeerSet.Unstarted (TSPeerSet.identity peer) ∨
      ∃ old ∈ plane.set.peers, TSPeerSet.identity old = TSPeerSet.identity peer := by
    intro peer member
    have listed := kept.subset (List.mem_map_of_mem member)
    obtain listed | listed := List.mem_append.mp listed
    · exact .inr (List.mem_map.mp listed)
    · exact .inl (fresh _ listed)
  refine ⟨spec.1.1, fun peer member => ?_, fun peer member => ?_, held.sound⟩
  · obtain ⟨nodeKey, same⟩ | ⟨old, stored, same⟩ := origin peer member
    · exact congrArg WGPeer.testClock same
    · exact (congrArg (WGPeer.testClock ∘ Prod.snd) same).symm.trans (held.real old stored)
  · obtain ⟨nodeKey, same⟩ | ⟨old, stored, same⟩ := origin peer member
    · exact ledger.idle _ _ _ (congrArg WGPeer.hasKeys same)
    · have name : old.nodeKeyHex = peer.nodeKeyHex := congrArg Prod.fst same
      have kept : session old.wg = session peer.wg := congrArg (session ∘ Prod.snd) same
      rw [← name, ← kept]
      exact held.each old stored

/-- What an event may ask of its peers for every action it takes to be permitted. -/
def Admissible (permit : Session → Action → Prop) (plane : DataPlane) : Event → Prop
  | .tunPacket packet draw => ∀ position ∈ plane.route packet, ∀ peer,
      plane.set.peers[position]? = some peer → Maintains permit plane.clock draw peer ∧
        ∀ session : Session, session.hasKeys = false → ∀ index ∈ draw.index,
          permit session (.initiated index)
  | .tick draws => ∀ position peer, plane.set.peers[position]? = some peer →
      Maintains permit plane.clock (draws position) peer
  | .datagram bytes draw => Lenient permit ∧
      (octetAt bytes 0 = 1 → ∀ session : Session, ∀ index ∈ draw.index, ∀ sendKey recvKey,
        permit session (.installed index sendKey recvKey)) ∧
      (∀ session : Session, session.index ≠ 0 → ∀ sendKey recvKey,
        permit session (.installed session.index sendKey recvKey)) ∧
      (octetAt bytes 0 = 4 → ∀ position ∈ plane.set.findBySenderIndex (load32Le bytes 4), ∀ peer,
        plane.set.peers[position]? = some peer → peer.wg.hasKeys = true → ∀ packet,
          permit (session peer.wg) (.delivered peer.wg.recvKey packet))
  | _ => True

theorem findBySenderIndex_some {set : TSPeerSet} {index : UInt32} {position : Nat}
    {peer : ManagedPeer} (found : set.findBySenderIndex index = some position)
    (stored : set.peers[position]? = some peer) :
    index ≠ 0 ∧ peer.wg.senderIndex = index := by
  unfold TSPeerSet.findBySenderIndex at found
  split at found
  · cases found
  · next nonzero =>
    obtain ⟨inside, same, _⟩ := List.findIdx?_eq_some_iff_getElem.mp found
    rw [List.getElem?_eq_getElem inside] at stored
    cases stored
    exact ⟨nonzero, of_decide_eq_true same⟩

/-- An invariant survives an event when it survives the permitted work on one peer, a change
of the peer list by a netmap, and changes that leave peers and log alone. -/
theorem step_invariant (invariant : DataPlane → Prop) {plane next : DataPlane} {crypto : Crypto}
    {nodePrivate : Key} {event : Event} (admissible : Admissible permit plane event)
    (real : ∀ peer ∈ plane.set.peers, peer.wg.testClock = 0)
    (stepped : plane.step crypto nodePrivate event = some next)
    (work : ∀ current position peer work, current.clock = plane.clock →
      ((∀ draws, event ≠ .tick draws) → current = plane) →
      current.set.peers[position]? = some peer → Follows permit plane.clock peer (work peer) →
      invariant current → invariant (current.updatePeer position work))
    (reconciled : ∀ netmap set counts, plane.set.update netmap = some (set, counts) →
      invariant { plane with netmap, set })
    (frame : ∀ changed : DataPlane, changed.set = plane.set → changed.log = plane.log →
      invariant changed)
    : invariant next := by
  have initial : invariant plane := frame plane rfl rfl
  have found {target : Option Nat} {act : ManagedPeer → Outcome}
      (follows : ∀ position ∈ target, ∀ peer, plane.set.peers[position]? = some peer →
        Follows permit plane.clock peer (act peer)) : invariant (plane.updateFound target act) :=
    updateFound_invariant invariant (fun position listed peer stored =>
      work plane position peer act rfl (fun _ => rfl) stored (follows position listed peer stored)
        initial) initial
  have clockless {position : Nat} {peer : ManagedPeer}
      (stored : plane.set.peers[position]? = some peer) : peer.wg.testClock = 0 :=
    real peer (List.mem_of_getElem? stored)
  cases event with
  | elapse micros =>
      cases stepped
      exact frame _ rfl rfl
  | tunPacket packet draw =>
      cases stepped
      apply found
      intro position routed peer stored
      obtain ⟨maintains, start⟩ := admissible position routed peer stored
      exact sendToPeer_follows (plane.context crypto nodePrivate) maintains start
  | tick draws =>
      cases stepped
      refine walk_invariant invariant (fun current position peer clock original stored kept => ?_)
        initial _
      exact work current position peer _ clock (fun other => absurd rfl (other draws)) stored
        (maintainPeer_follows (plane.context crypto nodePrivate) (admissible position peer original))
        kept
  | datagram bytes draw =>
      cases stepped
      obtain ⟨lenient, answering, completing, receiving⟩ := admissible
      unfold DataPlane.handleWireGuardPacket
      simp only
      split
      · exact initial
      · split
        · next type =>
          split
          · exact initial
          · apply found
            intro position _ peer stored
            exact answer_follows (plane.context crypto nodePrivate) lenient (clockless stored)
              (answering type.1 _)
        · split
          · apply found
            intro position listed peer stored
            obtain ⟨nonzero, same⟩ := findBySenderIndex_some listed stored
            exact consumeResponse_follows (plane.context crypto nodePrivate) lenient
              (clockless stored) (completing (session peer.wg) (same.trans_ne nonzero))
          · split
            · next type =>
              apply found
              intro position listed peer stored
              exact receive_follows (plane.context crypto nodePrivate) lenient
                (receiving type.1 position listed peer stored)
            · exact initial
  | pong sender endpoint =>
      cases stepped
      apply found
      intro position _ peer _
      exact .idle rfl rfl rfl
  | mapResponse json =>
      simp only [DataPlane.step, DataPlane.applyMapResponse] at stepped
      split at stepped
      · cases stepped
        exact initial
      · obtain ⟨updated, result, same⟩ := Option.map_eq_some_iff.mp stepped
        cases same
        exact reconciled _ _ _ result
  | derp up =>
      cases stepped
      exact frame _ rfl rfl
  | tun isOpen =>
      cases stepped
      exact frame _ rfl rfl

/-- One event keeps the property, when every action it takes is permitted. -/
theorem held_step {plane next : DataPlane} {crypto : Crypto} {nodePrivate : Key} {event : Event}
    (ledger : Ledger permit plane.clock good sound) (admissible : Admissible permit plane event)
    (stepped : plane.step crypto nodePrivate event = some next) (held : Held good sound plane) :
    Held good sound next := by
  refine step_invariant _ admissible held.real stepped ?_ ?_ ?_
  · intro current position peer work clock _ stored follows kept
    exact held_updatePeer (clock ▸ ledger) kept stored (clock ▸ follows)
  · intro netmap set counts updated
    exact held_update ledger held updated
  · rintro ⟨_, _, _, _, _, _⟩ rfl rfl
    exact ⟨held.distinct, held.real, held.each, held.sound⟩

/-- A session starts without peers, at any time of day. -/
theorem held_start (initial : sound []) (clock : Int) : Held good sound { clock } :=
  ⟨by simp [TSPeerSet.keys], by simp, by simp, initial⟩

end Rules

/-! ## Installed keys -/

structure Install where
  index : UInt32
  sendKey : Key
  recvKey : Key
  time : Int
  deriving DecidableEq

def recordInstall (name : CString) (held : Option Install) (entry : Entry) : Option Install :=
  if entry.peer = name then
    match entry.action with
    | .installed index sendKey recvKey => some ⟨index, sendKey, recvKey, entry.time⟩
    | _ => held
  else held

/-- The keys installed last for a peer. -/
def lastInstall (name : CString) (log : List Entry) : Option Install :=
  log.foldl (recordInstall name) none

theorem lastInstall_concat (name : CString) (log : List Entry) (entry : Entry) :
    lastInstall name (log ++ [entry]) = recordInstall name (lastInstall name log) entry := by
  rw [lastInstall, List.foldl_append]
  rfl

theorem lastInstall_kept {entry : Entry}
    (kept : ∀ index sendKey recvKey, entry.action ≠ .installed index sendKey recvKey)
    (name : CString) (log : List Entry) :
    lastInstall name (log ++ [entry]) = lastInstall name log := by
  rw [lastInstall_concat, recordInstall]
  split
  · split
    · next installed => exact absurd installed (kept _ _ _)
    · rfl
  · rfl

theorem lastInstall_installed (name : CString) (log : List Entry) (now : Int) (index : UInt32)
    (sendKey recvKey : Key) :
    lastInstall name (log ++ [⟨name, now, .installed index sendKey recvKey⟩]) =
      some ⟨index, sendKey, recvKey, now⟩ := by
  rw [lastInstall_concat, recordInstall, if_pos rfl]

theorem lastInstall_other {name : CString} {entry : Entry} (differs : entry.peer ≠ name)
    (log : List Entry) : lastInstall name (log ++ [entry]) = lastInstall name log := by
  rw [lastInstall_concat, recordInstall, if_neg differs]

end Sotoportego.Tailscale
