import Mathlib.Data.Finset.Card
import Sotoportego.Lib.Reconciler
import Sotoportego.Tailscale.PeerSetProperties

/-!
# What a reconciliation keeps

With distinct keys on both sides, `Update` reconciles the peers with the usable entries of
the map, and counts the differences. Sessions, timers and direct paths stay with their peers.
-/

set_option autoImplicit false

namespace Sotoportego.Tailscale.TSPeerSet

open Octets CText

theorem useDerp_again (path : PeerPath) : path.useDerp.useDerp = path.useDerp := by
  unfold PeerPath.useDerp
  split
  · rfl
  · rfl

theorem refresh_again (peer : ManagedPeer) (listed : NetmapPeer) :
    (peer.refresh listed).refresh listed = peer.refresh listed := by
  unfold ManagedPeer.refresh
  split
  · rw [useDerp_again]
  · rfl

/-- Peers and map entries, matched by node key. -/
def reconciler : Reconciler ManagedPeer NetmapPeer CString where
  rowKey := ManagedPeer.nodeKeyHex
  itemKey := NetmapPeer.nodeKey
  refresh := ManagedPeer.refresh
  create := ManagedPeer.enroll
  rowKey_refresh _ _ := rfl
  rowKey_create _ := rfl
  refresh_again := refresh_again
  refresh_create listed := refresh_again _ listed

/-- The entries with a node key. -/
def usable (listed : List NetmapPeer) : List NetmapPeer :=
  listed.filter fun entry => entry.nodeKey ≠ .empty

theorem itemKeys_usable (listed : List NetmapPeer) :
    reconciler.itemKeys (usable listed) = listedKeys listed := by
  rw [Reconciler.itemKeys, usable, listedKeys, List.filter_map]
  rfl

/-! ## The loop -/

/-- The loop passes over entries without a key. -/
theorem reconcile_usable (listed : List NetmapPeer) (state : Reconcile) :
    listed.foldlM reconcilePeer state = (usable listed).foldlM reconcilePeer state := by
  induction listed generalizing state with
  | nil => rfl
  | cons entry listed continued =>
      by_cases empty : entry.nodeKey = .empty
      · have skipped : reconcilePeer state entry = some state := by
          simp only [reconcilePeer, empty, if_true]
        have same : usable (entry :: listed) = usable listed := by simp [usable, empty]
        rw [same, List.foldlM_cons, skipped]
        exact continued state
      · have same : usable (entry :: listed) = entry :: usable listed := by simp [usable, empty]
        rw [same, List.foldlM_cons, List.foldlM_cons]
        exact congrArg _ (funext continued)

/-- The peers and counts of the loop after the entries `done`. -/
structure Progress (old : List ManagedPeer) (done : List NetmapPeer) (state : Reconcile) : Prop where
  peers : state.peers = old.map (reconciler.refreshed done) ++
    (reconciler.unmatched (keys old) done).map ManagedPeer.enroll
  added : state.added = (reconciler.unmatched (keys old) done).length
  updated : state.updated + state.added = done.length

/-- A change at the first row with a key is a change of every row with it. -/
theorem modify_first {peers back : List ManagedPeer} {hex : CString} {index : Nat}
    (apart : (keys peers).Nodup) (found : indexOf peers hex = some index)
    (change : ManagedPeer → ManagedPeer) :
    (peers ++ back).modify index change =
      peers.map (fun peer => if peer.nodeKeyHex = hex then change peer else peer) ++ back := by
  induction peers generalizing index with
  | nil => cases found
  | cons peer peers continued =>
      rw [keys, List.map_cons, List.nodup_cons] at apart
      by_cases same : peer.nodeKeyHex = hex
      · have first : index = 0 := by
          simpa [indexOf, List.findIdx?_cons, same] using found.symm
        have others : ∀ other ∈ peers, ¬ other.nodeKeyHex = hex := fun other member equal =>
          apart.1 (same ▸ equal ▸ List.mem_map_of_mem member)
        rw [first, List.map_cons, if_pos same, List.map_congr_left fun other member =>
          if_neg (others other member)]
        simp
      · obtain ⟨position, later, rfl⟩ : ∃ position, indexOf peers hex = some position ∧
            position + 1 = index := by
          simpa [indexOf, List.findIdx?_cons, same] using found
        have rest := continued apart.2 later
        simp [same, rest]

section Step

variable {old : List ManagedPeer} {done : List NetmapPeer} {entry : NetmapPeer}
  {state next : Reconcile}

/-- Listing one more entry refreshes the peer it is about. -/
theorem refreshed_concat (first : entry.nodeKey ∉ reconciler.itemKeys done) (peer : ManagedPeer) :
    reconciler.refreshed (done ++ [entry]) peer =
      if peer.nodeKeyHex = entry.nodeKey then (reconciler.refreshed done peer).refresh entry
      else reconciler.refreshed done peer := by
  unfold Reconciler.refreshed Reconciler.lookup
  rw [List.find?_append]
  by_cases same : peer.nodeKeyHex = entry.nodeKey
  · have absent : done.find? (fun item => reconciler.itemKey item = reconciler.rowKey peer) = none := by
      rw [List.find?_eq_none]
      intro item member equal
      refine first (List.mem_map.mpr ⟨item, member, ?_⟩)
      exact (of_decide_eq_true equal).trans same
    have present : [entry].find? (fun item => reconciler.itemKey item = reconciler.rowKey peer) =
        some entry := by
      simp [reconciler, same]
    rw [absent, present, if_pos same]
    rfl
  · have absent : [entry].find? (fun item => reconciler.itemKey item = reconciler.rowKey peer) =
        none := by
      simp [reconciler, Ne.symm same]
    rw [absent, if_neg same, Option.or_none]

theorem nodeKeyHex_refreshed (items : List NetmapPeer) (peer : ManagedPeer) :
    (reconciler.refreshed items peer).nodeKeyHex = peer.nodeKeyHex :=
  @Reconciler.rowKey_refreshed _ _ _ _ reconciler items peer

theorem keys_refreshed (items : List NetmapPeer) (peers : List ManagedPeer) :
    keys (peers.map (reconciler.refreshed items)) = keys peers := by
  rw [keys, List.map_map]
  exact List.map_congr_left fun peer _ => nodeKeyHex_refreshed items peer

theorem progress_step (apart : (keys old).Nodup) (filled : entry.nodeKey ≠ .empty)
    (first : entry.nodeKey ∉ reconciler.itemKeys done) (progress : Progress old done state)
    (stepped : reconcilePeer state entry = some next) : Progress old (done ++ [entry]) next := by
  have unmatched : reconciler.unmatched (keys old) (done ++ [entry]) =
      reconciler.unmatched (keys old) done ++ if entry.nodeKey ∈ keys old then [] else [entry] := by
    by_cases managed : entry.nodeKey ∈ keys old <;>
      simp [Reconciler.unmatched, reconciler, managed]
  have updated := progress.updated
  simp only [reconcilePeer, filled, if_false] at stepped
  by_cases managed : entry.nodeKey ∈ keys old
  · have located : ∃ index, indexOf (old.map (reconciler.refreshed done)) entry.nodeKey =
        some index := by
      rw [indexOf_eq, keys_refreshed]
      exact Option.isSome_iff_exists.mp (by simpa using managed)
    obtain ⟨index, located⟩ := located
    have found : indexOf state.peers entry.nodeKey = some index := by
      rw [indexOf] at located
      rw [progress.peers, indexOf, List.findIdx?_append, located, Option.some_or]
    rw [found] at stepped
    simp only at stepped
    split at stepped
    · cases stepped
      rw [if_pos managed, List.append_nil] at unmatched
      refine ⟨?_, by rw [unmatched, progress.added], ?_⟩
      · rw [progress.peers, modify_first (by rwa [keys_refreshed]) located, unmatched, List.map_map]
        refine congrArg (· ++ _) (List.map_congr_left fun peer _ => ?_)
        rw [Function.comp_apply, nodeKeyHex_refreshed, refreshed_concat first]
      · simp only [List.length_append, List.length_singleton]
        omega
    · cases stepped
  · have absent : indexOf state.peers entry.nodeKey = none := by
      have unstored : entry.nodeKey ∉ keys state.peers := by
        rw [progress.peers, keys, List.map_append, List.mem_append]
        rintro (stored | created)
        · rw [← keys, keys_refreshed] at stored
          exact managed stored
        · obtain ⟨peer, enrolled, same⟩ := List.mem_map.mp created
          obtain ⟨item, listed, rfl⟩ := List.mem_map.mp enrolled
          exact first (List.mem_map.mpr ⟨item, (List.mem_filter.mp listed).1, same⟩)
      rw [indexOf_eq, List.findIdx?_eq_none_iff]
      intro key member
      exact decide_eq_false fun same => unstored (same ▸ member)
    rw [absent] at stepped
    cases stepped
    rw [if_neg managed] at unmatched
    refine ⟨?_, by simp [unmatched, progress.added], ?_⟩
    · have unlisted : old.map (reconciler.refreshed (done ++ [entry])) =
          old.map (reconciler.refreshed done) := by
        refine List.map_congr_left fun peer stored => ?_
        rw [refreshed_concat first, if_neg]
        exact fun same => managed (same ▸ List.mem_map_of_mem stored)
      simp [unmatched, unlisted, progress.peers]
    · simp only [List.length_append, List.length_singleton]
      omega

end Step

theorem progress_run {old : List ManagedPeer} {done listed : List NetmapPeer}
    {state next : Reconcile} (apart : (keys old).Nodup)
    (filled : ∀ entry ∈ listed, entry.nodeKey ≠ .empty)
    (once : (reconciler.itemKeys (done ++ listed)).Nodup) (progress : Progress old done state)
    (looped : listed.foldlM reconcilePeer state = some next) :
    Progress old (done ++ listed) next := by
  induction listed generalizing done state with
  | nil =>
      cases looped
      rwa [List.append_nil]
  | cons entry listed continued =>
      have split : done ++ entry :: listed = done ++ [entry] ++ listed := by simp
      rw [split] at once ⊢
      rw [List.foldlM_cons] at looped
      obtain ⟨middle, stepped, rest⟩ := Option.bind_eq_some_iff.mp looped
      have first : entry.nodeKey ∉ reconciler.itemKeys done := by
        intro member
        have before := once.sublist ((List.sublist_append_left (done ++ [entry]) listed).map _)
        rw [List.map_append] at before
        exact (List.disjoint_of_nodup_append before) member (List.mem_singleton_self _)
      exact continued (fun later member => filled later (List.mem_cons_of_mem _ member)) once
        (progress_step apart (filled entry List.mem_cons_self) first progress stepped) rest

/-! ## The whole update -/

theorem eraseUnseen_snd (seen : List Bool) (front back : List ManagedPeer) :
    (eraseUnseen seen front.length (front ++ back)).2 + (Marks.keepMarked seen front).length =
      front.length := by
  induction front using List.reverseRecOn generalizing back with
  | nil => simp [eraseUnseen]
  | append_singleton front peer continued =>
      have erased : (front ++ [peer] ++ back).eraseIdx front.length = front ++ back := by
        simp [List.eraseIdx_append_of_length_le]
      rw [List.length_append, List.length_singleton, eraseUnseen, Marks.keepMarked_concat, erased]
      split
      · have rest := continued back
        simp only [List.append_nil]
        omega
      · have rest := continued (peer :: back)
        rw [List.append_assoc, List.singleton_append, List.length_append, List.length_singleton]
        omega

/-- Added, removed and updated as differences and intersection of the two sets of keys. -/
def differences (listed stored : Finset CString) : Counts where
  added := (listed \ stored).card
  removed := (stored \ listed).card
  updated := (listed ∩ stored).card

section Counting

variable {values : List CString}

theorem length_filter_mem (nodup : values.Nodup) (wanted : List CString) :
    (values.filter (· ∈ wanted)).length = (values.toFinset ∩ wanted.toFinset).card := by
  rw [← List.toFinset_card_of_nodup (nodup.filter _)]
  congr 1
  ext value
  simp

theorem length_filter_not_mem (nodup : values.Nodup) (wanted : List CString) :
    (values.filter (· ∉ wanted)).length = (values.toFinset \ wanted.toFinset).card := by
  rw [← List.toFinset_card_of_nodup (nodup.filter _)]
  congr 1
  ext value
  simp

end Counting

theorem length_unmatched (keys : List CString) (listed : List NetmapPeer) :
    (reconciler.unmatched keys (usable listed)).length =
      ((listedKeys listed).filter (· ∉ keys)).length := by
  rw [← itemKeys_usable, Reconciler.itemKeys, List.filter_map, List.length_map]
  rfl

theorem length_filter_keys (peers : List ManagedPeer) (wanted : List CString) :
    (peers.filter fun peer => peer.nodeKeyHex ∈ wanted).length =
      ((keys peers).filter (· ∈ wanted)).length := by
  rw [keys, List.filter_map, List.length_map]
  rfl

theorem progress_start (old : List ManagedPeer) :
    Progress old [] { peers := old, seen := List.replicate old.length false } := by
  have same : old.map (reconciler.refreshed []) = old := List.map_id old
  exact ⟨by simp [same, Reconciler.unmatched], rfl, rfl⟩

theorem update_distinct {set : TSPeerSet} {netmap : TSNetmap} (apart : (keys set.peers).Nodup)
    (once : (listedKeys netmap.peers).Nodup) :
    set.update netmap = some ({ peers := reconciler.reconciled (usable netmap.peers) set.peers },
      differences (listedKeys netmap.peers).toFinset (keys set.peers).toFinset) := by
  have run := reconcile_run netmap.peers (marked_start set.peers) (by simp)
  unfold update
  cases looped : netmap.peers.foldlM reconcilePeer
      { peers := set.peers, seen := List.replicate set.peers.length false } with
  | none =>
      rw [looped] at run
      exact absurd (fun key _ => List.nodup_iff_count_le_one.mp once key) run
  | some next =>
      rw [looped] at run
      rw [reconcile_usable] at looped
      have filled : ∀ entry ∈ usable netmap.peers, entry.nodeKey ≠ .empty := fun entry member =>
        of_decide_eq_true (List.mem_filter.mp member).2
      have progress := progress_run apart filled (by rwa [List.nil_append, itemKeys_usable])
        (progress_start set.peers) looped
      rw [List.nil_append] at progress
      have kept : Marks.keepMarked next.seen next.peers =
          reconciler.reconciled (usable netmap.peers) set.peers := by
        have length : next.seen.length =
            (set.peers.map (reconciler.refreshed (usable netmap.peers))).length := by
          simp [run.1.seen, keys]
        rw [progress.peers, Marks.keepMarked_append length, ← Marks.keepMarked_map, run.1.seen,
          keys, Marks.keepMarked_marks apart (by simp), List.nil_append, ← itemKeys_usable]
        rfl
      have walked := eraseUnseen_fst next.seen next.peers []
      have erased := eraseUnseen_snd next.seen next.peers []
      rw [List.append_nil, List.append_nil, kept] at walked
      rw [List.append_nil, kept] at erased
      have added := progress.added
      have updated := progress.updated
      have size := congrArg List.length progress.peers
      rw [length_unmatched, length_filter_not_mem once] at added
      have listedSize : (usable netmap.peers).length = (listedKeys netmap.peers).toFinset.card := by
        rw [List.toFinset_card_of_nodup once, ← itemKeys_usable, Reconciler.itemKeys, List.length_map]
      have storedSize : set.peers.length = (keys set.peers).toFinset.card := by
        rw [List.toFinset_card_of_nodup apart, keys, List.length_map]
      have keptSize : (reconciler.reconciled (usable netmap.peers) set.peers).length =
          ((keys set.peers).toFinset ∩ (listedKeys netmap.peers).toFinset).card +
            (reconciler.unmatched (keys set.peers) (usable netmap.peers)).length := by
        rw [← length_filter_mem apart, ← length_filter_keys, ← itemKeys_usable]
        simp only [Reconciler.reconciled, List.length_append, List.length_map]
        rfl
      rw [List.length_append, List.length_map, List.length_map] at size
      have listedParts := Finset.card_sdiff_add_card_inter (listedKeys netmap.peers).toFinset
        (keys set.peers).toFinset
      have storedParts := Finset.card_sdiff_add_card_inter (keys set.peers).toFinset
        (listedKeys netmap.peers).toFinset
      have counts : ({
          added := next.added
          removed := (eraseUnseen next.seen next.peers.length next.peers).2
          updated := next.updated } : Counts) =
          differences (listedKeys netmap.peers).toFinset (keys set.peers).toFinset := by
        rw [differences, Counts.mk.injEq]
        refine ⟨added, ?_, ?_⟩
        · omega
        · omega
      rw [← reconcile_usable] at looped
      simp only [looped, Option.map_some, walked, counts]

/-- What belongs to the running session stays. -/
structure Kept (before after : ManagedPeer) : Prop where
  session : after.wg = before.wg
  direct : after.path.mode = .direct ↔ before.path.mode = .direct
  endpoint : after.path.endpoint = before.path.endpoint
  lastDirectActivity : after.path.lastDirectActivity = before.path.lastDirectActivity
  lastHandshake : after.lastHandshake = before.lastHandshake
  lastDiscoPing : after.lastDiscoPing = before.lastDiscoPing

/-- What the map says of a peer. -/
structure Describes (entry : NetmapPeer) (peer : ManagedPeer) : Prop where
  discoKey : peer.discoKey = entry.discoKey
  hostname : peer.hostname = entry.hostname
  online : peer.online = entry.online
  derpRegion : peer.derpRegion = entry.derpRegion
  allowedIPs : peer.allowedIPs = entry.allowedIPs
  endpoints : peer.endpoints = entry.endpoints

theorem kept_refresh (peer : ManagedPeer) (entry : NetmapPeer) : Kept peer (peer.refresh entry) := by
  unfold ManagedPeer.refresh PeerPath.useDerp
  constructor <;> simp only <;> repeat' split
  all_goals simp_all

theorem describes_refresh (peer : ManagedPeer) (entry : NetmapPeer) :
    Describes entry (peer.refresh entry) :=
  ⟨rfl, rfl, rfl, rfl, rfl, rfl⟩

/-- `Update` with distinct keys: the managed keys are the listed ones, sessions stay, the rest
is the map's, the counts are the differences, and a second `Update` changes nothing. -/
theorem update_keeps_sessions (set : TSPeerSet) (netmap : TSNetmap)
    (apart : (keys set.peers).Nodup) (once : (listedKeys netmap.peers).Nodup) :
    ∃ result, set.update netmap = some (result,
        differences (listedKeys netmap.peers).toFinset (keys set.peers).toFinset) ∧
      (keys result.peers).Nodup ∧
      (∀ key, key ∈ keys result.peers ↔
        key ≠ .empty ∧ key ∈ netmap.peers.map NetmapPeer.nodeKey) ∧
      (∀ before ∈ set.peers, ∀ after ∈ result.peers, after.nodeKeyHex = before.nodeKeyHex →
        Kept before after) ∧
      (∀ after ∈ result.peers, ∀ entry ∈ netmap.peers, entry.nodeKey = after.nodeKeyHex →
        Describes entry after) ∧
      result.update netmap = some (result,
        { added := 0, removed := 0, updated := result.peers.length }) := by
  have updated := update_distinct apart once
  have spec := update_spec set netmap
  rw [updated] at spec
  obtain ⟨⟨distinct, membership⟩, _⟩ := spec
  have listedOnce : (reconciler.itemKeys (usable netmap.peers)).Nodup := by
    rwa [itemKeys_usable]
  refine ⟨_, updated, distinct, membership, ?_, ?_, ?_⟩
  · intro before stored after member same
    have rowsApart : (reconciler.rowKeys set.peers).Nodup := apart
    have sameKey : reconciler.rowKey after = reconciler.rowKey before := same
    obtain ⟨entry, _, rfl⟩ := Reconciler.reconciled_kept rowsApart stored member sameKey
    exact kept_refresh before entry
  · intro after member entry listed same
    obtain ⟨item, found, settled⟩ := Reconciler.reconciled_settled listedOnce member
    have filled : after.nodeKeyHex ≠ .empty :=
      ((membership _).mp (List.mem_map_of_mem member)).1
    have inUse : entry ∈ usable netmap.peers :=
      List.mem_filter.mpr ⟨listed, decide_eq_true (same ▸ filled)⟩
    have sameKey : reconciler.itemKey entry = reconciler.rowKey after := same
    rw [← sameKey, Reconciler.lookup_of_mem listedOnce inUse] at found
    cases found
    rw [← settled]
    exact describes_refresh after entry
  · have again := update_distinct distinct once
    have settled : (keys (reconciler.reconciled (usable netmap.peers) set.peers)).toFinset =
        (listedKeys netmap.peers).toFinset := by
      ext key
      rw [List.mem_toFinset, List.mem_toFinset, membership, mem_listedKeys_iff]
    have size := List.toFinset_card_of_nodup distinct
    rw [settled, keys, List.length_map] at size
    rw [settled, Reconciler.reconciled_reconciled listedOnce, differences, Finset.sdiff_self,
      Finset.inter_self, Finset.card_empty, size] at again
    exact again

/-- A peer with running keys and a direct path, and one the map no longer lists. -/
def twoManaged : TSPeerSet where
  peers := [
    { nodeKeyHex := .ofBytes (ascii "aa")
      wg := { hasKeys := true }
      path := { mode := .direct, endpoint := ascii "1.2.3.4:5" } },
    { nodeKeyHex := .ofBytes (ascii "bb") }]

def twoListed : TSNetmap where
  peers := [
    { nodeKey := .ofBytes (ascii "cc") },
    {},
    { nodeKey := .ofBytes (ascii "aa"), derpRegion := 2 }]

theorem update_keeps_sessions_sample :
    ∃ result, twoManaged.update twoListed = some (result, { added := 1, removed := 1, updated := 1 }) ∧
      ∀ after ∈ result.peers, after.nodeKeyHex = .ofBytes (ascii "aa") →
        after.wg.hasKeys = true ∧ after.path.mode = .direct := by
  obtain ⟨result, updated, _, _, kept, _⟩ :=
    update_keeps_sessions twoManaged twoListed (by decide +kernel) (by decide +kernel)
  have counts : differences (listedKeys twoListed.peers).toFinset (keys twoManaged.peers).toFinset =
      { added := 1, removed := 1, updated := 1 } := by
    decide +kernel
  refine ⟨result, counts ▸ updated, fun after member same => ?_⟩
  have session := kept _ List.mem_cons_self after member same
  exact ⟨congrArg _ session.session, session.direct.mpr rfl⟩

/-! ## Sets that differ in what a map replaces -/

/-- What an update keeps of a peer, up to the relay of an unused path. -/
def core (peer : ManagedPeer) : CString × WireGuard.WGPeer × PeerPath × Int × Int :=
  (peer.nodeKeyHex, peer.wg, peer.path, peer.lastHandshake, peer.lastDiscoPing)

theorem refresh_of_core {left right : ManagedPeer} (same : core left = core right)
    (entry : NetmapPeer) : left.refresh entry = right.refresh entry := by
  obtain ⟨leftKey, _, _, _, _, _, _, leftWg, leftPath, leftHandshake, leftPing⟩ := left
  obtain ⟨rightKey, _, _, _, _, _, _, rightWg, rightPath, rightHandshake, rightPing⟩ := right
  simp only [core, Prod.mk.injEq] at same
  obtain ⟨rfl, rfl, rfl, rfl, rfl⟩ := same
  rfl

/-- Two loops that have met the same entries: the marked and the new peers are the same. -/
structure Twins (left right : Reconcile) : Prop where
  cores : left.peers.map core = right.peers.map core
  seen : left.seen = right.seen
  added : left.added = right.added
  updated : left.updated = right.updated
  marked : ∀ index : Nat, left.seen[index]? ≠ some false → left.peers[index]? = right.peers[index]?

theorem keys_of_cores {left right : List ManagedPeer} (same : left.map core = right.map core) :
    keys left = keys right := by
  have names := congrArg (List.map Prod.fst) same
  rw [List.map_map, List.map_map] at names
  exact names

theorem twins_step {left right : Reconcile} (twins : Twins left right) (entry : NetmapPeer) :
    Option.Rel Twins (reconcilePeer left entry) (reconcilePeer right entry) := by
  have located : indexOf left.peers entry.nodeKey = indexOf right.peers entry.nodeKey := by
    rw [indexOf_eq, indexOf_eq, keys_of_cores twins.cores]
  have cores (index : Nat) : (left.peers[index]?).map core = (right.peers[index]?).map core := by
    rw [← List.getElem?_map, ← List.getElem?_map, twins.cores]
  have length : left.peers.length = right.peers.length := by
    have same := congrArg List.length twins.cores
    rwa [List.length_map, List.length_map] at same
  -- The refreshed peer is the same on both sides.
  have refreshed (index : Nat) : (left.peers[index]?).map (·.refresh entry) =
      (right.peers[index]?).map (·.refresh entry) := by
    have same := cores index
    generalize left.peers[index]? = first at same ⊢
    generalize right.peers[index]? = second at same ⊢
    cases first with
    | none =>
        cases second with
        | none => rfl
        | some other => cases same
    | some peer =>
        cases second with
        | none => cases same
        | some other => exact congrArg some (refresh_of_core (Option.some.inj same) entry)
  unfold reconcilePeer
  rw [located, twins.seen]
  split
  · exact .some twins
  · cases indexOf right.peers entry.nodeKey with
    | some index =>
        simp only
        split
        · refine .some ⟨?_, rfl, twins.added, congrArg (· + 1) twins.updated, fun position seen => ?_⟩
          · refine List.ext_getElem? fun position => ?_
            rw [List.getElem?_map, List.getElem?_map, List.getElem?_modify, List.getElem?_modify]
            by_cases here : index = position
            · simp only [if_pos here]
              exact congrArg (Option.map core) (refreshed position)
            · simp only [if_neg here, id_map']
              exact cores position
          · rw [List.getElem?_modify, List.getElem?_modify]
            by_cases here : index = position
            · simp only [if_pos here]
              exact refreshed position
            · rw [List.getElem?_set_ne here, ← twins.seen] at seen
              simp only [if_neg here]
              exact congrArg _ (twins.marked position seen)
        · exact .none
    | none =>
        refine .some ⟨?_, rfl, congrArg (· + 1) twins.added, twins.updated, fun position seen => ?_⟩
        · rw [List.map_append, List.map_append, twins.cores]
        · rw [← twins.seen] at seen
          by_cases inside : position < left.peers.length
          · rw [List.getElem?_append_left inside, List.getElem?_append_left (length ▸ inside)]
            exact twins.marked position seen
          · rw [List.getElem?_append_right (Nat.le_of_not_lt inside),
              List.getElem?_append_right (length ▸ Nat.le_of_not_lt inside), length]

theorem twins_run {left right : Reconcile} (twins : Twins left right) (listed : List NetmapPeer) :
    Option.Rel Twins (listed.foldlM reconcilePeer left) (listed.foldlM reconcilePeer right) := by
  induction listed generalizing left right with
  | nil => exact .some twins
  | cons entry listed continued =>
      rw [List.foldlM_cons, List.foldlM_cons]
      have one := twins_step twins entry
      generalize reconcilePeer left entry = first at one ⊢
      generalize reconcilePeer right entry = second at one ⊢
      cases one with
      | none => exact .none
      | some next => exact continued next

/-- An update makes sets equal that differ in metadata only. -/
theorem update_of_cores {left right : TSPeerSet}
    (same : left.peers.map core = right.peers.map core) (netmap : TSNetmap) :
    left.update netmap = right.update netmap := by
  have length : left.peers.length = right.peers.length := by
    have sizes := congrArg List.length same
    rwa [List.length_map, List.length_map] at sizes
  have start : Twins { peers := left.peers, seen := List.replicate left.peers.length false }
      { peers := right.peers, seen := List.replicate right.peers.length false } := by
    refine ⟨same, by rw [length], rfl, rfl, fun index beyond => ?_⟩
    have outside : ¬ index < left.peers.length := fun inside =>
      beyond (List.getElem?_replicate_of_lt inside)
    rw [List.getElem?_eq_none (Nat.le_of_not_lt outside),
      List.getElem?_eq_none (length ▸ Nat.le_of_not_lt outside)]
  have run := twins_run start netmap.peers
  unfold update
  simp only
  generalize netmap.peers.foldlM reconcilePeer
    { peers := left.peers, seen := List.replicate left.peers.length false } = first at run ⊢
  generalize netmap.peers.foldlM reconcilePeer
    { peers := right.peers, seen := List.replicate right.peers.length false } = second at run ⊢
  cases run with
  | none => rfl
  | @some left right twins =>
      have sizes := congrArg List.length twins.cores
      rw [List.length_map, List.length_map] at sizes
      have kept := Marks.keepMarked_congr sizes twins.marked
      have leftWalk := eraseUnseen_fst left.seen left.peers []
      have rightWalk := eraseUnseen_fst right.seen right.peers []
      have leftErased := eraseUnseen_snd left.seen left.peers []
      have rightErased := eraseUnseen_snd right.seen right.peers []
      simp only [List.append_nil] at leftWalk rightWalk leftErased rightErased
      rw [← twins.seen] at rightWalk rightErased
      have peers : (eraseUnseen left.seen left.peers.length left.peers).1 =
          (eraseUnseen right.seen right.peers.length right.peers).1 := by
        rw [leftWalk, kept, ← twins.seen, rightWalk]
      have erased : (eraseUnseen left.seen left.peers.length left.peers).2 =
          (eraseUnseen right.seen right.peers.length right.peers).2 := by
        rw [← twins.seen]
        rw [kept] at leftErased
        omega
      rw [Option.map_some, Option.map_some, peers, erased, twins.added, twins.updated]

end Sotoportego.Tailscale.TSPeerSet
