import Sotoportego.Lib.Marks
import Sotoportego.Tailscale.PeerSet

/-!
# Reconciliation against a network map

The loop of `Update` marks the managed peers that are still listed and appends the new
ones. It stays inside `seen` exactly when no new key is listed twice, and then leaves one
managed peer for every listed key.
-/

set_option autoImplicit false

namespace Sotoportego.Tailscale.TSPeerSet

open Octets CText

def keys (peers : List ManagedPeer) : List CString :=
  peers.map ManagedPeer.nodeKeyHex

/-- The keys of the usable entries of a map. -/
def listedKeys (listed : List NetmapPeer) : List CString :=
  (listed.map NetmapPeer.nodeKey).filter (· ≠ .empty)

theorem indexOf_eq (peers : List ManagedPeer) (hex : CString) :
    indexOf peers hex = (keys peers).findIdx? fun key => key = hex := by
  rw [indexOf, keys, List.findIdx?_map]
  rfl

/-- A refresh changes nothing that is read off the key and the session alone. -/
theorem map_modify_refresh {α : Type} {view : ManagedPeer → α} {listed : NetmapPeer}
    (same : ∀ peer : ManagedPeer, view (peer.refresh listed) = view peer)
    (peers : List ManagedPeer) (index : Nat) :
    (peers.modify index (·.refresh listed)).map view = peers.map view := by
  induction peers generalizing index with
  | nil => simp
  | cons peer peers continued =>
      cases index with
      | zero => simp [same]
      | succ index => simp [continued]

theorem keys_modify_refresh (peers : List ManagedPeer) (index : Nat) (listed : NetmapPeer) :
    keys (peers.modify index (·.refresh listed)) = keys peers :=
  map_modify_refresh (fun _ => rfl) peers index

/-- What the loop holds after the keys `wanted`, from a set with the keys `old`. -/
structure Marked (old wanted : List CString) (state : Reconcile) : Prop where
  appended : ∃ fresh, keys state.peers = old ++ fresh ∧ fresh.Nodup ∧
    ∀ key, key ∈ fresh ↔ key ∈ wanted ∧ key ∉ old
  seen : state.seen = Marks.marks wanted [] old

section Step

variable {old wanted : List CString} {state : Reconcile} {listed : NetmapPeer}

private theorem findIdx_some_of_mem {values : List CString} {value : CString}
    (member : value ∈ values) :
    ∃ index, values.findIdx? (fun entry => entry = value) = some index ∧ index < values.length := by
  have found : (values.findIdx? fun entry => entry = value).isSome = true := by
    rw [List.findIdx?_isSome, List.any_eq_true]
    exact ⟨value, member, by simp⟩
  obtain ⟨index, found⟩ := Option.isSome_iff_exists.mp found
  exact ⟨index, found, (List.findIdx?_eq_some_iff_getElem.mp found).1⟩

private theorem findIdx_none_of_not_mem {values : List CString} {value : CString}
    (absent : value ∉ values) : values.findIdx? (fun entry => entry = value) = none := by
  rw [List.findIdx?_eq_none_iff]
  intro entry member
  have differs : entry ≠ value := fun same => absent (same ▸ member)
  simp [differs]

/-- A key the set already manages is marked at its position. -/
theorem reconcilePeer_managed (marked : Marked old wanted state) (filled : listed.nodeKey ≠ .empty)
    (managed : listed.nodeKey ∈ old) :
    ∃ next, reconcilePeer state listed = some next ∧
      Marked old (wanted ++ [listed.nodeKey]) next := by
  obtain ⟨fresh, appended, distinct, membership⟩ := marked.appended
  obtain ⟨index, found, inside⟩ := findIdx_some_of_mem managed
  have located : indexOf state.peers listed.nodeKey = some index := by
    rw [indexOf_eq, appended, List.findIdx?_append, found, Option.some_or]
  have bounded : index < state.seen.length := by
    rw [marked.seen, Marks.length_marks]
    exact inside
  have stepped : reconcilePeer state listed = some
      { state with
        peers := state.peers.modify index (·.refresh listed)
        seen := state.seen.set index true
        updated := state.updated + 1 } := by
    simp only [reconcilePeer, filled, if_false, located, bounded, if_true]
  refine ⟨_, stepped, ?_, ?_⟩
  · refine ⟨fresh, by rw [keys_modify_refresh, appended], distinct, fun key => ?_⟩
    rw [membership key]
    by_cases same : key = listed.nodeKey
    · simp [same, managed]
    · simp [same]
  · exact (congrArg (·.set index true) marked.seen).trans (Marks.set_marks (by simp) found)

/-- A key met for the first time is appended. -/
theorem reconcilePeer_new (marked : Marked old wanted state) (filled : listed.nodeKey ≠ .empty)
    (unmanaged : listed.nodeKey ∉ old) (first : listed.nodeKey ∉ wanted) :
    ∃ next, reconcilePeer state listed = some next ∧
      Marked old (wanted ++ [listed.nodeKey]) next := by
  obtain ⟨fresh, appended, distinct, membership⟩ := marked.appended
  have unlisted : listed.nodeKey ∉ fresh := fun member => first ((membership _).mp member).1
  have located : indexOf state.peers listed.nodeKey = none := by
    rw [indexOf_eq, appended, List.findIdx?_append, findIdx_none_of_not_mem unmanaged,
      findIdx_none_of_not_mem unlisted]
    rfl
  have stepped : reconcilePeer state listed = some
      { state with
        peers := state.peers ++ [ManagedPeer.enroll listed]
        added := state.added + 1 } := by
    simp only [reconcilePeer, filled, if_false, located]
  refine ⟨_, stepped, ?_, ?_⟩
  · refine ⟨fresh ++ [listed.nodeKey], ?_, ?_, fun key => ?_⟩
    · have enrolled : (ManagedPeer.enroll listed).nodeKeyHex = listed.nodeKey := rfl
      have before : state.peers.map ManagedPeer.nodeKeyHex = old ++ fresh := appended
      simp [keys, before, enrolled]
    · rw [List.nodup_append]
      refine ⟨distinct, by simp, ?_⟩
      rintro key member other single rfl
      rw [List.mem_singleton.mp single] at member
      exact unlisted member
    · rw [List.mem_append, membership key, List.mem_append, List.mem_singleton]
      by_cases same : key = listed.nodeKey
      · simp [same, unmanaged]
      · simp [same]
  · exact marked.seen.trans (Marks.marks_of_absent unmanaged).symm

/-- A new key listed again is found past the end of `seen`. -/
theorem reconcilePeer_repeated (marked : Marked old wanted state)
    (filled : listed.nodeKey ≠ .empty) (unmanaged : listed.nodeKey ∉ old)
    (again : listed.nodeKey ∈ wanted) : reconcilePeer state listed = none := by
  obtain ⟨fresh, appended, _, membership⟩ := marked.appended
  obtain ⟨index, found, _⟩ := findIdx_some_of_mem ((membership _).mpr ⟨again, unmanaged⟩)
  have located : indexOf state.peers listed.nodeKey = some (index + old.length) := by
    rw [indexOf_eq, appended, List.findIdx?_append, findIdx_none_of_not_mem unmanaged, found]
    rfl
  have outside : ¬ index + old.length < state.seen.length := by
    rw [marked.seen, Marks.length_marks]
    omega
  simp only [reconcilePeer, filled, if_false, located, outside]

end Step

/-- The loop runs to its end exactly when no unmanaged key comes twice. -/
theorem reconcile_run {old wanted : List CString} {state : Reconcile} (listed : List NetmapPeer)
    (marked : Marked old wanted state) (once : ∀ key ∉ old, wanted.count key ≤ 1) :
    match listed.foldlM reconcilePeer state with
    | some next => Marked old (wanted ++ listedKeys listed) next ∧
        ∀ key ∉ old, (wanted ++ listedKeys listed).count key ≤ 1
    | none => ¬ ∀ key ∉ old, (wanted ++ listedKeys listed).count key ≤ 1 := by
  induction listed generalizing wanted state with
  | nil => simpa [listedKeys] using ⟨marked, once⟩
  | cons entry listed continued =>
      by_cases empty : entry.nodeKey = .empty
      · have skipped : reconcilePeer state entry = some state := by
          simp only [reconcilePeer, empty, if_true]
        have keysSame : listedKeys (entry :: listed) = listedKeys listed := by
          simp [listedKeys, empty]
        rw [keysSame, List.foldlM_cons, skipped]
        exact continued marked once
      · have keysSame : wanted ++ listedKeys (entry :: listed) =
            wanted ++ [entry.nodeKey] ++ listedKeys listed := by
          simp [listedKeys, empty]
        rw [keysSame, List.foldlM_cons]
        by_cases repeated : entry.nodeKey ∉ old ∧ entry.nodeKey ∈ wanted
        · rw [reconcilePeer_repeated marked empty repeated.1 repeated.2]
          intro every
          have present := List.one_le_count_iff.mpr repeated.2
          have twice := every entry.nodeKey repeated.1
          rw [List.count_append, List.count_append, List.count_singleton_self] at twice
          omega
        · have advanced : ∃ next, reconcilePeer state entry = some next ∧
              Marked old (wanted ++ [entry.nodeKey]) next := by
            by_cases managed : entry.nodeKey ∈ old
            · exact reconcilePeer_managed marked empty managed
            · exact reconcilePeer_new marked empty managed fun member => repeated ⟨managed, member⟩
          obtain ⟨next, stepped, kept⟩ := advanced
          have onceMore : ∀ key ∉ old, (wanted ++ [entry.nodeKey]).count key ≤ 1 := by
            intro key unmanaged
            by_cases same : key = entry.nodeKey
            · subst same
              have absent : entry.nodeKey ∉ wanted := fun member => repeated ⟨unmanaged, member⟩
              simp [List.count_append, List.count_eq_zero_of_not_mem absent]
            · have differs : entry.nodeKey ≠ key := Ne.symm same
              simpa [List.count_append, List.count_singleton, differs] using once key unmanaged
          rw [stepped]
          exact continued kept onceMore

/-- The backward walk keeps the marked peers of the part it walks. -/
theorem eraseUnseen_fst (seen : List Bool) (front back : List ManagedPeer) :
    (eraseUnseen seen front.length (front ++ back)).1 = Marks.keepMarked seen front ++ back := by
  induction front using List.reverseRecOn generalizing back with
  | nil => simp [eraseUnseen]
  | append_singleton front peer continued =>
      have erased : (front ++ [peer] ++ back).eraseIdx front.length = front ++ back := by
        simp [List.eraseIdx_append_of_length_le]
      rw [List.length_append, List.length_singleton, eraseUnseen, Marks.keepMarked_concat, erased]
      split
      · simpa using continued back
      · simpa using continued (peer :: back)

theorem keys_swept {old wanted : List CString} {state : Reconcile}
    (marked : Marked old wanted state) :
    (keys (eraseUnseen state.seen state.peers.length state.peers).1).Nodup ∧
      ∀ key, key ∈ keys (eraseUnseen state.seen state.peers.length state.peers).1 ↔
        key ∈ wanted := by
  obtain ⟨fresh, appended, distinct, membership⟩ := marked.appended
  have swept : keys (eraseUnseen state.seen state.peers.length state.peers).1 =
      Marks.keepMarked (Marks.marks wanted [] old) old ++ fresh := by
    have walked := eraseUnseen_fst state.seen state.peers []
    rw [List.append_nil, List.append_nil] at walked
    rw [walked, keys, Marks.keepMarked_map, ← keys, appended, marked.seen,
      Marks.keepMarked_append (Marks.length_marks _ _ _)]
  rw [swept]
  constructor
  · rw [List.nodup_append]
    refine ⟨Marks.nodup_keepMarked wanted [] old, distinct, ?_⟩
    rintro key kept other member rfl
    exact ((membership _).mp member).2 (Marks.mem_keepMarked_iff.mp kept).1
  · intro key
    rw [List.mem_append, Marks.mem_keepMarked_iff, membership key]
    by_cases managed : key ∈ old
    · simp [managed]
    · simp [managed]

theorem mem_listedKeys_iff {listed : List NetmapPeer} {key : CString} :
    key ∈ listedKeys listed ↔ key ≠ .empty ∧ key ∈ listed.map NetmapPeer.nodeKey := by
  simp [listedKeys, and_comm]

private theorem forall_count_listedKeys (listed : List NetmapPeer) (old : List CString) :
    (∀ key ∉ old, (listedKeys listed).count key ≤ 1) ↔
      ∀ key, key ≠ .empty → key ∉ old → (listed.map NetmapPeer.nodeKey).count key ≤ 1 := by
  constructor
  · intro every key filled unmanaged
    have bounded := every key unmanaged
    rwa [listedKeys, List.count_filter (by simpa using filled)] at bounded
  · intro every key unmanaged
    by_cases filled : key = .empty
    · have absent : key ∉ listedKeys listed := fun member =>
        (mem_listedKeys_iff.mp member).1 filled
      rw [List.count_eq_zero_of_not_mem absent]
      exact Nat.zero_le _
    · rw [listedKeys, List.count_filter (by simpa using filled)]
      exact every key filled unmanaged

theorem marked_start (peers : List ManagedPeer) :
    Marked (keys peers) [] { peers, seen := List.replicate peers.length false } :=
  ⟨⟨[], by simp, by simp, by simp⟩, by simp [Marks.marks_nil, keys]⟩

/-- What a completed `Update` says of the map and of the peers it leaves. -/
theorem update_spec (set : TSPeerSet) (netmap : TSNetmap) :
    match set.update netmap with
    | some (result, _) =>
        ((keys result.peers).Nodup ∧ ∀ key, key ∈ keys result.peers ↔
          key ≠ .empty ∧ key ∈ netmap.peers.map NetmapPeer.nodeKey) ∧
        ∀ key, key ≠ .empty → key ∉ keys set.peers →
          (netmap.peers.map NetmapPeer.nodeKey).count key ≤ 1
    | none => ¬ ∀ key, key ≠ .empty → key ∉ keys set.peers →
        (netmap.peers.map NetmapPeer.nodeKey).count key ≤ 1 := by
  have run := reconcile_run netmap.peers (marked_start set.peers) (by simp)
  rw [List.nil_append] at run
  rw [update, ← forall_count_listedKeys netmap.peers (keys set.peers)]
  cases looped : netmap.peers.foldlM reconcilePeer
      { peers := set.peers, seen := List.replicate set.peers.length false } with
  | none =>
      rw [looped] at run
      exact run
  | some next =>
      rw [looped] at run
      obtain ⟨distinct, membership⟩ := keys_swept run.1
      exact ⟨⟨distinct, fun key => (membership key).trans mem_listedKeys_iff⟩, run.2⟩

/-- `Update` stays inside `seen` and leaves one managed peer for every non-empty key of the
map, exactly when no key that is new to the set is listed twice. -/
theorem update_reconciles_iff (set : TSPeerSet) (netmap : TSNetmap) :
    (∃ result counts, set.update netmap = some (result, counts) ∧ (keys result.peers).Nodup ∧
        ∀ key, key ∈ keys result.peers ↔
          key ≠ .empty ∧ key ∈ netmap.peers.map NetmapPeer.nodeKey) ↔
      ∀ key, key ≠ .empty → key ∉ keys set.peers →
        (netmap.peers.map NetmapPeer.nodeKey).count key ≤ 1 := by
  have spec := update_spec set netmap
  cases updated : set.update netmap with
  | none =>
      rw [updated] at spec
      refine ⟨?_, fun every => absurd every spec⟩
      rintro ⟨result, counts, impossible, _⟩
      cases impossible
  | some pair =>
      rw [updated] at spec
      exact ⟨fun _ => spec.2, fun _ => ⟨pair.1, pair.2, rfl, spec.1⟩⟩

/-! ## Peers across an update -/

/-- The loop keeps what a refresh does not change, and appends enrolled peers. -/
theorem reconcile_views {α : Type} {view : ManagedPeer → α}
    (same : ∀ (peer : ManagedPeer) (entry : NetmapPeer), view (peer.refresh entry) = view peer)
    {listed : List NetmapPeer} {state next : Reconcile}
    (looped : listed.foldlM reconcilePeer state = some next) :
    ∃ entries : List NetmapPeer, next.peers.map view =
      state.peers.map view ++ entries.map fun entry => view (ManagedPeer.enroll entry) := by
  induction listed generalizing state with
  | nil =>
      cases looped
      exact ⟨[], by simp⟩
  | cons entry listed continued =>
      rw [List.foldlM_cons] at looped
      cases stepped : reconcilePeer state entry with
      | none =>
          rw [stepped] at looped
          cases looped
      | some middle =>
          rw [stepped] at looped
          obtain ⟨entries, reached⟩ := continued looped
          unfold reconcilePeer at stepped
          split at stepped
          · cases stepped
            exact ⟨entries, reached⟩
          · split at stepped
            · split at stepped
              · cases stepped
                refine ⟨entries, ?_⟩
                rw [reached]
                exact congrArg (· ++ _) (map_modify_refresh (same · entry) _ _)
              · cases stepped
            · cases stepped
              exact ⟨entry :: entries, by simp [reached]⟩

/-- An update keeps what a refresh does not change, and enrolls only what is new to the set. -/
theorem update_views {α : Type} {view : ManagedPeer → α}
    (same : ∀ (peer : ManagedPeer) (entry : NetmapPeer), view (peer.refresh entry) = view peer)
    {set result : TSPeerSet} {netmap : TSNetmap} {counts : Counts}
    (updated : set.update netmap = some (result, counts)) :
    ∃ entries : List NetmapPeer, (result.peers.map view).Sublist
        (set.peers.map view ++ entries.map fun entry => view (ManagedPeer.enroll entry)) ∧
      ∀ entry ∈ entries, entry.nodeKey ∉ keys set.peers := by
  unfold update at updated
  obtain ⟨next, looped, swept⟩ := Option.map_eq_some_iff.mp updated
  let named (peer : ManagedPeer) : CString × α := (peer.nodeKeyHex, view peer)
  have refreshed (peer : ManagedPeer) (entry : NetmapPeer) :
      named (peer.refresh entry) = named peer :=
    congrArg (Prod.mk peer.nodeKeyHex) (same peer entry)
  obtain ⟨entries, reached⟩ := reconcile_views refreshed looped
  have run := reconcile_run netmap.peers (marked_start set.peers) (by simp)
  rw [looped] at run
  obtain ⟨fresh, appended, _, unmanaged⟩ := run.1.appended
  have added : fresh = entries.map NetmapPeer.nodeKey := by
    have names := congrArg (List.map Prod.fst) reached
    rw [List.map_append, List.map_map, List.map_map, List.map_map] at names
    exact List.append_cancel_left (appended.symm.trans names)
  refine ⟨entries, ?_, fun entry listed =>
    ((unmanaged _).mp (added ▸ List.mem_map_of_mem listed)).2⟩
  have views := congrArg (List.map Prod.snd) reached
  rw [List.map_append, List.map_map, List.map_map, List.map_map] at views
  have walked := eraseUnseen_fst next.seen next.peers []
  rw [List.append_nil, List.append_nil] at walked
  cases swept
  have kept := (Marks.keepMarked_sublist next.seen next.peers).map view
  rw [walked]
  exact views ▸ kept

/-- Key and session of a peer: what an update keeps. -/
def identity (peer : ManagedPeer) : CString × WireGuard.WGPeer :=
  (peer.nodeKeyHex, peer.wg)

/-- A session that has never seen a handshake. -/
def Unstarted (entry : CString × WireGuard.WGPeer) : Prop :=
  ∃ nodeKey, entry.2 = ({} : WireGuard.WGPeer).setNodeKey nodeKey

theorem enroll_unstarted (listed : NetmapPeer) :
    Unstarted (identity (ManagedPeer.enroll listed)) := by
  unfold ManagedPeer.enroll
  cases fromHex 32 listed.nodeKey with
  | none => exact ⟨Buffer.zero 32, rfl⟩
  | some raw => exact ⟨raw, rfl⟩

theorem update_identities {set result : TSPeerSet} {netmap : TSNetmap} {counts : Counts}
    (updated : set.update netmap = some (result, counts)) :
    ∃ added, (result.peers.map identity).Sublist (set.peers.map identity ++ added) ∧
      ∀ entry ∈ added, Unstarted entry := by
  have same (peer : ManagedPeer) (entry : NetmapPeer) :
      identity (peer.refresh entry) = identity peer := rfl
  obtain ⟨entries, sublist, _⟩ := update_views same updated
  refine ⟨_, sublist, fun added member => ?_⟩
  obtain ⟨entry, _, rfl⟩ := List.mem_map.mp member
  exact enroll_unstarted entry

/-! ## A map that overruns `seen` -/

/-- The netmaps that successful `Parse` calls lead to. -/
inductive Produced : TSNetmap → Prop where
  | empty : Produced {}
  | parse {netmap next : TSNetmap} (json : Bytes) (produced : Produced netmap)
      (accepted : netmap.parse json = (true, next)) : Produced next

/-- A snapshot that lists one node key twice. -/
def sameKeyTwice : Bytes :=
  ascii "\x7b\"Peers\":[\x7b\"ID\":1,\"Key\":\"nodekey:aa\"\x7d,\x7b\"ID\":2,\"Key\":\"nodekey:aa\"\x7d]\x7d"

theorem update_overruns_seen :
    ¬ ∀ (set : TSPeerSet) (netmap : TSNetmap), Produced netmap →
      ∃ result counts, set.update netmap = some (result, counts) ∧ (keys result.peers).Nodup ∧
        ∀ key, key ∈ keys result.peers ↔
          key ≠ .empty ∧ key ∈ netmap.peers.map NetmapPeer.nodeKey := by
  intro claim
  have accepted : (({} : TSNetmap).parse sameKeyTwice).1 = true := by decide +kernel
  have produced : Produced (({} : TSNetmap).parse sameKeyTwice).2 :=
    .parse sameKeyTwice .empty (Prod.ext accepted rfl)
  obtain ⟨result, counts, updated, _⟩ := claim {} _ produced
  have overrun : (({} : TSPeerSet).update (({} : TSNetmap).parse sameKeyTwice).2).isNone = true := by
    decide +kernel
  rw [updated] at overrun
  cases overrun

end Sotoportego.Tailscale.TSPeerSet
