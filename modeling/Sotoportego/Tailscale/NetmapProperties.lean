import Sotoportego.Lib.Run
import Sotoportego.Tailscale.Netmap

/-!
# What a MapResponse does to the stored peers

The four peer sections are one run of edits on the peer list. A delta leaves every peer
it does not name as it was; uniqueness survives exactly the edits that meet `Safe`.
-/

set_option autoImplicit false

namespace Sotoportego.Tailscale

open Octets CText JsonValue

/-- One element of a peer section. -/
inductive PeerEdit where
  | snapshot (nodes : List JsonValue)
  | change (node : JsonValue)
  | patch (fields : JsonValue)
  | remove (gone : JsonValue)

namespace PeerEdit

def apply (peers : List NetmapPeer) : PeerEdit → List NetmapPeer
  | snapshot nodes => nodes.filterMap parsePeer
  | change node => changePeer peers node
  | patch fields => patchPeer peers fields
  | remove gone => removePeer peers gone

end PeerEdit

/-- The edits of a response, in the order `Parse` makes them. -/
def peerEdits (root : JsonValue) : List PeerEdit :=
  (root.arrayMember "Peers").toList.map .snapshot ++
    (((root.arrayMember "PeersChanged").getD []).map .change ++
      (((root.arrayMember "PeersChangedPatch").getD []).map .patch ++
        ((root.arrayMember "PeersRemoved").getD []).map .remove))

private theorem run_map {α : Type} (section_ : α → PeerEdit) (peers : List NetmapPeer)
    (elements : List α) :
    Run.run PeerEdit.apply peers (elements.map section_) =
      elements.foldl (fun current element => (section_ element).apply current) peers := by
  rw [Run.run, List.foldl_map]

theorem readPeers_eq_run (root : JsonValue) (peers : List NetmapPeer) :
    readPeers root peers = Run.run PeerEdit.apply peers (peerEdits root) := by
  have snapshot : readSnapshot root peers =
      Run.run PeerEdit.apply peers ((root.arrayMember "Peers").toList.map .snapshot) := by
    unfold readSnapshot
    cases root.arrayMember "Peers" <;> rfl
  have changed (current : List NetmapPeer) : readChanged root current =
      Run.run PeerEdit.apply current (((root.arrayMember "PeersChanged").getD []).map .change) := by
    rw [run_map, readChanged]
    cases root.arrayMember "PeersChanged" <;> rfl
  have patched (current : List NetmapPeer) : readPatches root current =
      Run.run PeerEdit.apply current
        (((root.arrayMember "PeersChangedPatch").getD []).map .patch) := by
    rw [run_map, readPatches]
    cases root.arrayMember "PeersChangedPatch" <;> rfl
  have removed (current : List NetmapPeer) : readRemoved root current =
      Run.run PeerEdit.apply current (((root.arrayMember "PeersRemoved").getD []).map .remove) := by
    rw [run_map, readRemoved]
    cases root.arrayMember "PeersRemoved" <;> rfl
  rw [readPeers, removed, patched, changed, snapshot, peerEdits, Run.run_append, Run.run_append,
    Run.run_append]

/-! ## Peers a delta does not name -/

/-- Some element of the delta names the peer: a changed node by its key or its ID, a patch
or a removal by its ID. -/
def named (root : JsonValue) (peer : NetmapPeer) : Bool :=
  (((root.arrayMember "PeersChanged").getD []).filterMap parsePeer).any (·.same peer) ||
    ((root.arrayMember "PeersChangedPatch").getD []).any (patchTarget · = some peer.nodeID) ||
    ((root.arrayMember "PeersRemoved").getD []).any (·.asId = peer.nodeID)

def unnamed (root : JsonValue) (peer : NetmapPeer) : Bool :=
  !named root peer

private theorem unnamed_of_same {root node : JsonValue} {changed peer : NetmapPeer}
    (listed : node ∈ (root.arrayMember "PeersChanged").getD [])
    (usable : parsePeer node = some changed) (same : changed.same peer = true) :
    unnamed root peer = false := by
  have member : changed ∈ ((root.arrayMember "PeersChanged").getD []).filterMap parsePeer :=
    List.mem_filterMap.mpr ⟨node, listed, usable⟩
  have names : (((root.arrayMember "PeersChanged").getD []).filterMap parsePeer).any
      (·.same peer) = true :=
    List.any_eq_true.mpr ⟨changed, member, same⟩
  simp [unnamed, named, names]

private theorem unnamed_of_target {root fields : JsonValue} {peer : NetmapPeer}
    (listed : fields ∈ (root.arrayMember "PeersChangedPatch").getD [])
    (target : patchTarget fields = some peer.nodeID) : unnamed root peer = false := by
  have names : ((root.arrayMember "PeersChangedPatch").getD []).any
      (patchTarget · = some peer.nodeID) = true :=
    List.any_eq_true.mpr ⟨fields, listed, decide_eq_true target⟩
  simp only [unnamed, named, names, Bool.or_true, Bool.true_or, Bool.not_true]

private theorem unnamed_of_gone {root gone : JsonValue} {peer : NetmapPeer}
    (listed : gone ∈ (root.arrayMember "PeersRemoved").getD [])
    (target : gone.asId = peer.nodeID) : unnamed root peer = false := by
  have names : ((root.arrayMember "PeersRemoved").getD []).any (·.asId = peer.nodeID) = true :=
    List.any_eq_true.mpr ⟨gone, listed, decide_eq_true target⟩
  simp only [unnamed, named, names, Bool.or_true, Bool.not_true]

@[simp] theorem NetmapPeer.same_self (peer : NetmapPeer) : peer.same peer = true := by
  simp [same]

/-- One edit of a delta keeps the unnamed peers, in their order. -/
theorem filter_unnamed_apply {root : JsonValue} {edit : PeerEdit}
    (delta : root.arrayMember "Peers" = none) (listed : edit ∈ peerEdits root)
    (peers : List NetmapPeer) :
    (edit.apply peers).filter (unnamed root) = peers.filter (unnamed root) := by
  simp only [peerEdits, delta, Option.toList_none, List.map_nil, List.nil_append,
    List.mem_append, List.mem_map] at listed
  obtain ⟨node, member, rfl⟩ | ⟨fields, member, rfl⟩ | ⟨gone, member, rfl⟩ := listed
  · cases usable : parsePeer node with
    | none => simp [PeerEdit.apply, changePeer, usable]
    | some changed =>
        simp only [PeerEdit.apply, changePeer, usable, upsertPeer]
        exact Table.filter_upsert (fun _ same => unnamed_of_same member usable same)
          (unnamed_of_same member usable changed.same_self)
  · cases addressed : patchTarget fields with
    | none => simp [PeerEdit.apply, patchPeer, addressed]
    | some target =>
        simp only [PeerEdit.apply, patchPeer, addressed]
        apply Table.filter_amend
        · intro peer same
          have same : peer.nodeID = target := of_decide_eq_true same
          exact unnamed_of_target member (by rw [addressed, same])
        · intro peer same
          have same : peer.nodeID = target := of_decide_eq_true same
          exact unnamed_of_target member (by rw [addressed, ← same]; rfl)
  · apply Table.filter_eraseP
    intro peer same
    have same : peer.nodeID = gone.asId := of_decide_eq_true same
    exact unnamed_of_gone member same.symm

theorem filter_unnamed_readPeers {root : JsonValue} (delta : root.arrayMember "Peers" = none)
    (peers : List NetmapPeer) :
    (readPeers root peers).filter (unnamed root) = peers.filter (unnamed root) := by
  have kept : ∀ (current : List NetmapPeer) (edit : PeerEdit), edit ∈ peerEdits root →
      current.filter (unnamed root) = peers.filter (unnamed root) →
      (edit.apply current).filter (unnamed root) = peers.filter (unnamed root) :=
    fun current edit listed same => (filter_unnamed_apply delta listed current).trans same
  rw [readPeers_eq_run]
  exact Run.invariant_run kept (fun _ member => member) rfl

theorem readSelf_of_absent {root : JsonValue}
    (absent : (root.find "Node").bind (find "Addresses") = none) (addresses : List Bytes) :
    readSelf root addresses = addresses := by
  simp [readSelf, absent]

theorem readDerp_of_absent {root : JsonValue}
    (absent : (root.find "DERPMap").bind (find "Regions") = none) (regions : List DerpRegion) :
    readDerp root regions = regions := by
  simp [readDerp, absent]

theorem readDns_of_absent {root : JsonValue} (absent : root.find "DNSConfig" = none)
    (dns : DnsConfig) : readDns root dns = dns := by
  simp [readDns, absent]

/-- The return value and the effect of `Parse`, by what the text is. -/
theorem parse_cases (netmap : TSNetmap) (json : Bytes) :
    (∃ root, JsonParser.parse json = some root ∧ root.isObject = true ∧
        netmap.parse json = (true, netmap.apply root)) ∨
      ((∀ root, JsonParser.parse json = some root → root.isObject = false) ∧
        netmap.parse json = (false, netmap)) := by
  cases read : JsonParser.parse json with
  | none =>
      refine .inr ⟨?_, by simp [TSNetmap.parse, read]⟩
      intro root impossible
      cases impossible
  | some root =>
      cases shaped : root.isObject with
      | true => exact .inl ⟨root, rfl, shaped, by simp [TSNetmap.parse, read, shaped]⟩
      | false =>
          refine .inr ⟨fun other same => ?_, by simp [TSNetmap.parse, read, shaped]⟩
          cases same
          exact shaped

/-- A response without a `Peers` array keeps every peer it does not name, fields and order;
the other sections change only where they are present, and a rejected text changes nothing. -/
theorem delta_frame (before : TSNetmap) (json : Bytes) :
    (∀ root, JsonParser.parse json = some root → root.arrayMember "Peers" = none →
      (before.parse json).2.peers.filter (unnamed root) = before.peers.filter (unnamed root) ∧
      ((root.find "Node").bind (find "Addresses") = none →
        (before.parse json).2.selfAddresses = before.selfAddresses) ∧
      ((root.find "DERPMap").bind (find "Regions") = none →
        (before.parse json).2.derpRegions = before.derpRegions) ∧
      (root.find "DNSConfig" = none → (before.parse json).2.dns = before.dns)) ∧
    ((before.parse json).1 = false → (before.parse json).2 = before) := by
  obtain ⟨document, read, _, result⟩ | ⟨_, result⟩ := parse_cases before json
  · rw [result]
    refine ⟨fun root same delta => ?_, fun impossible => by cases impossible⟩
    rw [read] at same
    cases same
    exact ⟨filter_unnamed_readPeers delta before.peers,
      fun absent => readSelf_of_absent absent before.selfAddresses,
      fun absent => readDerp_of_absent absent before.derpRegions,
      fun absent => readDns_of_absent absent before.dns⟩
  · rw [result]
    exact ⟨fun _ _ _ => ⟨rfl, fun _ => rfl, fun _ => rfl, fun _ => rfl⟩, fun _ => rfl⟩

def twoPeers : Bytes :=
  ascii "\x7b\"Peers\":[\x7b\"ID\":1,\"Key\":\"nodekey:aa\"\x7d,\x7b\"ID\":2,\"Key\":\"nodekey:bb\"\x7d]\x7d"

def removeSecond : Bytes :=
  ascii "\x7b\"PeersRemoved\":[2]\x7d"

theorem delta_frame_removeSecond :
    ∃ root, JsonParser.parse removeSecond = some root ∧ root.arrayMember "Peers" = none ∧
      ((({} : TSNetmap).parse twoPeers).2.parse removeSecond).2.peers.filter (unnamed root) =
        (({} : TSNetmap).parse twoPeers).2.peers.filter (unnamed root) := by
  have delta : ∀ root ∈ JsonParser.parse removeSecond,
      (root.arrayMember "Peers").isNone = true := by
    decide +kernel
  have accepted : (JsonParser.parse removeSecond).isSome = true := by decide +kernel
  obtain ⟨root, read⟩ := Option.isSome_iff_exists.mp accepted
  have absent := Option.isNone_iff_eq_none.mp (delta root read)
  exact ⟨root, read, absent, ((delta_frame _ removeSecond).1 root read absent).1⟩

/-! ## Uniqueness -/

/-- Node keys and non-zero IDs are pairwise distinct, and every peer has a key. -/
structure Unique (peers : List NetmapPeer) : Prop where
  keys : (peers.map NetmapPeer.nodeKey).Nodup
  ids : ((peers.map NetmapPeer.nodeID).filter (· ≠ 0)).Nodup
  keyed : ∀ peer ∈ peers, peer.nodeKey ≠ .empty

theorem NetmapPeer.same_comm (left right : NetmapPeer) : left.same right = right.same left := by
  rw [Bool.eq_iff_iff]
  simp only [same, Bool.or_eq_true, Bool.and_eq_true, decide_eq_true_eq]
  grind

theorem NetmapPeer.same_eq_false_iff {left right : NetmapPeer} :
    left.same right = false ↔
      left.nodeKey ≠ right.nodeKey ∧ (left.nodeID = right.nodeID → left.nodeID = 0) := by
  rw [← Bool.not_eq_true]
  simp only [same, Bool.or_eq_true, Bool.and_eq_true, decide_eq_true_eq]
  grind

private theorem nodup_nonzero_iff (ids : List Int) :
    (ids.filter (· ≠ 0)).Nodup ↔ ids.Pairwise fun left right => left = right → left = 0 := by
  rw [List.Nodup, List.pairwise_filter]
  apply List.Pairwise.iff
  intro left right
  simp only [ne_eq, decide_not, Bool.not_eq_eq_eq_not, Bool.not_true, decide_eq_false_iff_not]
  grind

theorem unique_iff_distinct (peers : List NetmapPeer) :
    Unique peers ↔
      Table.Distinct NetmapPeer.same peers ∧ ∀ peer ∈ peers, peer.nodeKey ≠ .empty := by
  have apart : Table.Distinct NetmapPeer.same peers ↔
      (peers.map NetmapPeer.nodeKey).Nodup ∧
        ((peers.map NetmapPeer.nodeID).filter (· ≠ 0)).Nodup := by
    rw [nodup_nonzero_iff, List.Nodup, List.pairwise_map, List.pairwise_map, ← List.pairwise_and_iff]
    simp only [Table.Distinct, NetmapPeer.same_eq_false_iff]
  rw [apart]
  exact ⟨fun unique => ⟨⟨unique.keys, unique.ids⟩, unique.keyed⟩,
    fun parts => ⟨parts.1.1, parts.1.2, parts.2⟩⟩

namespace PeerEdit

/-- What an edit needs of the stored peers: a snapshot lists distinct peers, at most one
stored peer matches a changed node, and a patched key is new or the peer's own. -/
def Safe (peers : List NetmapPeer) : PeerEdit → Prop
  | snapshot nodes =>
      ((nodes.filterMap parsePeer).map NetmapPeer.nodeKey).Nodup ∧
        (((nodes.filterMap parsePeer).map NetmapPeer.nodeID).filter (· ≠ 0)).Nodup
  | change node => ∀ peer ∈ parsePeer node, (peers.filter peer.same).length ≤ 1
  | patch fields => ∀ target ∈ patchTarget fields,
      ∀ stored ∈ peers.find? (NetmapPeer.hasID target), ∀ key ∈ fields.keyMember "Key",
        key ≠ .empty ∧ ∀ other ∈ peers, other.nodeKey = key → other = stored
  | remove _ => True

instance decidableSafe (peers : List NetmapPeer) : ∀ edit : PeerEdit, Decidable (edit.Safe peers)
  | snapshot _ => inferInstanceAs (Decidable (_ ∧ _))
  | change node => inferInstanceAs (Decidable (∀ peer ∈ parsePeer node, _))
  | patch fields => inferInstanceAs (Decidable (∀ target ∈ patchTarget fields, _))
  | remove _ => inferInstanceAs (Decidable True)

end PeerEdit

theorem parsePeer_keyed {node : JsonValue} {peer : NetmapPeer}
    (usable : parsePeer node = some peer) : peer.nodeKey ≠ .empty := by
  unfold parsePeer at usable
  split at usable
  · dsimp only at usable
    split at usable
    · cases usable
    · rename_i keyed
      cases usable
      exact keyed
  · cases usable

/-- A patch writes a key of its own, or no key. -/
private theorem unique_patch_iff {peers : List NetmapPeer} {target : Int} {stored : NetmapPeer}
    (unique : Unique peers) (fields : JsonValue)
    (found : peers.find? (NetmapPeer.hasID target) = some stored) :
    Unique (Table.amend (NetmapPeer.hasID target) (NetmapPeer.applyPatch fields) peers) ↔
      ∀ key ∈ fields.keyMember "Key",
        key ≠ .empty ∧ ∀ other ∈ peers, other.nodeKey = key → other = stored := by
  obtain ⟨distinct, keyed⟩ := (unique_iff_distinct peers).mp unique
  obtain ⟨rest, amended, members⟩ := Table.mem_amend_iff (NetmapPeer.applyPatch fields) found
  have present : stored ∈ peers := (members stored).mpr (.inl rfl)
  have alone : ∀ other ∈ peers, stored.same other = true → other = stored :=
    fun other member => distinct.eq_of_clash NetmapPeer.same_comm present member
  have others : ∀ other ∈ rest, other.nodeKey ≠ .empty :=
    fun other member => keyed other ((members other).mpr (.inr member))
  rw [unique_iff_distinct,
    Table.distinct_amend_iff NetmapPeer.same_comm NetmapPeer.same_self _ found distinct]
  cases written : fields.keyMember "Key" with
  | none =>
      have same (other : NetmapPeer) : (stored.applyPatch fields).same other = stored.same other := by
        simp [NetmapPeer.same, NetmapPeer.applyPatch, written]
      refine ⟨fun _ key impossible => (by cases impossible), fun _ => ⟨?_, ?_⟩⟩
      · exact fun other member clashes => alone other member ((same other).symm.trans clashes)
      · intro other member
        obtain rfl | member := (amended other).mp member
        · simpa [NetmapPeer.applyPatch, written] using keyed stored present
        · exact others other member
  | some key =>
      have patchedKey : (stored.applyPatch fields).nodeKey = key := by
        simp [NetmapPeer.applyPatch, written]
      constructor
      · rintro ⟨separate, filled⟩ other same
        cases same
        refine ⟨patchedKey ▸ filled _ ((amended _).mpr (.inl rfl)), fun other member same => ?_⟩
        exact separate other member (by simp [NetmapPeer.same, patchedKey, same])
      · intro safe
        obtain ⟨filled, separate⟩ := safe key rfl
        refine ⟨fun other member clashes => ?_, fun other member => ?_⟩
        · simp only [NetmapPeer.same, Bool.or_eq_true, decide_eq_true_eq, patchedKey] at clashes
          obtain sameId | sameKey := clashes
          · refine alone other member ?_
            simp only [NetmapPeer.same, Bool.or_eq_true]
            exact .inl sameId
          · exact separate other member sameKey
        · obtain rfl | member := (amended other).mp member
          · rw [patchedKey]
            exact filled
          · exact others other member

/-- From unique peers an edit leads to unique peers exactly when it is safe. -/
theorem unique_apply_iff {peers : List NetmapPeer} (unique : Unique peers) (edit : PeerEdit) :
    Unique (edit.apply peers) ↔ edit.Safe peers := by
  obtain ⟨distinct, keyed⟩ := (unique_iff_distinct peers).mp unique
  cases edit with
  | snapshot nodes =>
      refine ⟨fun after => ⟨after.keys, after.ids⟩, fun safe => ⟨safe.1, safe.2, ?_⟩⟩
      intro peer member
      obtain ⟨node, _, usable⟩ := List.mem_filterMap.mp member
      exact parsePeer_keyed usable
  | change node =>
      simp only [PeerEdit.apply, PeerEdit.Safe, changePeer]
      cases usable : parsePeer node with
      | none => simp [unique]
      | some peer =>
          have kept : ∀ stored ∈ upsertPeer peers peer, stored.nodeKey ≠ .empty := by
            intro stored member
            obtain rfl | member := Table.mem_upsert member
            · exact parsePeer_keyed usable
            · exact keyed stored member
          have single : Table.Distinct NetmapPeer.same (upsertPeer peers peer) ↔
              (peers.filter peer.same).length ≤ 1 :=
            Table.distinct_upsert_iff NetmapPeer.same_comm distinct
          simp only [unique_iff_distinct, single, Option.mem_some_iff, forall_eq']
          exact ⟨And.left, fun few => ⟨few, kept⟩⟩
  | patch fields =>
      simp only [PeerEdit.apply, PeerEdit.Safe, patchPeer]
      cases addressed : patchTarget fields with
      | none => simp [unique]
      | some target =>
          dsimp only
          cases found : peers.find? (NetmapPeer.hasID target) with
          | none =>
              have skipped := List.find?_eq_none.mp found
              rw [Table.amend_of_none (by simpa using skipped)]
              refine ⟨fun _ other same stored hit => ?_, fun _ => unique⟩
              cases same
              rw [found] at hit
              cases hit
          | some stored =>
              rw [unique_patch_iff unique fields found]
              constructor
              · intro safe other same again hit
                cases same
                rw [found] at hit
                cases hit
                exact safe
              · exact fun safe => safe target rfl stored found
  | remove gone =>
      refine ⟨fun _ => trivial, fun _ => (unique_iff_distinct _).mpr ⟨?_, ?_⟩⟩
      · exact Table.distinct_eraseP distinct
      · exact fun peer member => keyed peer (List.mem_of_mem_eraseP member)

/-- Every edit of an accepted response is safe for the peers stored when it is made. -/
def SafeResponse (netmap : TSNetmap) (json : Bytes) : Prop :=
  ∀ root ∈ JsonParser.parse json, root.isObject = true →
    Run.Along PeerEdit.apply (fun peers edit => edit.Safe peers) netmap.peers (peerEdits root)

instance (netmap : TSNetmap) (json : Bytes) : Decidable (SafeResponse netmap json) :=
  inferInstanceAs (Decidable (∀ root ∈ JsonParser.parse json, _))

def afterResponse (netmap : TSNetmap) (json : Bytes) : TSNetmap :=
  (netmap.parse json).2

theorem unique_afterResponse (netmap : TSNetmap) (json : Bytes) (safe : SafeResponse netmap json)
    (unique : Unique netmap.peers) : Unique (afterResponse netmap json).peers := by
  obtain ⟨root, read, shaped, result⟩ | ⟨_, result⟩ := parse_cases netmap json
  · have along := safe root read shaped
    have after := Run.invariant_along
      (fun _ edit allowed held => (unique_apply_iff held edit).mpr allowed) along unique
    rw [← readPeers_eq_run] at after
    rw [afterResponse, result]
    exact after
  · rw [afterResponse, result]
    exact unique

/-- In a run of responses from the empty netmap whose edits are all safe, the stored peers
are unique after every response. -/
theorem netmap_uniqueness (responses : List Bytes)
    (safe : Run.Along afterResponse SafeResponse {} responses) (earlier later : List Bytes)
    (reached : responses = earlier ++ later) :
    Unique (TSNetmap.parseAll {} earlier).peers := by
  subst reached
  have initial : Unique ({} : TSNetmap).peers := ⟨by simp, by simp, by simp⟩
  exact Run.invariant_along unique_afterResponse safe.earlier initial

/-- The snapshot of a response lists peers with distinct keys and distinct non-zero IDs. -/
def DistinctSnapshot (json : Bytes) : Prop :=
  ∀ root ∈ JsonParser.parse json, ∀ nodes ∈ root.arrayMember "Peers",
    (PeerEdit.snapshot nodes).Safe []

instance (json : Bytes) : Decidable (DistinctSnapshot json) :=
  inferInstanceAs (Decidable (∀ root ∈ JsonParser.parse json, _))

/-- Node 2 gets a key no peer has. -/
def freshKey : Bytes :=
  ascii "\x7b\"PeersChanged\":[\x7b\"ID\":2,\"Key\":\"nodekey:cc\"\x7d]\x7d"

theorem netmap_uniqueness_freshKey : Unique (TSNetmap.parseAll {} [twoPeers, freshKey]).peers :=
  netmap_uniqueness [twoPeers, freshKey] (by decide +kernel) [twoPeers, freshKey] [] rfl

/-- Node 2 gets the key of node 1: the change matches one peer by ID and another by key. -/
def takenKey : Bytes :=
  ascii "\x7b\"PeersChanged\":[\x7b\"ID\":2,\"Key\":\"nodekey:aa\"\x7d]\x7d"

theorem upsert_duplicates_id :
    ¬ ∀ responses : List Bytes, (∀ json ∈ responses, DistinctSnapshot json) →
      Unique (TSNetmap.parseAll {} responses).peers := by
  intro claim
  have unique := claim [twoPeers, takenKey] (by decide +kernel)
  have duplicated :
      ¬ (((TSNetmap.parseAll {} [twoPeers, takenKey]).peers.map NetmapPeer.nodeID).filter
        (· ≠ 0)).Nodup := by
    decide +kernel
  exact duplicated unique.ids

end Sotoportego.Tailscale
