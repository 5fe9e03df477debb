import Mathlib.Data.Fintype.EquivFin
import Sotoportego.Tailscale.ListingProperties
import Sotoportego.Tailscale.MagicDnsProperties
import Sotoportego.Tailscale.NetmapProperties
import Sotoportego.Tailscale.ReconcileProperties
import Sotoportego.Tailscale.SessionState

/-!
# The sections of a response

A section replaces what an earlier response left, and a section that is missing leaves it. Two
sessions show the same after the same responses exactly when they agree on what these omit.
-/

set_option autoImplicit false

namespace Sotoportego.Tailscale

open Octets CText Listing

/-! ## Sections -/

inductive Section where
  /-- Any response that is accepted. -/
  | reply
  /-- The peers, in the first response that is accepted. -/
  | peers
  | node
  | relays
  | dns
  /-- A DNS configuration with a domain. -/
  | domain
  deriving DecidableEq

def JsonValue.carries (root : JsonValue) : Section → Bool
  | .reply => true
  | .peers => (root.arrayMember "Peers").isSome
  | .node => ((root.find "Node").bind (JsonValue.find "Addresses")).isSome
  | .relays =>
      match (root.find "DERPMap").bind (JsonValue.find "Regions") with
      | some (.object _) => true
      | _ => false
  | .dns =>
      match root.find "DNSConfig" with
      | some (.object _) => true
      | _ => false
  | .domain => (readDns root {}).domains ≠ []

/-- A section that is carried replaces what was there, and one that is not leaves it. -/
def Replaces {α : Type} (read : α → α) (carried : Bool) : Prop :=
  if carried then ∀ left right, read left = read right else ∀ value, read value = value

theorem Replaces.alike {α : Type} {read : α → α} {carried : Bool} (replaces : Replaces read carried)
    {left right : α} (same : carried = false → left = right) : read left = read right := by
  cases carried with
  | true => exact replaces left right
  | false => rw [same rfl]

theorem Replaces.kept {α : Type} {read : α → α} {carried : Bool} (replaces : Replaces read carried)
    (missing : carried = false) (value : α) : read value = value := by
  subst missing
  exact replaces value

theorem replaces_node (root : JsonValue) : Replaces (readSelf root) (root.carries .node) := by
  unfold Replaces JsonValue.carries readSelf
  cases (root.find "Node").bind (JsonValue.find "Addresses") with
  | none => exact fun _ => rfl
  | some addresses => exact fun _ _ => rfl

theorem replaces_relays (root : JsonValue) : Replaces (readDerp root) (root.carries .relays) := by
  unfold Replaces JsonValue.carries readDerp
  cases (root.find "DERPMap").bind (JsonValue.find "Regions") with
  | none => exact fun _ => rfl
  | some regions =>
      cases regions with
      | object entries => exact fun _ _ => rfl
      | _ => exact fun _ => rfl

theorem replaces_dns (root : JsonValue) : Replaces (readDns root) (root.carries .dns) := by
  unfold Replaces JsonValue.carries readDns
  cases root.find "DNSConfig" with
  | none => exact fun _ => rfl
  | some config =>
      cases config with
      | object members => exact fun _ _ => rfl
      | _ => exact fun _ => rfl

theorem carries_domain {root : JsonValue} (carried : root.carries .domain = true) :
    root.carries .dns = true := by
  by_contra missing
  have empty := (replaces_dns root).kept (Bool.eq_false_iff.mpr missing) {}
  rw [JsonValue.carries, empty] at carried
  exact of_decide_eq_true carried rfl

/-- Deltas work on what a snapshot has listed. -/
theorem readPeers_alike {root : JsonValue} {left right : List NetmapPeer}
    (same : root.carries .peers = false → left = right) :
    readPeers root left = readPeers root right := by
  have first : readSnapshot root left = readSnapshot root right := by
    unfold readSnapshot
    cases listed : root.arrayMember "Peers" with
    | some nodes => rfl
    | none => exact same (by rw [JsonValue.carries, listed]; rfl)
  rw [readPeers, readPeers, first]

/-- These accepted responses carry the section. -/
def Carried : Section → List JsonValue → Prop
  | .peers, root :: _ => root.carries .peers = true
  | .peers, [] => False
  | kind, roots => ∃ root ∈ roots, root.carries kind = true

instance : ∀ kind roots, Decidable (Carried kind roots)
  | .peers, root :: _ => inferInstanceAs (Decidable (root.carries .peers = true))
  | .peers, [] => inferInstanceAs (Decidable False)
  | .reply, roots | .node, roots | .relays, roots | .dns, roots | .domain, roots =>
      inferInstanceAs (Decidable (∃ root ∈ roots, _))

theorem not_carried_nil {kind : Section} : ¬ Carried kind [] := by
  cases kind <;> simp [Carried]

theorem Carried.later {kind : Section} {root : JsonValue} {roots : List JsonValue}
    (carried : Carried kind (root :: roots)) (missing : root.carries kind = false) :
    Carried kind roots := by
  cases kind with
  | peers => exact absurd carried (Bool.eq_false_iff.mp missing)
  | _ =>
      obtain ⟨other, member, carries⟩ := carried
      obtain rfl | member := List.mem_cons.mp member
      · exact absurd carries (Bool.eq_false_iff.mp missing)
      · exact ⟨other, member, carries⟩

/-! ## A response on two sessions -/

/-- What an accepted response makes of a session; `none` is an overrun in `Update`. -/
def SessionState.answer (session : SessionState) (root : JsonValue) : Option SessionState :=
  (session.peers.update (session.netmap.apply root)).map fun updated =>
    { netmap := session.netmap.apply root
      peers := updated.1
      dns := session.dns.loadFromNetmap (session.netmap.apply root)
      selfIP := (session.netmap.apply root).selfIPv4 }

/-- The table and the self address are those of the netmap. -/
structure Derived (session : SessionState) : Prop where
  dns : session.dns.loadFromNetmap session.netmap = session.dns
  selfIP : session.selfIP = session.netmap.selfIPv4

theorem derived_answer {session next : SessionState} {root : JsonValue}
    (answered : session.answer root = some next) : Derived next := by
  obtain ⟨updated, _, rfl⟩ := Option.map_eq_some_iff.mp answered
  refine ⟨?_, rfl⟩
  simp only [MagicDns.loadFromNetmap_eq]
  cases (session.netmap.apply root).dns.domains <;> rfl

/-- Two sessions that differ at most in the sections still to come. What an update keeps of the
managed peers comes with none of them, and their metadata with any. -/
structure Alike (coming : Section → Prop) (left right : SessionState) : Prop where
  node : ¬ coming .node → left.netmap.selfAddresses = right.netmap.selfAddresses
  relays : ¬ coming .relays → left.netmap.derpRegions = right.netmap.derpRegions
  dns : ¬ coming .dns → ¬ coming .domain → left.netmap.dns = right.netmap.dns
  domain : ¬ coming .domain → left.dns.domain = right.dns.domain
  peers : ¬ coming .peers → left.netmap.peers = right.netmap.peers
  managed : left.peers.peers.map TSPeerSet.core = right.peers.peers.map TSPeerSet.core
  metadata : (∀ kind, ¬ coming kind) → left.peers = right.peers

theorem update_congr (set : TSPeerSet) {left right : TSNetmap} (same : left.peers = right.peers) :
    set.update left = set.update right := by
  unfold TSPeerSet.update
  rw [same]

section Answers

variable {coming : Section → Prop} {left right : SessionState} {root : JsonValue}

/-- The domain of a derived table is replaced by that of a response and stays otherwise. -/
theorem domain_answer {session next : SessionState} (derived : Derived session)
    (answered : session.answer root = some next) :
    next.dns.domain =
      if root.carries .dns then
        match (readDns root {}).domains with
        | domain :: _ => lower (.ofBytes domain)
        | [] => session.dns.domain
      else session.dns.domain := by
  obtain ⟨updated, _, rfl⟩ := Option.map_eq_some_iff.mp answered
  have replaces := replaces_dns root
  rw [MagicDns.loadFromNetmap_eq]
  cases carried : root.carries .dns with
  | true =>
      rw [carried] at replaces
      rw [if_pos rfl, ← replaces session.netmap.dns {}]
      rfl
  | false =>
      have kept : (session.netmap.apply root).dns = session.netmap.dns :=
        replaces.kept carried session.netmap.dns
      have own := congrArg MagicDns.domain derived.dns
      rw [MagicDns.loadFromNetmap_eq] at own
      rw [kept]
      exact own

/-- One accepted response, the first of which lists the peers if any does. -/
theorem alike_answer (alike : Alike coming left right) (leftDerived : Derived left)
    (rightDerived : Derived right) (listed : coming .peers → root.carries .peers = true) :
    Option.Rel (Alike fun kind => coming kind ∧ root.carries kind = false)
      (left.answer root) (right.answer root) := by
  have peers : readPeers root left.netmap.peers = readPeers root right.netmap.peers := by
    refine readPeers_alike fun missing => alike.peers fun waiting => ?_
    rw [listed waiting] at missing
    cases missing
  have updates : left.peers.update (left.netmap.apply root) =
      right.peers.update (right.netmap.apply root) := by
    rw [TSPeerSet.update_of_cores alike.managed]
    exact update_congr _ peers
  cases result : right.peers.update (right.netmap.apply root) with
  | none =>
      rw [SessionState.answer, SessionState.answer, updates, result]
      exact .none
  | some updated =>
      have leftNext : left.answer root = some _ := congrArg (Option.map _) (updates.trans result)
      have rightNext : right.answer root = some _ := congrArg (Option.map _) result
      have leftDomain := domain_answer leftDerived leftNext
      have rightDomain := domain_answer rightDerived rightNext
      rw [leftNext, rightNext]
      refine .some ⟨fun settled => ?_, fun settled => ?_, fun settled named => ?_, fun settled => ?_,
        fun _ => peers, rfl, fun _ => rfl⟩
      · exact (replaces_node root).alike fun missing =>
          alike.node fun waiting => settled ⟨waiting, missing⟩
      · exact (replaces_relays root).alike fun missing =>
          alike.relays fun waiting => settled ⟨waiting, missing⟩
      · refine (replaces_dns root).alike fun missing =>
          alike.dns (fun waiting => settled ⟨waiting, missing⟩) fun waiting => named ⟨waiting, ?_⟩
        by_contra carried
        rw [carries_domain (Bool.eq_true_of_not_eq_false carried)] at missing
        cases missing
      · rw [leftDomain, rightDomain]
        have before (missing : root.carries .domain = false) : left.dns.domain = right.dns.domain :=
          alike.domain fun waiting => settled ⟨waiting, missing⟩
        split
        · cases domains : (readDns root {}).domains with
          | cons domain _ => rfl
          | nil => exact before (by rw [JsonValue.carries, domains]; rfl)
        next missing =>
          refine before (Bool.eq_false_iff.mpr fun carried => missing (carries_domain carried))

/-- Sessions to which nothing has to come are equal. -/
theorem alike_eq (alike : Alike coming left right) (leftDerived : Derived left)
    (rightDerived : Derived right) (none : ∀ kind, ¬ coming kind) : left = right := by
  have netmap : left.netmap = right.netmap := by
    have node := alike.node (none _)
    have peers := alike.peers (none _)
    have relays := alike.relays (none _)
    have dns := alike.dns (none _) (none _)
    generalize left.netmap = first at node peers relays dns ⊢
    generalize right.netmap = second at node peers relays dns ⊢
    cases first
    cases second
    cases node
    cases peers
    cases relays
    cases dns
    rfl
  have dns : left.dns = right.dns := by
    rw [← leftDerived.dns, ← rightDerived.dns, netmap, MagicDns.loadFromNetmap_eq,
      MagicDns.loadFromNetmap_eq, alike.domain (none _)]
  have selfIP : left.selfIP = right.selfIP := by
    rw [leftDerived.selfIP, rightDerived.selfIP, netmap]
  have peers := alike.metadata none
  cases left
  cases right
  cases netmap
  cases dns
  cases selfIP
  cases peers
  rfl

/-- Where everything that is to come does come, the sessions are equal in the end. -/
theorem alike_run (alike : Alike coming left right) (leftDerived : Derived left)
    (rightDerived : Derived right) {roots : List JsonValue}
    (every : ∀ kind, coming kind → Carried kind roots) :
    roots.foldlM SessionState.answer left = roots.foldlM SessionState.answer right := by
  induction roots generalizing coming left right with
  | nil =>
      have none (kind : Section) : ¬ coming kind :=
        fun waiting => not_carried_nil (every kind waiting)
      rw [alike_eq alike leftDerived rightDerived none]
  | cons root roots continued =>
      have listed (waiting : coming .peers) : root.carries .peers = true := every .peers waiting
      have one := alike_answer alike leftDerived rightDerived listed
      rw [List.foldlM_cons, List.foldlM_cons]
      cases first : left.answer root with
      | none =>
          rw [first] at one
          generalize right.answer root = second at one ⊢
          cases one
          rfl
      | some leftNext =>
          cases second : right.answer root with
          | none =>
              rw [first, second] at one
              cases one
          | some rightNext =>
              rw [first, second] at one
              obtain ⟨next⟩ := one
              exact continued next (derived_answer first) (derived_answer second)
                fun kind waiting => (every kind waiting.1).later waiting.2

end Answers

/-! ## Responses that tell sessions apart -/

/-- The object of a response that is accepted. -/
def accepted (json : Bytes) : Option JsonValue :=
  (JsonParser.parse json).filter JsonValue.isObject

theorem applyMapResponse_eq (session : SessionState) (json : Bytes) :
    session.applyMapResponse json =
      match accepted json with
      | some root => (session.answer root).map (Prod.mk true)
      | none => some (false, session) := by
  unfold SessionState.applyMapResponse accepted
  obtain ⟨root, read, shaped, parsed⟩ | ⟨other, refused⟩ := parse_cases session.netmap json
  · rw [parsed, read, Option.filter_some_pos shaped]
    simp only [SessionState.answer, Option.map_map]
    rfl
  · have none : (JsonParser.parse json).filter JsonValue.isObject = none :=
      Option.filter_eq_none_iff.mpr fun root read => by simp [other root read]
    rw [refused, none]

def acceptedRoots (responses : List Bytes) : List JsonValue :=
  responses.filterMap accepted

/-- A response with every section but one. -/
def probe : Section → Bytes
  | .reply => []
  | .peers => ascii ("\x7b\"Node\":\x7b\"Addresses\":[]\x7d,\"DERPMap\":\x7b\"Regions\":\x7b\x7d\x7d," ++
      "\"DNSConfig\":\x7b\"Domains\":[\"a\"]\x7d\x7d")
  | .node => ascii ("\x7b\"Peers\":[],\"DERPMap\":\x7b\"Regions\":\x7b\x7d\x7d," ++
      "\"DNSConfig\":\x7b\"Domains\":[\"a\"]\x7d\x7d")
  | .relays => ascii ("\x7b\"Peers\":[],\"Node\":\x7b\"Addresses\":[]\x7d," ++
      "\"DNSConfig\":\x7b\"Domains\":[\"a\"]\x7d\x7d")
  | .dns => ascii ("\x7b\"Peers\":[],\"Node\":\x7b\"Addresses\":[]\x7d," ++
      "\"DERPMap\":\x7b\"Regions\":\x7b\x7d\x7d\x7d")
  | .domain => ascii ("\x7b\"Peers\":[],\"Node\":\x7b\"Addresses\":[]\x7d," ++
      "\"DERPMap\":\x7b\"Regions\":\x7b\x7d\x7d,\"DNSConfig\":\x7b\x7d\x7d")

def probed (missing : Section) : JsonValue :=
  (accepted (probe missing)).getD .null

/-- What a response with every section but one has to say. -/
structure Probing (missing : Section) (root : JsonValue) : Prop where
  carries : ∀ kind, kind ≠ missing → ¬ (missing = .dns ∧ kind = .domain) → root.carries kind = true
  lacks : root.carries missing = false
  emptied : missing ≠ .peers → ∀ peers, readPeers root peers = []
  kept : missing = .peers → ∀ peers, readPeers root peers = peers

theorem accepted_probe {missing : Section} (omitted : missing ≠ .reply) :
    ∃ root, accepted (probe missing) = some root ∧ Probing missing root := by
  have checked : (accepted (probe missing)).isSome = true ∧
      ([.reply, .peers, .node, .relays, .dns, .domain].all fun kind =>
        (probed missing).carries kind =
          decide (kind ≠ missing ∧ ¬ (missing = .dns ∧ kind = .domain))) ∧
      (missing ≠ .peers → readPeers (probed missing) [] = []) ∧
      ["Peers", "PeersChanged", "PeersChangedPatch", "PeersRemoved"].all fun name =>
        missing ≠ .peers || ((probed missing).arrayMember name).isNone := by
    cases missing with
    | reply => exact absurd rfl omitted
    | _ => decide +kernel
  obtain ⟨present, carries, emptied, deltas⟩ := checked
  obtain ⟨root, found⟩ := Option.isSome_iff_exists.mp present
  have same : probed missing = root := by rw [probed, found, Option.getD_some]
  rw [same] at carries emptied deltas
  have each (kind : Section) : root.carries kind =
      decide (kind ≠ missing ∧ ¬ (missing = .dns ∧ kind = .domain)) :=
    of_decide_eq_true (List.all_eq_true.mp carries kind (by cases kind <;> decide))
  refine ⟨root, found, fun kind other domain => ?_, ?_, fun listed before => ?_, ?_⟩
  · rw [each]
    exact decide_eq_true ⟨other, domain⟩
  · rw [each]
    exact decide_eq_false fun absent => absent.1 rfl
  · have listing : root.carries .peers = true := by
      rw [each]
      exact decide_eq_true ⟨listed.symm, by simp⟩
    rw [← emptied listed]
    refine readPeers_alike fun missing => ?_
    rw [listing] at missing
    cases missing
  · rintro rfl peers
    have none (name : String)
        (delta : name ∈ ["Peers", "PeersChanged", "PeersChangedPatch", "PeersRemoved"]) :
        root.arrayMember name = none := by
      simpa using List.all_eq_true.mp deltas name delta
    rw [readPeers, readSnapshot, none _ (by simp), readChanged, none _ (by simp), readPatches,
      none _ (by simp), readRemoved, none _ (by simp)]

/-! ## Sessions that responses lead to -/

/-- Every usable entry of the netmap has one managed peer. -/
structure Settled (session : SessionState) : Prop extends Derived session where
  apart : (TSPeerSet.keys session.peers.peers).Nodup
  managed : ∀ key, key ∈ TSPeerSet.keys session.peers.peers ↔
    key ≠ .empty ∧ key ∈ session.netmap.peers.map NetmapPeer.nodeKey

section Sessions

variable {session next left right : SessionState} {root : JsonValue}

theorem answer_netmap (answered : session.answer root = some next) :
    next.netmap = session.netmap.apply root := by
  obtain ⟨updated, _, rfl⟩ := Option.map_eq_some_iff.mp answered
  rfl

theorem settled_answer (answered : session.answer root = some next) : Settled next := by
  have derived := derived_answer answered
  obtain ⟨updated, reconciled, rfl⟩ := Option.map_eq_some_iff.mp answered
  have spec := TSPeerSet.update_spec session.peers (session.netmap.apply root)
  rw [reconciled] at spec
  exact { toDerived := derived, apart := spec.1.1, managed := spec.1.2 }

/-- A response that lists no new peer is answered. -/
theorem answer_of_managed (settled : Settled session)
    (known : ∀ peer ∈ readPeers root session.netmap.peers, peer ∈ session.netmap.peers) :
    ∃ next, session.answer root = some next := by
  have once : ∀ key, key ≠ .empty → key ∉ TSPeerSet.keys session.peers.peers →
      ((session.netmap.apply root).peers.map NetmapPeer.nodeKey).count key ≤ 1 := by
    intro key filled unmanaged
    rw [List.count_eq_zero_of_not_mem]
    · exact Nat.zero_le 1
    · intro listed
      obtain ⟨peer, member, rfl⟩ := List.mem_map.mp listed
      exact unmanaged ((settled.managed _).mpr ⟨filled, List.mem_map_of_mem (known peer member)⟩)
  obtain ⟨result, counts, updated, _⟩ :=
    (TSPeerSet.update_reconciles_iff session.peers (session.netmap.apply root)).mpr once
  exact ⟨_, congrArg (Option.map _) updated⟩

/-- An answer to a response after which each entry has a key of its own. -/
theorem answer_distinct {entries : List NetmapPeer} (settled : Settled session)
    (read : readPeers root session.netmap.peers = entries)
    (filled : ∀ entry ∈ entries, entry.nodeKey ≠ .empty)
    (once : (TSPeerSet.reconciler.itemKeys entries).Nodup) :
    ∃ next, session.answer root = some next ∧ next.netmap.peers = entries ∧
      next.peers.peers = TSPeerSet.reconciler.reconciled entries session.peers.peers := by
  have usable : TSPeerSet.usable entries = entries :=
    List.filter_eq_self.mpr fun entry member => decide_eq_true (filled entry member)
  have listedOnce : (TSPeerSet.listedKeys (session.netmap.apply root).peers).Nodup := by
    rwa [← TSPeerSet.itemKeys_usable, show (session.netmap.apply root).peers = entries from read,
      usable]
  have updated := TSPeerSet.update_distinct settled.apart listedOnce
  rw [show (session.netmap.apply root).peers = entries from read, usable] at updated
  exact ⟨_, congrArg (Option.map _) updated, read, rfl⟩

/-- The peers that a listing leads to, with a response without peers behind it. -/
theorem listing_run {key : CString} {keys : List CString} (settled : Settled session)
    (filled : ∀ name ∈ key :: keys, name ≠ .empty) (once : (key :: keys).Nodup)
    (probing : Probing .peers root) :
    ∃ next, [listed key keys, root].foldlM SessionState.answer session = some next ∧
      next.peers.peers = TSPeerSet.reconciler.reconciled ((key :: keys).map peerEntry)
        session.peers.peers := by
  have named : ∀ entry ∈ (key :: keys).map peerEntry, entry.nodeKey ≠ .empty := by
    intro entry member
    obtain ⟨name, listed, rfl⟩ := List.mem_map.mp member
    exact filled name listed
  have distinct : (TSPeerSet.reconciler.itemKeys ((key :: keys).map peerEntry)).Nodup := by
    have names : TSPeerSet.reconciler.itemKeys ((key :: keys).map peerEntry) = key :: keys := by
      rw [Reconciler.itemKeys, List.map_map]
      exact List.map_id (key :: keys)
    rwa [names]
  obtain ⟨middle, first, entries, peers⟩ :=
    answer_distinct settled (readPeers_listed filled _) named distinct
  obtain ⟨next, second, -, again⟩ :=
    answer_distinct (settled_answer first) ((probing.kept rfl _).trans entries) named distinct
  refine ⟨next, ?_, ?_⟩
  · rw [List.foldlM_cons, first, Option.bind_eq_bind, Option.bind_some, List.foldlM_cons, second]
    rfl
  · rw [again, peers, Reconciler.reconciled_reconciled distinct]

/-- A listing keeps the cores of the peers it lists, and enrolls the others behind them. -/
theorem cores_listed {key : CString} {keys : List CString} {peers : List ManagedPeer}
    (every : ∀ peer ∈ peers, peer.nodeKeyHex ∈ keys) (fresh : key ∉ keys) :
    ∃ others, (∀ core ∈ others, core.1 ∈ keys) ∧
      (TSPeerSet.reconciler.reconciled ((key :: keys).map peerEntry) peers).map TSPeerSet.core =
        peers.map TSPeerSet.core ++
          TSPeerSet.core (ManagedPeer.enroll (peerEntry key)) :: others := by
  have names : TSPeerSet.reconciler.itemKeys ((key :: keys).map peerEntry) = key :: keys := by
    rw [Reconciler.itemKeys, List.map_map]
    exact List.map_id (key :: keys)
  have stored : key ∉ TSPeerSet.reconciler.rowKeys peers := by
    intro member
    obtain ⟨peer, present, same⟩ := List.mem_map.mp member
    exact fresh (same ▸ every peer present)
  have kept : peers.filter (fun peer => TSPeerSet.reconciler.rowKey peer ∈ key :: keys) = peers :=
    List.filter_eq_self.mpr fun peer present =>
      decide_eq_true (List.mem_cons_of_mem key (every peer present))
  have refreshed (peer : ManagedPeer) :
      TSPeerSet.core (TSPeerSet.reconciler.refreshed ((key :: keys).map peerEntry) peer) =
        TSPeerSet.core peer := by
    unfold Reconciler.refreshed
    cases found : TSPeerSet.reconciler.lookup ((key :: keys).map peerEntry)
        (TSPeerSet.reconciler.rowKey peer) with
    | none => rfl
    | some entry =>
        obtain ⟨name, _, rfl⟩ := List.mem_map.mp (Reconciler.lookup_some found).1
        rfl
  have unmatched : TSPeerSet.reconciler.unmatched (TSPeerSet.reconciler.rowKeys peers)
      ((key :: keys).map peerEntry) = peerEntry key ::
        TSPeerSet.reconciler.unmatched (TSPeerSet.reconciler.rowKeys peers) (keys.map peerEntry) :=
    List.filter_cons_of_pos (decide_eq_true stored)
  refine ⟨(TSPeerSet.reconciler.unmatched (TSPeerSet.reconciler.rowKeys peers)
    (keys.map peerEntry)).map fun entry => TSPeerSet.core (ManagedPeer.enroll entry), ?_, ?_⟩
  · intro core member
    obtain ⟨entry, unlisted, rfl⟩ := List.mem_map.mp member
    obtain ⟨name, listed, rfl⟩ := List.mem_map.mp (List.mem_filter.mp unlisted).1
    exact listed
  · rw [Reconciler.reconciled, names, kept, unmatched, List.map_append, List.map_map, List.map_map]
    exact congrArg₂ _ (List.map_congr_left fun peer _ => refreshed peer) rfl

theorem carries_listed (key : CString) (keys : List CString) :
    (listed key keys).carries .peers = true := by
  rw [JsonValue.carries, arrayMember_listed]
  rfl

/-- Two tables to which a listing does the same have the same cores. -/
theorem cores_of_listing {key : CString} {keys : List CString} {first second : List ManagedPeer}
    (leftEvery : ∀ peer ∈ first, peer.nodeKeyHex ∈ keys)
    (rightEvery : ∀ peer ∈ second, peer.nodeKeyHex ∈ keys) (fresh : key ∉ keys)
    (same : TSPeerSet.reconciler.reconciled ((key :: keys).map peerEntry) first =
      TSPeerSet.reconciler.reconciled ((key :: keys).map peerEntry) second) :
    first.map TSPeerSet.core = second.map TSPeerSet.core := by
  obtain ⟨leftOthers, leftListed, leftCores⟩ := cores_listed leftEvery fresh
  obtain ⟨rightOthers, _, rightCores⟩ := cores_listed rightEvery fresh
  rw [same, rightCores] at leftCores
  refine ((List.append_cons_inj_of_notMem ?_ ?_).mp leftCores.symm).1
  · intro stored
    obtain ⟨peer, present, equal⟩ := List.mem_map.mp stored
    have named : peer.nodeKeyHex = key := congrArg Prod.fst equal
    exact fresh (named ▸ leftEvery peer present)
  · exact fun later => fresh (leftListed _ later)

theorem exists_fresh (used : List CString) : ∃ name : CString, name ≠ .empty ∧ name ∉ used := by
  let named (count : Nat) : CString := ⟨List.replicate count 97, by simp [List.mem_replicate]⟩
  have injective : Function.Injective named := fun first second same => by
    simpa [named] using congrArg List.length (congrArg CString.bytes same)
  have : Infinite CString := Infinite.of_injective named injective
  obtain ⟨name, unused⟩ := Infinite.exists_notMem_finset (CString.empty :: used).toFinset
  rw [List.mem_toFinset, List.mem_cons, not_or] at unused
  exact ⟨name, unused⟩

/-! ## What responses tell apart -/

theorem carried_singleton {kind : Section} (carries : root.carries kind = true) :
    Carried kind [root] := by
  cases kind with
  | peers => exact carries
  | _ => exact ⟨root, List.mem_singleton_self root, carries⟩

theorem carried_probe {missing kind : Section} (omitted : missing ≠ .reply)
    (other : kind ≠ missing) (domain : ¬ (missing = .dns ∧ kind = .domain)) :
    Carried kind (acceptedRoots [probe missing]) := by
  obtain ⟨root, found, probing⟩ := accepted_probe omitted
  have single : acceptedRoots [probe missing] = [root] := by
    simp [acceptedRoots, found]
  rw [single]
  exact carried_singleton (probing.carries kind other domain)

/-- A response with every section but one is answered, and both answers are equal if they are
shown to be. -/
theorem probe_answered {missing : Section} (omitted : missing ≠ .reply)
    (leftSettled : Settled left)
    (same : (acceptedRoots [probe missing]).foldlM SessionState.answer left =
      (acceptedRoots [probe missing]).foldlM SessionState.answer right) :
    ∃ root next, Probing missing root ∧ left.answer root = some next ∧
      right.answer root = some next := by
  obtain ⟨root, found, probing⟩ := accepted_probe omitted
  have known : ∀ peer ∈ readPeers root left.netmap.peers, peer ∈ left.netmap.peers := by
    intro peer member
    by_cases listed : missing = .peers
    · rwa [probing.kept listed] at member
    · rw [probing.emptied listed] at member
      cases member
  obtain ⟨next, answered⟩ := answer_of_managed leftSettled known
  simp only [acceptedRoots, List.filterMap_cons, List.filterMap_nil, found, List.foldlM_cons,
    List.foldlM_nil, bind_pure] at same
  exact ⟨root, next, probing, answered, same ▸ answered⟩

/-- Sessions that every response with all sections leaves equal manage the same peers: the
response that tells them apart lists those of both, and a new one behind them. -/
theorem cores_of_shown (leftSettled : Settled left) (rightSettled : Settled right)
    (shown : ∀ responses : List Bytes, (∀ kind, Carried kind (acceptedRoots responses)) →
      (acceptedRoots responses).foldlM SessionState.answer left =
        (acceptedRoots responses).foldlM SessionState.answer right) :
    left.peers.peers.map TSPeerSet.core = right.peers.peers.map TSPeerSet.core := by
  let keys := (TSPeerSet.keys left.peers.peers ++ TSPeerSet.keys right.peers.peers).dedup
  have member {name : CString} : name ∈ keys ↔
      name ∈ TSPeerSet.keys left.peers.peers ∨ name ∈ TSPeerSet.keys right.peers.peers :=
    List.mem_dedup.trans List.mem_append
  obtain ⟨key, solid, fresh⟩ := exists_fresh keys
  have filled : ∀ name ∈ key :: keys, name ≠ .empty := by
    intro name listed
    obtain rfl | stored := List.mem_cons.mp listed
    · exact solid
    · obtain leftStored | rightStored := member.mp stored
      · exact ((leftSettled.managed name).mp leftStored).1
      · exact ((rightSettled.managed name).mp rightStored).1
  have once : (key :: keys).Nodup := List.nodup_cons.mpr ⟨fresh, List.nodup_dedup _⟩
  obtain ⟨root, found, probing⟩ := accepted_probe (show Section.peers ≠ .reply by simp)
  have parsed : accepted (listing key keys) = some (listed key keys) := by
    rw [accepted, parse_listing]
    rfl
  have roots : acceptedRoots [listing key keys, probe .peers] =
      [listed key keys, root] := by
    simp [acceptedRoots, parsed, found]
  have carried (kind : Section) : Carried kind [listed key keys, root] := by
    cases kind with
    | peers => exact carries_listed key keys
    | _ => exact ⟨root, by simp, probing.carries _ (by simp) (by simp)⟩
  obtain ⟨leftNext, leftRun, leftPeers⟩ := listing_run leftSettled filled once probing
  obtain ⟨rightNext, rightRun, rightPeers⟩ := listing_run rightSettled filled once probing
  have same := shown _ (roots ▸ carried)
  rw [roots, leftRun, rightRun] at same
  cases same
  exact cores_of_listing (fun peer stored => member.mpr (.inl (List.mem_map_of_mem stored)))
    (fun peer stored => member.mpr (.inr (List.mem_map_of_mem stored))) fresh
    (leftPeers.symm.trans rightPeers)

/-- Sessions that the same responses leave equal, as long as these carry what is to come, agree
on everything else. -/
theorem alike_of_shown {coming : Section → Prop} (leftSettled : Settled left)
    (rightSettled : Settled right)
    (shown : ∀ responses : List Bytes,
      (∀ kind, coming kind → Carried kind (acceptedRoots responses)) →
        (acceptedRoots responses).foldlM SessionState.answer left =
          (acceptedRoots responses).foldlM SessionState.answer right) :
    Alike coming left right := by
  have probing {missing : Section} (omitted : missing ≠ .reply) (absent : ¬ coming missing)
      (domain : missing = .dns → ¬ coming .domain) :
      ∃ root next, Probing missing root ∧ left.answer root = some next ∧
        right.answer root = some next := by
    refine probe_answered omitted leftSettled (shown _ fun kind waiting => ?_)
    refine carried_probe omitted ?_ ?_
    · rintro rfl
      exact absent waiting
    · rintro ⟨unconfigured, rfl⟩
      exact domain unconfigured waiting
  have netmaps {root : JsonValue} {next : SessionState} (leftAnswered : left.answer root = some next)
      (rightAnswered : right.answer root = some next) :
      left.netmap.apply root = right.netmap.apply root :=
    (answer_netmap leftAnswered).symm.trans (answer_netmap rightAnswered)
  constructor
  case node =>
    intro absent
    obtain ⟨root, next, probing, leftNext, rightNext⟩ := probing (by simp) absent (by simp)
    have same := congrArg TSNetmap.selfAddresses (netmaps leftNext rightNext)
    have kept := (replaces_node root).kept probing.lacks
    exact (kept _).symm.trans (same.trans (kept _))
  case relays =>
    intro absent
    obtain ⟨root, next, probing, leftNext, rightNext⟩ := probing (by simp) absent (by simp)
    have same := congrArg TSNetmap.derpRegions (netmaps leftNext rightNext)
    have kept := (replaces_relays root).kept probing.lacks
    exact (kept _).symm.trans (same.trans (kept _))
  case dns =>
    intro absent domain
    obtain ⟨root, next, probing, leftNext, rightNext⟩ := probing (by simp) absent fun _ => domain
    have same := congrArg TSNetmap.dns (netmaps leftNext rightNext)
    have kept := (replaces_dns root).kept probing.lacks
    exact (kept _).symm.trans (same.trans (kept _))
  case domain =>
    intro absent
    obtain ⟨root, next, probing, leftNext, rightNext⟩ := probing (by simp) absent (by simp)
    have none : (readDns root {}).domains = [] := by
      simpa [JsonValue.carries] using probing.lacks
    have leftDomain := domain_answer leftSettled.toDerived leftNext
    have rightDomain := domain_answer rightSettled.toDerived rightNext
    rw [none, ite_self] at leftDomain rightDomain
    exact leftDomain.symm.trans rightDomain
  case peers =>
    intro absent
    obtain ⟨root, next, probing, leftNext, rightNext⟩ := probing (by simp) absent (by simp)
    have same := congrArg TSNetmap.peers (netmaps leftNext rightNext)
    have kept := probing.kept rfl
    exact (kept _).symm.trans (same.trans (kept _))
  case managed =>
    exact cores_of_shown leftSettled rightSettled fun responses every =>
      shown responses fun kind _ => every kind
  case metadata =>
    intro none
    have same := shown [] fun kind waiting => absurd waiting (none kind)
    exact congrArg SessionState.peers (Option.some.inj same)

end Sessions

end Sotoportego.Tailscale
