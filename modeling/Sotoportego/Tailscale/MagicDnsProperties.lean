import Sotoportego.Lib.Run
import Sotoportego.Tailscale.MagicDns

/-!
# What the host table depends on

Loading a map replaces the hosts, but a map without a DNS domain leaves the domain of the
table alone. The answers depend on the map alone exactly when the map brings a domain or has
no host that could be asked for below one.
-/

set_option autoImplicit false

namespace Sotoportego.Tailscale

open Octets CText

/-! ## Names in queries -/

/-- A label as it is compared: 1 to 63 octets, lowercase. -/
def Label (label : Bytes) : Prop :=
  label ≠ [] ∧ label.length < 64 ∧ label.map toLower = label

/-- The name with one more label. -/
def joinLabel (name label : Bytes) : Bytes :=
  (if name = [] then [] else name ++ [46]) ++ label

/-- A name a query can spell. -/
def Spelled (name : Bytes) : Prop :=
  ∃ labels : List Bytes, (∀ label ∈ labels, Label label) ∧ name = labels.foldl joinLabel []

theorem plain_size_iff (size : UInt8) : size &&& 0xc0 = 0 ↔ size.toNat < 64 := by
  have every : ∀ value : Fin 256, UInt8.ofNat value &&& 0xc0 = 0 ↔ value.val < 64 := by decide +kernel
  simpa using every ⟨size.toNat, size.toNat_lt⟩

theorem lowered_again (text : Bytes) : (text.map toLower).map toLower = text.map toLower := by
  rw [List.map_map]
  exact List.map_congr_left fun octet _ => toLower_toLower octet

theorem decodeQname_labels {buf name out rest : Bytes}
    (decoded : decodeQname buf name = some (out, rest)) :
    ∃ labels : List Bytes, (∀ label ∈ labels, Label label) ∧ out = labels.foldl joinLabel name := by
  induction buf, name using decodeQname.induct with
  | case1 name =>
      rw [decodeQname] at decoded
      cases decoded
  | case2 name tail =>
      rw [decodeQname, if_pos rfl] at decoded
      cases decoded
      exact ⟨[], by simp, rfl⟩
  | case3 name size tail filled pointer =>
      rw [decodeQname, if_neg filled, if_pos pointer] at decoded
      cases decoded
  | case4 name size tail filled plain short =>
      rw [decodeQname, if_neg filled, if_neg plain, if_pos short] at decoded
      cases decoded
  | case5 name size tail filled plain long continued =>
      rw [decodeQname, if_neg filled, if_neg plain, if_neg long] at decoded
      obtain ⟨labels, valid, rfl⟩ := continued decoded
      have bounded := (plain_size_iff size).mp (not_not.mp plain)
      have positive : size.toNat ≠ 0 := fun zero => filled (UInt8.toNat_inj.mp zero)
      have length : (tail.take size.toNat).length = size.toNat :=
        List.length_take_of_le (Nat.not_lt.mp long)
      refine ⟨(tail.take size.toNat).map toLower :: labels, ?_, rfl⟩
      rintro label (_ | ⟨_, later⟩)
      · refine ⟨fun empty => positive ?_, ?_, lowered_again _⟩
        · rw [← length, ← List.length_map toLower, empty, List.length_nil]
        · rw [List.length_map, length]
          exact bounded
      · exact valid label later

/-- The labels as a query carries them. -/
def encodeLabels (labels : List Bytes) : Bytes :=
  labels.flatMap fun label => UInt8.ofNat label.length :: label

/-- What the labels of a query decode to, in any case. -/
theorem decodeQname_wire {labels : List Bytes}
    (valid : ∀ label ∈ labels, label ≠ [] ∧ label.length < 64) (name rest : Bytes) :
    decodeQname (encodeLabels labels ++ 0 :: rest) name =
      some ((labels.map (List.map toLower)).foldl joinLabel name, rest) := by
  induction labels generalizing name with
  | nil =>
      rw [encodeLabels, List.flatMap_nil, List.nil_append, decodeQname, if_pos rfl]
      rfl
  | cons label labels continued =>
      obtain ⟨filled, short⟩ := valid label List.mem_cons_self
      have size : (UInt8.ofNat label.length).toNat = label.length := by
        rw [UInt8.toNat_ofNat']
        omega
      have positive : UInt8.ofNat label.length ≠ 0 := by
        intro zero
        have empty := congrArg UInt8.toNat zero
        rw [size] at empty
        exact filled (List.length_eq_zero_iff.mp empty)
      have plain : UInt8.ofNat label.length &&& 0xc0 = 0 :=
        (plain_size_iff _).mpr (by rw [size]; exact short)
      have split : encodeLabels (label :: labels) ++ 0 :: rest =
          UInt8.ofNat label.length :: (label ++ (encodeLabels labels ++ 0 :: rest)) := by
        simp [encodeLabels]
      have inside : ¬ (label ++ (encodeLabels labels ++ 0 :: rest)).length < label.length := by
        rw [List.length_append]
        omega
      rw [split, decodeQname, if_neg positive, if_neg (not_not.mpr plain), size, if_neg inside,
        List.drop_left, List.take_left]
      exact continued (fun later member => valid later (List.mem_cons_of_mem _ member)) _

theorem decodeQname_encode {labels : List Bytes} (valid : ∀ label ∈ labels, Label label)
    (name rest : Bytes) :
    decodeQname (encodeLabels labels ++ 0 :: rest) name = some (labels.foldl joinLabel name, rest) := by
  have lowered : labels.map (List.map toLower) = labels := by
    rw [List.map_congr_left fun label member => (valid label member).2.2, List.map_id']
  rw [decodeQname_wire fun label member => ⟨(valid label member).1, (valid label member).2.1⟩,
    lowered]

theorem joinLabel_lower {name label : Bytes} (before : name.map toLower = name)
    (valid : Label label) : (joinLabel name label).map toLower = joinLabel name label := by
  unfold joinLabel
  split
  · rw [List.nil_append]
    exact valid.2.2
  · have dot : toLower 46 = 46 := by decide
    simp [before, valid.2.2, dot]

theorem Spelled.lower {name : Bytes} (spelled : Spelled name) : name.map toLower = name := by
  obtain ⟨labels, valid, rfl⟩ := spelled
  have joined : ∀ start : Bytes, start.map toLower = start →
      (labels.foldl joinLabel start).map toLower = labels.foldl joinLabel start := by
    induction labels with
    | nil => exact fun start before => before
    | cons label labels continued =>
        intro start before
        exact continued (fun later member => valid later (List.mem_cons_of_mem _ member)) _
          (joinLabel_lower before (valid label List.mem_cons_self))
  exact joined [] rfl

/-- A header with one question. -/
def oneQuestion : Bytes := [0, 0, 0, 0, 0, 1, 0, 0, 0, 0, 0, 0]

/-- A query of type A for a spelled name. -/
theorem exists_query {name : Bytes} (spelled : Spelled name) :
    ∃ query rest, parseQuestion query = some ⟨name, 1, 0⟩ ∧
      decodeQname (query.drop 12) [] = some (name, rest) := by
  obtain ⟨labels, valid, rfl⟩ := spelled
  have decoded := decodeQname_encode valid [] [0, 1, 0, 1]
  have body (tail : Bytes) : (oneQuestion ++ tail).drop 12 = tail := List.drop_left' rfl
  have long (tail : Bytes) : ¬ (oneQuestion ++ tail).length < 12 := by
    simp [oneQuestion]
  have count (tail : Bytes) : join16 (oneQuestion ++ tail) 4 = 1 := by
    rw [join16, octetAt_append_left (by decide), octetAt_append_left (by decide)]
    decide
  have id (tail : Bytes) : join16 (oneQuestion ++ tail) 0 = 0 := by
    rw [join16, octetAt_append_left (by decide), octetAt_append_left (by decide)]
    decide
  refine ⟨oneQuestion ++ (encodeLabels labels ++ 0 :: [0, 1, 0, 1]), [0, 1, 0, 1], ?_, ?_⟩
  · rw [parseQuestion, if_neg (long _), count, if_neg (by decide), body, decoded, id]
    rfl
  · rw [body, decoded]

theorem parseQuestion_spelled {query : Bytes} {question : Question}
    (parsed : parseQuestion query = some question) :
    Spelled question.name ∧ (decodeQname (query.drop 12) []).isSome = true := by
  unfold parseQuestion at parsed
  split at parsed
  · cases parsed
  · split at parsed
    · cases parsed
    · split at parsed
      · cases parsed
      · next name rest decoded =>
        split at parsed
        · cases parsed
        · cases parsed
          exact ⟨decodeQname_labels decoded, by rw [decoded]; rfl⟩

namespace MagicDns

/-! ## Loading -/

/-- The hosts of a map. -/
def tableOf (netmap : TSNetmap) : List (CString × CString) :=
  (netmap.peers.foldl loadPeer {}).hosts

theorem loadPeer_eq (dns : MagicDns) (peer : NetmapPeer) :
    dns.loadPeer peer = { dns with hosts := dns.hosts ++ (loadPeer {} peer).hosts } := by
  unfold loadPeer addHost
  simp only
  repeat' split
  all_goals simp

theorem foldl_loadPeer (peers : List NetmapPeer) (dns : MagicDns) :
    peers.foldl loadPeer dns = { dns with hosts := dns.hosts ++ (peers.foldl loadPeer {}).hosts } := by
  induction peers generalizing dns with
  | nil => simp
  | cons peer peers continued =>
      rw [List.foldl_cons, List.foldl_cons, continued (dns.loadPeer peer),
        continued (loadPeer {} peer), loadPeer_eq dns peer]
      simp

/-- The hosts come from the map. The domain does too, when the map has one. -/
theorem loadFromNetmap_eq (dns : MagicDns) (netmap : TSNetmap) :
    dns.loadFromNetmap netmap =
      { domain := match netmap.dns.domains with
          | domain :: _ => lower (.ofBytes domain)
          | [] => dns.domain
        hosts := tableOf netmap } := by
  unfold loadFromNetmap
  rw [foldl_loadPeer]
  cases netmap.dns.domains with
  | nil => simp [clear, tableOf]
  | cons domain domains => simp [clear, setTailnetDomain, tableOf]

/-! ## Histories -/

inductive Op where
  | load (netmap : TSNetmap)
  | setDomain (domain : Option CString)
  | addHost (hostname ipv4 : Option CString)

def act (dns : MagicDns) : Op → MagicDns
  | .load netmap => dns.loadFromNetmap netmap
  | .setDomain domain => dns.setTailnetDomain domain
  | .addHost hostname ipv4 => dns.addHost hostname ipv4

/-- The table a history leaves. -/
def after (history : List Op) : MagicDns := Run.run act {} history

/-- A query can spell the host below the domain. -/
def Asked (host : Bytes) (domain : CString) : Prop :=
  host ≠ [] ∧ domain ≠ .empty ∧ Spelled (host ++ 46 :: domain.bytes)

/-- No host of the map with an IPv4 address can be asked for below any domain. -/
def Unanswerable (netmap : TSNetmap) : Prop :=
  ∀ host domain, Asked host domain →
    (lookup { hosts := tableOf netmap } host).bind scanQuad = none

theorem localName_domain {dns : MagicDns} (host : Bytes) (present : dns.domain ≠ .empty) :
    dns.localName (host ++ 46 :: dns.domain.bytes) = host := by
  unfold localName
  simp only
  rw [if_pos ⟨present, List.suffix_append _ _⟩, List.length_append, Nat.add_sub_cancel,
    List.take_left]

theorem localName_empty (hosts : List (CString × CString)) (queried : Bytes) :
    localName { hosts } queried = if 46 ∉ queried then queried else [] := by
  simp [localName]

theorem resolve_unanswered {dns : MagicDns} {query : Bytes} {question : Question}
    (parsed : parseQuestion query = some question)
    (unanswered : dns.localName question.name = [] ∨
      (dns.lookup (dns.localName question.name)).bind scanQuad = none) (cap : Nat) :
    dns.resolve query cap = (0, []) := by
  unfold resolve
  rw [parsed]
  simp only
  split
  · rfl
  · split
    · rfl
    · next named =>
      rw [unanswered.resolve_left named]

/-- Below a map without answerable hosts the domain does not show. -/
theorem resolve_domainless {netmap : TSNetmap} (unanswerable : Unanswerable netmap)
    (domain : CString) (query : Bytes) (cap : Nat) :
    resolve { domain, hosts := tableOf netmap } query cap =
      resolve { hosts := tableOf netmap } query cap := by
  cases parsed : parseQuestion query with
  | none => simp only [resolve, parsed]
  | some question =>
      by_cases below : domain ≠ .empty ∧ 46 :: domain.bytes <:+ question.name
      · obtain ⟨present, host, split⟩ := below
        have bare : localName { hosts := tableOf netmap } question.name = [] := by
          rw [localName_empty, ← split, if_neg (by simp)]
        have stripped : localName { domain, hosts := tableOf netmap } question.name = host := by
          rw [← split]
          exact localName_domain host present
        rw [resolve_unanswered parsed (.inl bare)]
        apply resolve_unanswered parsed
        rw [stripped]
        by_cases empty : host = []
        · exact .inl empty
        · have spelled := (parseQuestion_spelled parsed).1
          rw [← split] at spelled
          exact .inr (unanswerable host domain ⟨empty, present, spelled⟩)
      · have same : localName { domain, hosts := tableOf netmap } question.name =
            localName { hosts := tableOf netmap } question.name := by
          rw [localName_empty, localName]
          simp only
          rw [if_neg below]
        have found : lookup { domain, hosts := tableOf netmap } = lookup { hosts := tableOf netmap } :=
          rfl
        simp only [resolve, parsed, same, found]

theorem resolve_answered {dns : MagicDns} {query name host rest : Bytes}
    (parsed : parseQuestion query = some ⟨name, 1, 0⟩)
    (decoded : decodeQname (query.drop 12) [] = some (name, rest))
    (stripped : dns.localName name = host) (named : host ≠ [])
    {quad : Nat × Nat × Nat × Nat} (found : (dns.lookup host).bind scanQuad = some quad) :
    ∃ cap, (dns.resolve query cap).1 ≠ 0 := by
  obtain ⟨a, b, c, d⟩ := quad
  refine ⟨12 + (query.length - rest.length + 4 - 12) + 16, ?_⟩
  unfold resolve
  rw [parsed]
  simp only
  rw [if_neg (by simp), stripped, if_neg named, found]
  simp only [decoded, lt_irrefl, if_false]
  omega

/-- After the map is loaded every history answers alike, exactly when the map brings a domain
or none of its hosts can be answered. -/
theorem resolve_after_load_iff (netmap : TSNetmap) :
    (∀ (first second : List Op) (query : Bytes) (cap : Nat),
        ((after first).loadFromNetmap netmap).resolve query cap =
          ((after second).loadFromNetmap netmap).resolve query cap) ↔
      netmap.dns.domains ≠ [] ∨ Unanswerable netmap := by
  constructor
  · intro alike
    refine or_iff_not_imp_left.mpr fun domainless => ?_
    rw [not_not] at domainless
    intro host domain ⟨named, present, spelled⟩
    by_contra answered
    obtain ⟨quad, found⟩ := Option.ne_none_iff_exists'.mp answered
    obtain ⟨query, rest, parsed, decoded⟩ := exists_query spelled
    have lowered : lower domain = domain := by
      have whole := spelled.lower
      rw [List.map_append] at whole
      have tail := (List.append_inj whole (by simp)).2
      have same : domain.bytes.map toLower = domain.bytes := List.tail_eq_of_cons_eq tail
      cases domain
      exact (CString.mk.injEq _ _ _ _).mpr same
    have set : (after [.setDomain (some domain)]).loadFromNetmap netmap =
        { domain, hosts := tableOf netmap } := by
      rw [loadFromNetmap_eq, domainless]
      simp [after, act, setTailnetDomain, lowered]
    have unset : (after []).loadFromNetmap netmap = { hosts := tableOf netmap } := by
      rw [loadFromNetmap_eq, domainless]
      rfl
    have stripped : localName { domain, hosts := tableOf netmap } (host ++ 46 :: domain.bytes) = host :=
      localName_domain host present
    obtain ⟨cap, nonzero⟩ := resolve_answered parsed decoded stripped named found
    have bare : localName { hosts := tableOf netmap } (host ++ 46 :: domain.bytes) = [] := by
      rw [localName_empty, if_neg (by simp)]
    have same := alike [.setDomain (some domain)] [] query cap
    rw [set, unset, resolve_unanswered parsed (.inl bare)] at same
    exact nonzero (congrArg Prod.fst same)
  · rintro (present | unanswerable) first second query cap
    · rw [loadFromNetmap_eq, loadFromNetmap_eq]
      cases listed : netmap.dns.domains with
      | nil => exact absurd listed present
      | cons domain domains => rfl
    · rw [loadFromNetmap_eq, loadFromNetmap_eq]
      exact (resolve_domainless unanswerable _ query cap).trans
        (resolve_domainless unanswerable _ query cap).symm

/-- One peer with an address, and no DNS configuration. -/
def laptop : TSNetmap where
  peers := [{ hostname := ascii "laptop", allowedIPs := [ascii "100.64.7.6/32"] }]

/-- The query for `laptop.old`. -/
def laptopQuery : Bytes :=
  oneQuestion ++ (encodeLabels [ascii "laptop", ascii "old"] ++ [0, 0, 1, 0, 1])

/-- A domain set before the map was loaded still answers. -/
theorem load_keeps_domain :
    ¬ ∀ (netmap : TSNetmap) (first second : List Op) (query : Bytes) (cap : Nat),
      ((after first).loadFromNetmap netmap).resolve query cap =
        ((after second).loadFromNetmap netmap).resolve query cap := by
  intro claim
  have stale : ((after [.setDomain (some (.ofBytes (ascii "old")))]).loadFromNetmap laptop).resolve
      laptopQuery 512 ≠ ((after []).loadFromNetmap laptop).resolve laptopQuery 512 := by
    decide +kernel
  exact stale (claim laptop _ [] laptopQuery 512)

end MagicDns

end Sotoportego.Tailscale
