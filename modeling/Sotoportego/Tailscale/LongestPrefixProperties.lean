import Mathlib.Data.List.MinMax
import Sotoportego.Tailscale.SubnetRoutesProperties

/-!
# The peer of the longest prefix

`FindByAllowedIP` over well-formed ranges: the first peer of the longest range that contains
the destination, and a peer for every destination that has a subnet route.
-/

set_option autoImplicit false

namespace Sotoportego.Tailscale

open Octets CText Ipv4

/-- Among equals a maximum is not after another in the order of the list. -/
theorem argmax_before {α : Type} [DecidableEq α] {score : α → Nat} {order : α → α → Prop}
    {values : List α} (sorted : values.Pairwise order) {best other : α}
    (greatest : values.argmax score = some best) (member : other ∈ values)
    (tied : score other = score best) : other = best ∨ order best other := by
  obtain ⟨listed, _, first⟩ := List.argmax_eq_some_iff.mp greatest
  cases Nat.lt_or_eq_of_le (first other member (Nat.le_of_eq tied.symm)) with
  | inl earlier =>
      have ordered := List.pairwise_iff_getElem.mp sorted _ _
        (List.idxOf_lt_length_of_mem listed) (List.idxOf_lt_length_of_mem member) earlier
      rw [List.getElem_idxOf, List.getElem_idxOf] at ordered
      exact .inr ordered
  | inr same => exact .inl ((List.idxOf_inj listed).mp same).symm

namespace TSPeerSet

/-! ## The loop as a maximum -/

/-- The position and the width that a range stands for, when it covers the address. -/
def candidate (address position : Nat) (cidr : Bytes) : Option (Nat × Nat) :=
  (parseCidr cidr).bind fun range =>
    if covers range.1 range.2 address then some (position, range.2) else none

/-- The ranges that cover the address, in the order of the loops. -/
def candidates (address : Nat) (peers : List (ManagedPeer × Nat)) : List (Nat × Nat) :=
  peers.flatMap fun entry => entry.1.allowedIPs.filterMap (candidate address entry.2)

theorem foldl_considerRange_argmax (address position : Nat) (ranges : List Bytes)
    (before : List (Nat × Nat)) :
    ranges.foldl (considerRange address position) (before.argmax Prod.snd) =
      (before ++ ranges.filterMap (candidate address position)).argmax Prod.snd := by
  induction ranges generalizing before with
  | nil => rw [List.filterMap_nil, List.append_nil, List.foldl_nil]
  | cons cidr ranges continued =>
      have step : considerRange address position (before.argmax Prod.snd) cidr =
          (before ++ (candidate address position cidr).toList).argmax Prod.snd := by
        rw [considerRange, candidate]
        cases parseCidr cidr with
        | none => rw [Option.bind_none, Option.toList_none, List.append_nil]
        | some range =>
            obtain ⟨network, width⟩ := range
            simp only [Option.bind_some]
            cases covers network width address with
            | false =>
                simp only [Bool.false_and, Bool.false_eq_true, if_false, Option.toList_none,
                  List.append_nil]
            | true =>
                simp only [Bool.true_and, if_true, Option.toList_some, List.argmax_concat]
                cases before.argmax Prod.snd with
                | none => rfl
                | some held =>
                    by_cases longer : held.2 < width
                    · simp [longer]
                    · simp [longer]
      rw [List.foldl_cons, step, continued, List.append_assoc, List.filterMap_cons]
      cases candidate address position cidr with
      | none => rfl
      | some found => rfl

theorem foldl_argmax (address : Nat) (peers : List (ManagedPeer × Nat)) (before : List (Nat × Nat)) :
    peers.foldl (fun best entry => entry.1.allowedIPs.foldl (considerRange address entry.2) best)
        (before.argmax Prod.snd) =
      (before ++ candidates address peers).argmax Prod.snd := by
  induction peers generalizing before with
  | nil => rw [candidates, List.flatMap_nil, List.append_nil, List.foldl_nil]
  | cons entry peers continued =>
      rw [List.foldl_cons, foldl_considerRange_argmax, continued, List.append_assoc, candidates,
        candidates, List.flatMap_cons]

theorem findByAllowedIP_argmax {set : TSPeerSet} {ipv4 : CString} {address : Nat}
    (parsed : parseIpv4 ipv4 = some address) :
    set.findByAllowedIP ipv4 =
      ((candidates address set.peers.zipIdx).argmax Prod.snd).map Prod.fst := by
  rw [findByAllowedIP, parsed]
  exact congrArg (Option.map Prod.fst) (foldl_argmax address set.peers.zipIdx [])

/-- The candidates come in the order of the peers. -/
theorem candidates_sorted (address : Nat) (peers : List ManagedPeer) :
    (candidates address peers.zipIdx).Pairwise fun left right => left.1 ≤ right.1 := by
  have placed {entry : ManagedPeer × Nat} {found : Nat × Nat}
      (member : found ∈ entry.1.allowedIPs.filterMap (candidate address entry.2)) :
      found.1 = entry.2 := by
    obtain ⟨cidr, _, made⟩ := List.mem_filterMap.mp member
    obtain ⟨range, _, covered⟩ := Option.bind_eq_some_iff.mp made
    split at covered
    next =>
      cases covered
      rfl
    next => cases covered
  rw [candidates, List.pairwise_flatMap]
  constructor
  · intro entry _
    refine List.Pairwise.imp_of_mem (fun left right _ => ?_)
      (List.pairwise_of_forall fun _ _ => trivial)
    rw [placed left, placed right]
  · rw [List.pairwise_iff_getElem]
    intro first second firstInside secondInside before left leftMember right rightMember
    rw [placed leftMember, placed rightMember, List.getElem_zipIdx, List.getElem_zipIdx]
    omega

/-! ## What is found -/

/-- The peer has an IPv4 range of this width that contains the address. -/
def Owns (peer : ManagedPeer) (address width : Nat) : Prop :=
  ∃ cidr ∈ peer.allowedIPs, ∃ network, AllowedRange cidr (some (network, width)) ∧
    Contains network width address

/-- The first of the peers with the longest range; `none` when no range contains the address. -/
def LongestMatch (set : TSPeerSet) (address : Nat) : Option Nat → Prop
  | none => ∀ peer ∈ set.peers, ∀ width, ¬ Owns peer address width
  | some position => ∃ peer width, set.peers[position]? = some peer ∧ Owns peer address width ∧
      ∀ other peer' width', set.peers[other]? = some peer' → Owns peer' address width' →
        width' ≤ width ∧ (width' = width → position ≤ other)

def WellFormed (set : TSPeerSet) : Prop :=
  ∀ peer ∈ set.peers, ∀ cidr ∈ peer.allowedIPs, ∃ range, AllowedRange cidr range

theorem narrow_of_range {cidr : Bytes} {network width : Nat}
    (allowed : AllowedRange cidr (some (network, width))) : network < 2 ^ 32 ∧ width ≤ 32 := by
  cases allowed with
  | host quad => exact ⟨quad.lt, Nat.le_refl 32⟩
  | cidr block => exact ⟨block.lt, block.narrow⟩

theorem covers_iff {cidr : Bytes} {network width address : Nat}
    (allowed : AllowedRange cidr (some (network, width))) (small : address < 2 ^ 32) :
    covers network width address = true ↔ Contains network width address := by
  obtain ⟨netSmall, narrow⟩ := narrow_of_range allowed
  rw [covers, decide_eq_true_eq, contains_iff netSmall small narrow]

theorem mem_candidates {set : TSPeerSet} (wellFormed : WellFormed set) {address : Nat}
    (small : address < 2 ^ 32) {position width : Nat} :
    (position, width) ∈ candidates address set.peers.zipIdx ↔
      ∃ peer, set.peers[position]? = some peer ∧ Owns peer address width := by
  rw [candidates, List.mem_flatMap]
  constructor
  · rintro ⟨⟨peer, index⟩, stored, member⟩
    obtain ⟨cidr, listed, made⟩ := List.mem_filterMap.mp member
    obtain ⟨⟨network, width'⟩, parsed, covered⟩ := Option.bind_eq_some_iff.mp made
    have found := List.mem_zipIdx_iff_getElem?.mp stored
    split at covered
    next inside =>
      cases covered
      obtain ⟨range, allowed⟩ := wellFormed peer (List.mem_of_getElem? found) cidr listed
      rw [parseCidr_range allowed] at parsed
      subst parsed
      exact ⟨peer, found, cidr, listed, network, allowed, (covers_iff allowed small).mp inside⟩
    next => cases covered
  · rintro ⟨peer, stored, cidr, listed, network, allowed, inside⟩
    refine ⟨(peer, position), List.mem_zipIdx_iff_getElem?.mpr stored,
      List.mem_filterMap.mpr ⟨cidr, listed, ?_⟩⟩
    rw [candidate, parseCidr_range allowed, Option.bind_some,
      if_pos ((covers_iff allowed small).mpr inside)]

theorem longestMatch_argmax {set : TSPeerSet} (wellFormed : WellFormed set) {address : Nat}
    (small : address < 2 ^ 32) :
    LongestMatch set address
      (((candidates address set.peers.zipIdx).argmax Prod.snd).map Prod.fst) := by
  have owned {position width : Nat} :=
    @mem_candidates set wellFormed address small position width
  cases best : (candidates address set.peers.zipIdx).argmax Prod.snd with
  | none =>
      intro peer member width owns
      obtain ⟨position, stored⟩ := List.mem_iff_getElem?.mp member
      have listed := owned.mpr ⟨peer, stored, owns⟩
      rw [List.argmax_eq_none.mp best] at listed
      cases listed
  | some found =>
      obtain ⟨position, width⟩ := found
      obtain ⟨peer, stored, owns⟩ := owned.mp (List.argmax_mem best)
      refine ⟨peer, width, stored, owns, fun other peer' width' stored' owns' => ?_⟩
      have listed := owned.mpr ⟨peer', stored', owns'⟩
      refine ⟨List.le_of_mem_argmax listed best, fun tied => ?_⟩
      cases argmax_before (candidates_sorted address set.peers) best listed tied with
      | inl same =>
          cases same
          exact Nat.le_refl _
      | inr before => exact before

/-! ## Routes and peers -/

theorem subnetRoute_eq {entry : AllowedRoute} {route : SubnetRoute}
    (made : subnetRoute entry = some route) : route = { net := entry.net, mask := entry.mask } := by
  rw [subnetRoute] at made
  split at made
  next => cases made
  next =>
    split at made
    next => cases made
    next =>
      split at made
      next => cases made
      next =>
        cases made
        rfl

/-- A destination with a route is in a range of some peer. -/
theorem owns_of_route {set : TSPeerSet} (wellFormed : WellFormed set) {route : SubnetRoute}
    {address : Nat}
    (member : route ∈ computeSubnetRoutes (set.peers.flatMap ManagedPeer.allowedIPs))
    (carries : route.Carries address) : ∃ peer ∈ set.peers, ∃ width, Owns peer address width := by
  obtain ⟨cidr, listed, entry, parsed, made⟩ := mem_computeSubnetRoutes.mp member
  obtain ⟨peer, stored, listed⟩ := List.mem_flatMap.mp listed
  obtain ⟨range, allowed⟩ := wellFormed peer stored cidr listed
  have routes := parseAllowedIPs_range allowed
  cases range with
  | none =>
      simp only at routes
      rw [routes] at parsed
      cases parsed
  | some block =>
      obtain ⟨network, width⟩ := block
      obtain ⟨net, read, routes⟩ := routes
      rw [routes, List.mem_singleton] at parsed
      subst parsed
      rw [subnetRoute_eq made] at carries
      exact ⟨peer, stored, width, cidr, listed, network, allowed,
        (carries_iff (narrow_of_range allowed).2 read).mp carries⟩

theorem ofBytes_self (text : CString) : CString.ofBytes text.bytes = text := by
  have same := ofBytes_bytes text.no_nul
  cases text
  rw [CString.mk.injEq]
  exact same

/-- The longest range that contains the destination decides, the first stored among equals;
and no destination with a route is without a peer. -/
theorem longest_prefix_found (set : TSPeerSet) (wellFormed : WellFormed set) (ipv4 : CString)
    (address : Nat) (destination : Quad ipv4.bytes address) :
    LongestMatch set address (set.findByAllowedIP ipv4) ∧
      ∀ route ∈ computeSubnetRoutes (set.peers.flatMap ManagedPeer.allowedIPs),
        route.Carries address → set.findByAllowedIP ipv4 ≠ none := by
  have parsed := parseIpv4_quad destination
  rw [ofBytes_self] at parsed
  have longest := longestMatch_argmax wellFormed destination.lt
  rw [← findByAllowedIP_argmax parsed] at longest
  refine ⟨longest, fun route member carries none => ?_⟩
  obtain ⟨peer, stored, width, owns⟩ := owns_of_route wellFormed member carries
  rw [none] at longest
  exact longest peer stored width owns

namespace Sample

open Tailscale.Sample

def set : TSPeerSet where
  peers := [{ allowedIPs := [wide] }, { allowedIPs := [lan, ascii "fd7a::1/128"] }]

/-- 192.168.1.7. -/
def destination : CString where
  bytes := ascii "192" ++ 46 :: (ascii "168" ++ 46 :: (ascii "1" ++ 46 :: ascii "7"))
  no_nul := by decide +kernel

theorem wellFormed : WellFormed set := by
  intro peer stored cidr listed
  obtain rfl | rfl : peer = { allowedIPs := [wide] } ∨
      peer = { allowedIPs := [lan, ascii "fd7a::1/128"] } := by
    simpa [set] using stored
  · rw [List.mem_singleton.mp listed]
    exact ⟨_, .cidr cidr_wide⟩
  · obtain rfl | rfl : cidr = lan ∨ cidr = ascii "fd7a::1/128" := by
      simpa using listed
    · exact ⟨_, .cidr cidr_lan⟩
    · exact ⟨_, .ipv6 (by decide +kernel) (by decide +kernel) (by decide +kernel)⟩

end Sample

theorem longest_prefix_found_sample :
    Sample.set.findByAllowedIP Sample.destination = some 1 ∧
      LongestMatch Sample.set 0xC0A80107 (some 1) := by
  have found : Sample.set.findByAllowedIP Sample.destination = some 1 := by decide +kernel
  refine ⟨found, found ▸ (longest_prefix_found Sample.set Sample.wellFormed Sample.destination
    0xC0A80107 (.fields ?_ ?_ ?_ ?_)).1⟩
  · exact Tailscale.Sample.field (by decide +kernel)
  · exact Tailscale.Sample.field (by decide +kernel)
  · exact Tailscale.Sample.field (by decide +kernel)
  · exact Tailscale.Sample.field (by decide +kernel)

end TSPeerSet

end Sotoportego.Tailscale
