import Sotoportego.Tailscale.CidrProperties

/-!
# What the subnet routes cover

Which entries of AllowedIPs lead to a route for every address, and which addresses the routes
of well-formed entries cover.
-/

set_option autoImplicit false

namespace Sotoportego.Tailscale

open Octets CText Ipv4
open Edits (collect)

theorem mem_computeSubnetRoutes {allowedIPs : List Bytes} {route : SubnetRoute} :
    route ∈ computeSubnetRoutes allowedIPs ↔ ∃ allowed ∈ allowedIPs,
      ∃ entry ∈ parseAllowedIPs allowed, subnetRoute entry = some route := by
  simp only [computeSubnetRoutes, Edits.mem_collect, List.mem_flatMap, List.mem_filterMap]

/-! ## Routes for every address -/

theorem netmask_zero_iff : ∀ width ≤ 32, netmask width = text "0.0.0.0" ↔ width = 0 := by
  decide +kernel

/-- An entry of width zero that is not the text of the default range: its address is an
IPv4 address outside of the tailnet range, its width any text that reads as zero. -/
def DefaultInDisguise (segment : Bytes) : Prop :=
  let token := trim (.ofBytes segment)
  let net := trim (.ofBytes (token.bytes.takeWhile (· ≠ 47)))
  58 ∉ token.bytes ∧ 47 ∈ token.bytes ∧
    atoi (.ofBytes (token.bytes.dropWhile (· ≠ 47)).tail) = 0 ∧ net ≠ text "0.0.0.0" ∧
    ∃ address, TSPeerSet.parseIpv4 net = some address ∧ address &&& 0xFFC00000 ≠ 0x64400000

theorem parseIpv4_empty : TSPeerSet.parseIpv4 .empty = none := by decide +kernel

/-- The routes of an entry without a colon: one of its address and width, unless it is the text
of the default range or its address is in the tailnet range. -/
theorem subnetRoute_token {segment : Bytes} {route : SubnetRoute} :
    (parseAllowedToken segment).bind subnetRoute = some route ↔
      let token := trim (.ofBytes segment)
      let net := trim (.ofBytes (token.bytes.takeWhile (· ≠ 47)))
      58 ∉ token.bytes ∧ ∃ width : Nat, width ≤ 32 ∧
        (if 47 ∈ token.bytes then atoi (.ofBytes (token.bytes.dropWhile (· ≠ 47)).tail) else 32) =
          width ∧
        ¬ (net = text "0.0.0.0" ∧ width = 0) ∧ route = { net, mask := netmask width } ∧
        ∃ address, TSPeerSet.parseIpv4 net = some address ∧
          address &&& 0xFFC00000 ≠ 0x64400000 := by
  rw [parseAllowedToken]
  simp only
  generalize trim (.ofBytes segment) = token
  generalize front : trim (.ofBytes (token.bytes.takeWhile (· ≠ 47))) = net
  generalize (if 47 ∈ token.bytes then atoi (.ofBytes (token.bytes.dropWhile (· ≠ 47)).tail)
    else 32) = value
  by_cases skipped : token = .empty ∨ 58 ∈ token.bytes
  · rw [if_pos skipped]
    constructor
    · intro made
      cases made
    · rintro ⟨noColon, _, _, _, _, _, address, parsed, _⟩
      rw [← front, skipped.resolve_right noColon] at parsed
      have nothing : TSPeerSet.parseIpv4
          (trim (.ofBytes (CString.empty.bytes.takeWhile (· ≠ 47)))) = none := by
        decide +kernel
      rw [nothing] at parsed
      cases parsed
  · rw [if_neg skipped]
    by_cases dropped : net = .empty ∨ value < 0 ∨ value > 32
    · rw [if_pos dropped]
      constructor
      · intro made
        cases made
      · rintro ⟨_, width, narrow, rfl, _, _, address, parsed, _⟩
        obtain empty | wide := dropped
        · rw [empty, parseIpv4_empty] at parsed
          cases parsed
        · omega
    · obtain ⟨width, rfl⟩ := Int.eq_ofNat_of_zero_le (by omega : 0 ≤ value)
      have narrow : width ≤ 32 := by omega
      rw [if_neg dropped, Option.bind_some, subnetRoute]
      simp only [Int.toNat_natCast, Bool.and_eq_true, decide_eq_true_eq, Int.natCast_eq_zero]
      constructor
      · intro made
        split at made
        next => cases made
        next undisguised =>
          split at made
          next => cases made
          next address parsed =>
            split at made
            next => cases made
            next outside =>
              cases made
              exact ⟨(not_or.mp skipped).2, width, narrow, rfl, undisguised, rfl, address, parsed,
                outside⟩
      · rintro ⟨_, same, _, equal, undisguised, rfl, address, parsed, outside⟩
        have width_eq : width = same := by omega
        rw [if_neg (width_eq ▸ undisguised), parsed]
        simp only [if_neg outside, width_eq]

/-- A route for every address comes from a default range in disguise, and each of these makes
one. -/
theorem no_default_route_iff (allowedIPs : List Bytes) :
    (∀ route ∈ computeSubnetRoutes allowedIPs, route.mask ≠ text "0.0.0.0") ↔
      ∀ allowed ∈ allowedIPs, ∀ segment ∈ allowed.splitOn 44, ¬ DefaultInDisguise segment := by
  have made {allowed segment : Bytes} (listed : allowed ∈ allowedIPs)
      (inside : segment ∈ allowed.splitOn 44) {route : SubnetRoute}
      (route_eq : (parseAllowedToken segment).bind subnetRoute = some route) :
      route ∈ computeSubnetRoutes allowedIPs := by
    obtain ⟨entry, parsed, found⟩ := Option.bind_eq_some_iff.mp route_eq
    exact mem_computeSubnetRoutes.mpr
      ⟨allowed, listed, entry, List.mem_filterMap.mpr ⟨segment, inside, parsed⟩, found⟩
  constructor
  · intro none allowed listed segment inside disguised
    obtain ⟨colon, solidus, zero, other, outside⟩ := disguised
    have route := subnetRoute_token.mpr ⟨colon, 0, Nat.zero_le _, by rw [if_pos solidus, zero]; rfl,
      fun default => other default.1, rfl, outside⟩
    exact none _ (made listed inside route) rfl
  · intro undisguised route member every
    obtain ⟨allowed, listed, entry, parsed, found⟩ := mem_computeSubnetRoutes.mp member
    obtain ⟨segment, inside, token⟩ := List.mem_filterMap.mp parsed
    have route_eq : (parseAllowedToken segment).bind subnetRoute = some route := by
      rw [token]
      exact found
    obtain ⟨colon, width, narrow, value, other, rfl, outside⟩ := subnetRoute_token.mp route_eq
    have zero : width = 0 := (netmask_zero_iff width narrow).mp every
    subst zero
    by_cases solidus : 47 ∈ (trim (.ofBytes segment)).bytes
    · rw [if_pos solidus] at value
      exact undisguised allowed listed segment inside
        ⟨colon, solidus, value, fun default => other ⟨default, rfl⟩, outside⟩
    · rw [if_neg solidus] at value
      cases value

/-- Any other address with a width of zero is a route for every address. -/
theorem zero_width_captures : ¬ ∀ allowedIPs : List Bytes,
    ∀ route ∈ computeSubnetRoutes allowedIPs, route.mask ≠ text "0.0.0.0" := by
  intro claim
  have computed : computeSubnetRoutes [ascii "1.2.3.4/0"] =
      [{ net := text "1.2.3.4", mask := text "0.0.0.0" }] := by
    decide +kernel
  exact claim [ascii "1.2.3.4/0"] _ (by rw [computed]; exact List.mem_singleton_self _) rfl

/-! ## Which addresses are covered -/

/-- The route takes the address: the network and the mask are as their texts say. -/
def SubnetRoute.Carries (route : SubnetRoute) (address : Nat) : Prop :=
  ∃ net mask, TSPeerSet.parseIpv4 route.net = some net ∧
    TSPeerSet.parseIpv4 route.mask = some mask ∧ address &&& mask = net &&& mask

/-- 100.64.0.0/10. -/
def Tailnet (address : Nat) : Prop := Contains 0x64400000 10 address

instance decidableTailnet (address : Nat) : Decidable (Tailnet address) :=
  inferInstanceAs (Decidable (Contains _ _ _))

theorem tailnet_iff (address : Nat) : Tailnet address ↔ address &&& 0xFFC00000 = 0x64400000 := by
  have masks : mask 10 = 0xFFC00000 ∧ 0x64400000 &&& mask 10 = 0x64400000 := by decide +kernel
  rw [Tailnet, Contains, masks.2, masks.1]

theorem parseIpv4_netmask : ∀ width ≤ 32,
    TSPeerSet.parseIpv4 (netmask width) = some (mask width) := by
  decide +kernel

theorem carries_iff {net : CString} {network width address : Nat} (narrow : width ≤ 32)
    (parsed : TSPeerSet.parseIpv4 net = some network) :
    SubnetRoute.Carries { net, mask := netmask width } address ↔ Contains network width address := by
  rw [SubnetRoute.Carries, parsed, parseIpv4_netmask width narrow]
  constructor
  · rintro ⟨_, _, found, masked, same⟩
    cases found
    cases masked
    exact same
  · intro same
    exact ⟨_, _, rfl, rfl, same⟩

/-- An entry of positive width has a route unless its address is in the tailnet range. -/
theorem subnetRoute_allowed {net : CString} {network width : Nat} (positive : 1 ≤ width)
    (parsed : TSPeerSet.parseIpv4 net = some network) :
    subnetRoute (allowedRoute net width) =
      if Tailnet network then none else some { net, mask := netmask width } := by
  have some : ¬ (width : Int) = 0 := by omega
  rw [subnetRoute]
  simp only [allowedRoute, some, decide_false, Bool.and_false, Bool.false_eq_true, if_false, parsed,
    tailnet_iff]

/-- Some entry of the list is this block. -/
def Listed (cidrs : List Bytes) (network width : Nat) : Prop :=
  ∃ text ∈ cidrs, Cidr text network width

theorem carried_iff {cidrs : List Bytes}
    (wellFormed : ∀ text ∈ cidrs, ∃ network width, Cidr text network width ∧ 1 ≤ width)
    (address : Nat) :
    (∃ route ∈ computeSubnetRoutes cidrs, route.Carries address) ↔
      ∃ network width, Listed cidrs network width ∧ ¬ Tailnet network ∧
        Contains network width address := by
  have entries {text : Bytes} {network width : Nat} (cidr : Cidr text network width)
      (positive : 1 ≤ width) : ∃ net, TSPeerSet.parseIpv4 net = some network ∧
        parseAllowedIPs text = [allowedRoute net width] ∧
        subnetRoute (allowedRoute net width) =
          if Tailnet network then none else some { net, mask := netmask width } := by
    obtain ⟨net, parsed, routes⟩ := parseAllowedIPs_range (.cidr cidr)
    exact ⟨net, parsed, routes, subnetRoute_allowed positive parsed⟩
  constructor
  · rintro ⟨route, member, carries⟩
    obtain ⟨text, listed, entry, parsed, found⟩ := mem_computeSubnetRoutes.mp member
    obtain ⟨network, width, cidr, positive⟩ := wellFormed text listed
    obtain ⟨net, address_eq, routes, made⟩ := entries cidr positive
    rw [routes, List.mem_singleton] at parsed
    rw [parsed, made] at found
    split at found
    next => cases found
    next outside =>
      cases found
      exact ⟨network, width, ⟨text, listed, cidr⟩, outside,
        (carries_iff cidr.narrow address_eq).mp carries⟩
  · rintro ⟨network, width, ⟨text, listed, cidr⟩, outside, inside⟩
    obtain ⟨network', width', cidr', positive⟩ := wellFormed text listed
    have same := (parseCidr_range (.cidr cidr)).symm.trans (parseCidr_range (.cidr cidr'))
    cases same
    obtain ⟨net, address_eq, routes, made⟩ := entries cidr positive
    rw [if_neg outside] at made
    refine ⟨_, mem_computeSubnetRoutes.mpr ⟨text, listed, _, ?_, made⟩,
      (carries_iff cidr.narrow address_eq).mpr inside⟩
    rw [routes]
    exact List.mem_singleton_self _

/-- Every listed address outside of the tailnet range has a route, and only listed ones do. -/
structure Coverage (cidrs : List Bytes) : Prop where
  complete : ∀ address : UInt32, ¬ Tailnet address.toNat →
    (∃ network width, Listed cidrs network width ∧ Contains network width address.toNat) →
    ∃ route ∈ computeSubnetRoutes cidrs, route.Carries address.toNat
  sound : ∀ address : UInt32, ∀ route ∈ computeSubnetRoutes cidrs, route.Carries address.toNat →
    ∃ network width, Listed cidrs network width ∧ Contains network width address.toNat

/-- The routes cover the listed blocks exactly when each block that is wider than the tailnet
range, but written with an address in it, is made up for by other blocks. -/
theorem coverage_iff (cidrs : List Bytes)
    (wellFormed : ∀ text ∈ cidrs, ∃ network width, Cidr text network width ∧ 1 ≤ width) :
    Coverage cidrs ↔ ∀ network width, Listed cidrs network width → Tailnet network → width < 10 →
      ∀ address : UInt32, ¬ Tailnet address.toNat → Contains network width address.toNat →
        ∃ network' width', Listed cidrs network' width' ∧ ¬ Tailnet network' ∧
          Contains network' width' address.toNat := by
  constructor
  · intro coverage network width listed _ _ address outside inside
    exact (carried_iff wellFormed _).mp (coverage.complete address outside ⟨_, _, listed, inside⟩)
  · intro madeUp
    refine ⟨?_, ?_⟩
    · rintro address outside ⟨network, width, listed, inside⟩
      rw [carried_iff wellFormed]
      by_cases onLink : Tailnet network
      · by_cases wide : width < 10
        · exact madeUp network width listed onLink wide address outside inside
        · obtain ⟨text, _, cidr⟩ := listed
          have block := inside.widen cidr.lt address.toNat_lt cidr.narrow (by omega : 10 ≤ width)
          exact absurd (onLink.trans block) outside
      · exact ⟨network, width, listed, onLink, inside⟩
    · intro address route member carries
      obtain ⟨network, width, listed, _, inside⟩ :=
        (carried_iff wellFormed _).mp ⟨route, member, carries⟩
      exact ⟨network, width, listed, inside⟩

namespace Sample

theorem field {digits : Bytes} (plain : digits ≠ [] ∧ (∀ octet ∈ digits, isDigit octet = true) ∧
    decimal digits ≤ 255) : Field digits :=
  ⟨plain.1, plain.2.1, plain.2.2⟩

/-- 192.168.1.0/24. -/
def lan : Bytes :=
  (ascii "192" ++ 46 :: (ascii "168" ++ 46 :: (ascii "1" ++ 46 :: ascii "0"))) ++ 47 :: ascii "24"

theorem cidr_lan : Cidr lan 0xC0A80100 24 :=
  .block (.fields (field (by decide +kernel)) (field (by decide +kernel))
    (field (by decide +kernel)) (field (by decide +kernel))) (by decide +kernel)
    (by decide +kernel) (by decide +kernel)

/-- 100.64.0.0/9. -/
def wide : Bytes :=
  (ascii "100" ++ 46 :: (ascii "64" ++ 46 :: (ascii "0" ++ 46 :: ascii "0"))) ++ 47 :: ascii "9"

theorem cidr_wide : Cidr wide 0x64400000 9 :=
  .block (.fields (field (by decide +kernel)) (field (by decide +kernel))
    (field (by decide +kernel)) (field (by decide +kernel))) (by decide +kernel)
    (by decide +kernel) (by decide +kernel)

end Sample

theorem coverage_iff_sample : Coverage [Sample.lan] := by
  refine (coverage_iff [Sample.lan] ?_).mpr ?_
  · intro text listed
    rw [List.mem_singleton.mp listed]
    exact ⟨_, _, Sample.cidr_lan, by decide⟩
  · rintro network width ⟨text, listed, cidr⟩ onLink
    rw [List.mem_singleton.mp listed] at cidr
    have same := (parseCidr_range (.cidr cidr)).symm.trans (parseCidr_range (.cidr Sample.cidr_lan))
    cases same
    exact absurd onLink (by decide +kernel)

/-- The lower half of 100.64.0.0/9 has no route. -/
theorem wider_block_dropped : ¬ ∀ cidrs : List Bytes,
    (∀ text ∈ cidrs, ∃ network width, Cidr text network width ∧ 1 ≤ width) → Coverage cidrs := by
  intro claim
  have listed : Listed [Sample.wide] 0x64400000 9 :=
    ⟨Sample.wide, List.mem_singleton_self _, Sample.cidr_wide⟩
  have coverage := claim [Sample.wide] fun text member => by
    rw [List.mem_singleton.mp member]
    exact ⟨_, _, Sample.cidr_wide, by decide⟩
  have none : computeSubnetRoutes [Sample.wide] = [] := by decide +kernel
  obtain ⟨route, member, _⟩ := coverage.complete 0x64000001 (by decide +kernel)
    ⟨_, _, listed, by decide +kernel⟩
  rw [none] at member
  cases member

end Sotoportego.Tailscale
