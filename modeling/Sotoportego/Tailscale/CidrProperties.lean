import Sotoportego.Lib.Ipv4
import Sotoportego.Tailscale.Routes

/-!
# The two parsers of allowed ranges

`parse_cidr` of the peer set and `ParseAllowedIPs` of the routes read every well-formed range
alike: the same address, the same width, and nothing of an IPv6 range.
-/

set_option autoImplicit false

namespace Sotoportego.Tailscale

open Octets CText Ipv4

/-- One entry of a peer's AllowedIPs, and the block it is; an IPv6 entry is none. -/
inductive AllowedRange : Bytes → Option (Nat × Nat) → Prop where
  | host {text : Bytes} {address : Nat} : Quad text address → AllowedRange text (some (address, 32))
  | cidr {text : Bytes} {network width : Nat} : Cidr text network width →
      AllowedRange text (some (network, width))
  | ipv6 {text : Bytes} : 58 ∈ text.takeWhile (· ≠ 47) → 44 ∉ text → 0 ∉ text →
      AllowedRange text none

/-! ## Addresses -/

theorem ofBytes_bytes {source : Bytes} (plain : 0 ∉ source) :
    (CString.ofBytes source).bytes = source :=
  List.takeWhile_eq_self_iff.mpr fun _ member =>
    decide_eq_true fun zero => plain (zero ▸ member)

theorem parseIpv4_quad {text : Bytes} {address : Nat} (quad : Quad text address) :
    TSPeerSet.parseIpv4 (.ofBytes text) = some address := by
  have plain : (CString.ofBytes text).bytes = text := ofBytes_bytes (quad.not_mem rfl (by decide))
  have dot (rest : Bytes) : ∀ next ∈ (46 :: rest).head?, isDigit next = false := by
    rintro next ⟨⟩
    rfl
  cases quad with
  | @fields a b c d first second third fourth =>
      have read {digits : Bytes} (field : Field digits) {rest : Bytes}
          (ends : ∀ next ∈ rest.head?, isDigit next = false) :
          scanUnsigned (digits ++ rest) = some (decimal digits, rest) :=
        scanUnsigned_append field.nonempty field.digit
          (Nat.lt_of_le_of_lt field.small (by decide)) ends
      have last : scanUnsigned d = some (decimal d, []) := by
        have whole := @read d fourth [] nofun
        rwa [List.append_nil] at whole
      have fits : ¬ (decimal a > 255 ∨ decimal b > 255 ∨ decimal c > 255 ∨ decimal d > 255) := by
        have bounds := And.intro first.small (And.intro second.small
          (And.intro third.small fourth.small))
        omega
      rw [TSPeerSet.parseIpv4, plain, read first (dot _)]
      simp only [TSPeerSet.scanDot, Option.bind_eq_bind, Option.bind_some, read second (dot _),
        read third (dot _), last, if_neg fits]

/-! ## Widths -/

theorem atoi_digits {digits : Bytes} (nonempty : digits ≠ [])
    (every : ∀ octet ∈ digits, isDigit octet = true) (small : decimal digits ≤ 32) :
    atoi (.ofBytes digits) = decimal digits := by
  have plain : (CString.ofBytes digits).bytes = digits := by
    refine ofBytes_bytes fun zero => ?_
    cases every 0 zero
  have whole : digits.takeWhile isDigit = digits := List.takeWhile_eq_self_iff.mpr every
  have unsigned : sign (digits.dropWhile isSpace) = (false, digits) := by
    cases digits with
    | nil => exact absurd rfl nonempty
    | cons first rest =>
        obtain ⟨noSpace, minus, plus⟩ := digit_plain (every first List.mem_cons_self)
        rw [List.dropWhile_cons, noSpace]
        exact sign_plain minus plus
  rw [atoi, strtol, plain, unsigned]
  simp only [whole, Bool.false_eq_true, if_false]
  rw [min_eq_left (by omega), Int.bmod_eq_of_le (by omega) (by omega)]

/-- A text is split at its only solidus. -/
theorem split_solidus {front digits : Bytes} (plain : 47 ∉ front) :
    (front ++ 47 :: digits).takeWhile (· ≠ 47) = front ∧
      ((front ++ 47 :: digits).dropWhile (· ≠ 47)).tail = digits ∧
      47 ∈ front ++ 47 :: digits := by
  have every : ∀ octet ∈ front, decide (octet ≠ 47) = true :=
    fun octet member => decide_eq_true fun same => plain (same ▸ member)
  refine ⟨?_, ?_, by simp⟩
  · rw [List.takeWhile_append_of_pos every]
    simp
  · rw [List.dropWhile_append_of_pos every]
    simp

theorem takeWhile_plain {text : Bytes} (plain : 47 ∉ text) : text.takeWhile (· ≠ 47) = text :=
  List.takeWhile_eq_self_iff.mpr fun _ member =>
    decide_eq_true fun same => plain (same ▸ member)

/-! ## The peer set -/

theorem parseCidr_range {text : Bytes} {range : Option (Nat × Nat)}
    (allowed : AllowedRange text range) : TSPeerSet.parseCidr text = range := by
  cases allowed with
  | host quad =>
      have solidus : 47 ∉ text := quad.not_mem rfl (by decide)
      have colon : 58 ∉ text := quad.not_mem rfl (by decide)
      rw [TSPeerSet.parseCidr, takeWhile_plain solidus, parseIpv4_quad quad]
      simp [solidus, colon]
  | cidr block =>
      cases block with
      | @block quad digits network parsed nonempty every small =>
          obtain ⟨front, back, solidus⟩ :=
            @split_solidus quad digits (parsed.not_mem rfl (by decide))
          have colon : 58 ∉ quad := parsed.not_mem rfl (by decide)
          have width : ¬ ((decimal digits : Int) < 0 ∨ (decimal digits : Int) > 32) := by omega
          rw [TSPeerSet.parseCidr, front, back, parseIpv4_quad parsed]
          simp only [if_pos solidus, atoi_digits nonempty every small, if_neg colon, if_neg width]
          rfl
  | ipv6 colon =>
      rw [TSPeerSet.parseCidr]
      simp only [if_pos colon]

/-! ## The routes -/

theorem not_space {octet : UInt8} (plain : isDigit octet = true ∨ octet = 46) :
    isSpace octet = false := by
  obtain digit | rfl := plain
  · exact (digit_plain digit).1
  · rfl

theorem trim_plain {text : Bytes} (plain : 0 ∉ text)
    (ends : ∀ octet ∈ text, isSpace octet = false) : trim (.ofBytes text) = .ofBytes text := by
  have kept {source : Bytes} (ends : ∀ octet ∈ source, isSpace octet = false) :
      source.dropWhile isSpace = source := by
    cases source with
    | nil => rfl
    | cons first rest => rw [List.dropWhile_cons, ends first List.mem_cons_self]; rfl
  have reversed : ∀ octet ∈ text.reverse, isSpace octet = false :=
    fun octet member => ends octet (List.mem_reverse.mp member)
  rw [trim, ofBytes_bytes plain, kept ends, kept reversed, List.reverse_reverse]

theorem ofBytes_ne_empty {source : Bytes} (plain : 0 ∉ source) (nonempty : source ≠ []) :
    CString.ofBytes source ≠ .empty := by
  intro same
  have bytes := congrArg CString.bytes same
  rw [ofBytes_bytes plain] at bytes
  exact nonempty bytes

/-- The route entry of an address and a width. -/
def allowedRoute (net : CString) (width : Nat) : AllowedRoute :=
  { net, mask := netmask width, isDefault := net = Tailscale.text "0.0.0.0" && (width : Int) = 0 }

theorem parseAllowedToken_host {text : Bytes} {address : Nat} (quad : Quad text address) :
    parseAllowedToken text = some (allowedRoute (.ofBytes text) 32) := by
  have nul : 0 ∉ text := quad.not_mem rfl (by decide)
  have solidus : 47 ∉ text := quad.not_mem rfl (by decide)
  have colon : 58 ∉ text := quad.not_mem rfl (by decide)
  have trimmed := trim_plain nul fun octet member => not_space (quad.plain octet member)
  have some := ofBytes_ne_empty nul quad.ne_nil
  have kept : ¬ (CString.ofBytes text = .empty ∨ 58 ∈ text) := not_or.mpr ⟨some, colon⟩
  have width : ¬ (CString.ofBytes text = .empty ∨ (32 : Int) < 0 ∨ (32 : Int) > 32) := by
    simp [some]
  rw [parseAllowedToken]
  simp only [trimmed, ofBytes_bytes nul, if_neg kept, if_neg solidus, takeWhile_plain solidus,
    if_neg width]
  rfl

theorem parseAllowedToken_cidr {quad digits : Bytes} {network : Nat} (parsed : Quad quad network)
    (nonempty : digits ≠ []) (every : ∀ octet ∈ digits, isDigit octet = true)
    (small : decimal digits ≤ 32) :
    parseAllowedToken (quad ++ 47 :: digits) =
      some (allowedRoute (.ofBytes quad) (decimal digits)) := by
  have nulQuad : 0 ∉ quad := parsed.not_mem rfl (by decide)
  have absent {octet : UInt8} (outside : octet ∉ quad) (stranger : isDigit octet = false)
      (other : octet ≠ 47) : octet ∉ quad ++ 47 :: digits := by
    simp only [List.mem_append, List.mem_cons, not_or]
    refine ⟨outside, other, fun member => ?_⟩
    rw [every octet member] at stranger
    cases stranger
  have nul : 0 ∉ quad ++ 47 :: digits := absent nulQuad rfl (by decide)
  have colon : 58 ∉ quad ++ 47 :: digits :=
    absent (parsed.not_mem rfl (by decide)) rfl (by decide)
  have trimmed : trim (.ofBytes (quad ++ 47 :: digits)) = .ofBytes (quad ++ 47 :: digits) := by
    refine trim_plain nul fun octet member => ?_
    simp only [List.mem_append, List.mem_cons] at member
    obtain member | rfl | member := member
    · exact not_space (parsed.plain octet member)
    · rfl
    · exact not_space (.inl (every octet member))
  have net := trim_plain nulQuad fun octet member => not_space (parsed.plain octet member)
  have whole := ofBytes_ne_empty nul (List.append_ne_nil_of_left_ne_nil parsed.ne_nil _)
  have some := ofBytes_ne_empty nulQuad parsed.ne_nil
  have kept : ¬ (CString.ofBytes (quad ++ 47 :: digits) = .empty ∨ 58 ∈ quad ++ 47 :: digits) :=
    not_or.mpr ⟨whole, colon⟩
  obtain ⟨front, back, solidus⟩ := @split_solidus quad digits (parsed.not_mem rfl (by decide))
  have width : ¬ (CString.ofBytes quad = .empty ∨ (decimal digits : Int) < 0 ∨
      (decimal digits : Int) > 32) := by
    simp only [some, false_or]
    omega
  rw [parseAllowedToken]
  simp only [trimmed, ofBytes_bytes nul, if_neg kept, if_pos solidus, front, back, net,
    atoi_digits nonempty every small, if_neg width]
  rfl

theorem parseAllowedIPs_token {text : Bytes} (noComma : 44 ∉ text) :
    parseAllowedIPs text = (parseAllowedToken text).toList := by
  rw [parseAllowedIPs, List.splitOn_eq_singleton noComma]
  cases token : parseAllowedToken text with
  | none => simp [token]
  | some route => simp [token]

/-- Trimming keeps every octet that is no blank. -/
theorem mem_trim {text : Bytes} (plain : 0 ∉ text) {octet : UInt8} (visible : isSpace octet = false)
    (member : octet ∈ text) : octet ∈ (trim (.ofBytes text)).bytes := by
  have kept {source : Bytes} (member : octet ∈ source) : octet ∈ source.dropWhile isSpace := by
    rw [← @List.takeWhile_append_dropWhile _ isSpace source, List.mem_append] at member
    refine member.resolve_left fun dropped => ?_
    rw [List.mem_takeWhile_imp dropped] at visible
    cases visible
  have trimmed : octet ∈ ((text.dropWhile isSpace).reverse.dropWhile isSpace).reverse :=
    List.mem_reverse.mpr (kept (List.mem_reverse.mpr (kept member)))
  have within : ∀ other ∈ ((text.dropWhile isSpace).reverse.dropWhile isSpace).reverse,
      other ∈ text := by
    intro other inside
    have back := (List.dropWhile_sublist _).subset (List.mem_reverse.mp inside)
    exact (List.dropWhile_sublist _).subset (List.mem_reverse.mp back)
  rw [trim, ofBytes_bytes plain, ofBytes_bytes fun zero => plain (within 0 zero)]
  exact trimmed

/-- An IPv6 entry calls for nothing, any other for one route of its address and width. -/
theorem parseAllowedIPs_range {text : Bytes} {range : Option (Nat × Nat)}
    (allowed : AllowedRange text range) :
    match range with
    | none => parseAllowedIPs text = []
    | some (network, width) => ∃ net, TSPeerSet.parseIpv4 net = some network ∧
        parseAllowedIPs text = [allowedRoute net width] := by
  cases allowed with
  | host quad =>
      refine ⟨.ofBytes text, parseIpv4_quad quad, ?_⟩
      rw [parseAllowedIPs_token (quad.not_mem rfl (by decide)), parseAllowedToken_host quad]
      rfl
  | cidr block =>
      cases block with
      | @block quad digits network parsed nonempty every small =>
          refine ⟨.ofBytes quad, parseIpv4_quad parsed, ?_⟩
          have noComma : 44 ∉ quad ++ 47 :: digits := by
            simp only [List.mem_append, List.mem_cons, not_or]
            refine ⟨parsed.not_mem rfl (by decide), by decide, fun member => ?_⟩
            cases every 44 member
          rw [parseAllowedIPs_token noComma, parseAllowedToken_cidr parsed nonempty every small]
          rfl
  | ipv6 colon noComma nul =>
      have trimmed := mem_trim nul rfl ((List.takeWhile_sublist _).subset colon)
      have skipped : parseAllowedToken text = none := by
        rw [parseAllowedToken]
        exact if_pos (.inr trimmed)
      simp only [parseAllowedIPs_token noComma, skipped, Option.toList_none]

end Sotoportego.Tailscale
