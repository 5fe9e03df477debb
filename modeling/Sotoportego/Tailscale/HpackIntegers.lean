import Sotoportego.Tailscale.HpackProperties

/-!
# Integers of any size

The number that octets stand for, without a limit, against what `_DecodeInteger` returns: it
is cut to 32 bits, and a fifth group can carry more than fits.
-/

set_option autoImplicit false

namespace Sotoportego.Tailscale

open Octets PrefixCode

namespace Hpack

open HpackEncoder (encodeInteger encodeMore)

/-! ## What the octets stand for -/

def low (octet : UInt8) : Nat := (octet &&& 0x7f).toNat

theorem low_lt (octet : UInt8) : low octet < 128 := by
  rw [low, UInt8.toNat_and]
  exact Nat.and_lt_two_pow octet.toNat (by decide : (0x7f : UInt8).toNat < 2 ^ 7)

/-- Groups of seven bits, the lowest first. -/
def groups : Bytes → Option (Nat × Bytes)
  | [] => none
  | octet :: rest =>
      if octet &&& 0x80 = 0 then some (low octet, rest)
      else (groups rest).map fun (more, after) => (low octet + 128 * more, after)

/-- The number at the start of the octets, and the octets after it. -/
def integer (prefixBits : Nat) : Bytes → Option (Nat × Bytes)
  | [] => none
  | octet :: rest =>
      let mask := 2 ^ prefixBits - 1
      if octet.toNat &&& mask < mask then some (octet.toNat &&& mask, rest)
      else (groups rest).map fun (more, after) => (mask + more, after)

/-- At least one octet is taken off the front. -/
theorem groups_taken {input rest : Bytes} {more : Nat} (read : groups input = some (more, rest)) :
    ∃ first taken, input = first :: taken ++ rest := by
  induction input generalizing more with
  | nil => cases read
  | cons octet input continued =>
      rw [groups] at read
      split at read
      next =>
        cases read
        exact ⟨octet, [], rfl⟩
      next =>
        obtain ⟨result, after, same⟩ := Option.map_eq_some_iff.mp read
        cases same
        obtain ⟨first, taken, rfl⟩ := continued after
        exact ⟨octet, first :: taken, rfl⟩

theorem groups_shorter {input rest : Bytes} {more : Nat} (read : groups input = some (more, rest)) :
    rest.length < input.length := by
  obtain ⟨first, taken, rfl⟩ := groups_taken read
  rw [List.length_append, List.length_cons]
  omega

theorem groups_suffix {input rest : Bytes} {more : Nat} (read : groups input = some (more, rest)) :
    rest <:+ input := by
  obtain ⟨first, taken, rfl⟩ := groups_taken read
  exact List.suffix_append _ _

theorem groups_lt {input rest : Bytes} {more : Nat} (read : groups input = some (more, rest)) :
    more < 128 ^ (input.length - rest.length) := by
  induction input generalizing more with
  | nil => cases read
  | cons octet input continued =>
      have small := low_lt octet
      rw [groups] at read
      split at read
      next =>
        cases read
        rw [List.length_cons, Nat.add_sub_cancel_left]
        exact small
      next =>
        obtain ⟨⟨higher, after⟩, read, same⟩ := Option.map_eq_some_iff.mp read
        cases same
        have bound := continued read
        have shorter := groups_shorter read
        rw [List.length_cons, Nat.succ_sub (Nat.le_of_lt shorter), Nat.pow_succ]
        omega

/-! ## What is returned -/

/-- The loop returns the groups cut to 32 bits, and no more than its limit lets it read. -/
theorem continueInteger_iff {input rest : Bytes} {value result shift left : Nat}
    (started : 0 < left) (limit : shift + 7 * left = 35) :
    continueInteger value shift input = some (result, rest) ↔
      ∃ more, groups input = some (more, rest) ∧ result = (value + more * 2 ^ shift) % 2 ^ 32 ∧
        input.length ≤ rest.length + left := by
  induction input generalizing value shift left with
  | nil => simp [continueInteger, groups]
  | cons octet input continued =>
      have added : ∀ number, (value + number <<< shift % 2 ^ 32) % 2 ^ 32 =
          (value + number * 2 ^ shift) % 2 ^ 32 := by
        intro number
        rw [Nat.shiftLeft_eq, Nat.add_mod_mod]
      rw [continueInteger, groups, added]
      by_cases last : octet &&& 0x80 = 0
      · rw [if_pos last, if_pos last]
        constructor
        · intro read
          cases read
          refine ⟨_, rfl, rfl, ?_⟩
          rw [List.length_cons]
          omega
        · rintro ⟨more, read, rfl, _⟩
          cases read
          rfl
      · rw [if_neg last, if_neg last]
        by_cases full : 28 < shift + 7
        · rw [if_pos full]
          constructor
          · intro read
            cases read
          · rintro ⟨more, read, _, few⟩
            obtain ⟨⟨higher, after⟩, read, same⟩ := Option.map_eq_some_iff.mp read
            cases same
            have shorter := groups_shorter read
            rw [List.length_cons] at few
            omega
        · have scaled : ∀ higher, ((value + low octet * 2 ^ shift) % 2 ^ 32 +
              higher * 2 ^ (shift + 7)) % 2 ^ 32 =
              (value + (low octet + 128 * higher) * 2 ^ shift) % 2 ^ 32 := by
            intro higher
            rw [Nat.mod_add_mod, Nat.pow_add]
            congr 1
            ring
          rw [if_neg full, continued (by omega : 0 < left - 1) (by omega)]
          constructor
          · rintro ⟨higher, read, rfl, few⟩
            refine ⟨low octet + 128 * higher, ?_, scaled higher, ?_⟩
            · rw [read, Option.map_some]
            · rw [List.length_cons]
              omega
          · rintro ⟨more, read, rfl, few⟩
            obtain ⟨⟨higher, after⟩, read, same⟩ := Option.map_eq_some_iff.mp read
            cases same
            refine ⟨higher, read, (scaled higher).symm, ?_⟩
            rw [List.length_cons] at few
            omega

/-! ## The fifth group -/

/-- Five groups follow a full prefix and reach 2^32 with it. -/
def Overflows (prefixBits : Nat) : Bytes → Prop
  | first :: o1 :: o2 :: o3 :: o4 :: o5 :: _ =>
      first.toNat &&& (2 ^ prefixBits - 1) = 2 ^ prefixBits - 1 ∧
        (∀ octet ∈ [o1, o2, o3, o4], octet &&& 0x80 ≠ 0) ∧ o5 &&& 0x80 = 0 ∧
        2 ^ 32 ≤ 2 ^ prefixBits - 1 + (low o1 + low o2 * 2 ^ 7 + low o3 * 2 ^ 14 +
          low o4 * 2 ^ 21 + low o5 * 2 ^ 28)
  | _ => False

theorem groups_five {o1 o2 o3 o4 o5 : UInt8} {rest : Bytes}
    (more : ∀ octet ∈ [o1, o2, o3, o4], octet &&& 0x80 ≠ 0) (last : o5 &&& 0x80 = 0) :
    groups (o1 :: o2 :: o3 :: o4 :: o5 :: rest) =
      some (low o1 + low o2 * 2 ^ 7 + low o3 * 2 ^ 14 + low o4 * 2 ^ 21 + low o5 * 2 ^ 28, rest) := by
  simp only [List.forall_mem_cons] at more
  obtain ⟨first, second, third, fourth, -⟩ := more
  simp only [groups, if_neg first, if_neg second, if_neg third, if_neg fourth, if_pos last,
    Option.map_some]
  congr 2
  ring

/-- Groups that are five octets long have the continuation bit on all but the last. -/
theorem groups_of_five {o1 o2 o3 o4 o5 : UInt8} {rest : Bytes} {number : Nat}
    (read : groups (o1 :: o2 :: o3 :: o4 :: o5 :: rest) = some (number, rest)) :
    (∀ octet ∈ [o1, o2, o3, o4], octet &&& 0x80 ≠ 0) ∧ o5 &&& 0x80 = 0 := by
  have onward {octet : UInt8} {front : Bytes} {number : Nat} (some : front ≠ [])
      (read : groups (octet :: (front ++ rest)) = Option.some (number, rest)) :
      octet &&& 0x80 ≠ 0 ∧ ∃ higher, groups (front ++ rest) = Option.some (higher, rest) := by
    rw [groups] at read
    split at read
    next =>
      have same := congrArg List.length (Prod.mk.inj (Option.some.inj read)).2
      rw [List.length_append] at same
      have positive := List.length_pos_of_ne_nil some
      omega
    next more =>
      obtain ⟨⟨higher, after⟩, read, same⟩ := Option.map_eq_some_iff.mp read
      cases same
      exact ⟨more, higher, read⟩
  obtain ⟨first, _, read⟩ := @onward _ [o2, o3, o4, o5] _ (by simp) read
  obtain ⟨second, _, read⟩ := @onward _ [o3, o4, o5] _ (by simp) read
  obtain ⟨third, _, read⟩ := @onward _ [o4, o5] _ (by simp) read
  obtain ⟨fourth, _, read⟩ := @onward _ [o5] _ (by simp) read
  refine ⟨?_, ?_⟩
  · simp only [List.forall_mem_cons]
    exact ⟨first, second, third, fourth, nofun⟩
  · by_contra more
    change groups (o5 :: rest) = some _ at read
    rw [groups, if_neg more] at read
    obtain ⟨result, after, same⟩ := Option.map_eq_some_iff.mp read
    cases same
    exact Nat.lt_irrefl _ (groups_shorter after)

/-- Four groups after a prefix of at most seven bits stay below 2^32. -/
theorem overflows_iff {prefixBits : Nat} (narrow : prefixBits ≤ 7) {first : UInt8} {input : Bytes}
    (full : first.toNat &&& (2 ^ prefixBits - 1) = 2 ^ prefixBits - 1) :
    Overflows prefixBits (first :: input) ↔ ∃ more rest, groups input = some (more, rest) ∧
      input.length ≤ rest.length + 5 ∧ 2 ^ 32 ≤ 2 ^ prefixBits - 1 + more := by
  constructor
  · intro overflows
    match input with
    | o1 :: o2 :: o3 :: o4 :: o5 :: rest =>
        obtain ⟨_, more, last, reached⟩ := overflows
        exact ⟨_, rest, groups_five more last, by simp, reached⟩
    | [] | [_] | [_, _] | [_, _, _] | [_, _, _, _] => exact overflows.elim
  · rintro ⟨more, rest, read, few, reached⟩
    have shorter := groups_shorter read
    have bounded := groups_lt read
    have mask : 2 ^ prefixBits ≤ 2 ^ 7 := Nat.pow_le_pow_right (by decide) narrow
    have five : input.length = rest.length + 5 := by
      by_contra fewer
      have four : 128 ^ (input.length - rest.length) ≤ 128 ^ 4 :=
        Nat.pow_le_pow_right (by decide) (by omega)
      omega
    have suffix := groups_suffix read
    obtain ⟨taken, rfl⟩ := suffix
    rw [List.length_append] at five
    match taken, (by omega : taken.length = 5) with
    | [o1, o2, o3, o4, o5], _ =>
        obtain ⟨flags, last⟩ := groups_of_five read
        rw [show [o1, o2, o3, o4, o5] ++ rest = o1 :: o2 :: o3 :: o4 :: o5 :: rest from rfl,
          groups_five flags last] at read
        cases read
        exact ⟨full, flags, last, reached⟩

/-- The octets of the number are passed over, and no others. -/
def Exact (prefixBits : Nat) (input : Bytes) : Prop :=
  ∀ value rest, decodeInteger prefixBits input = some (value, rest) →
    integer prefixBits input = some (value, rest)

theorem exact_iff {prefixBits : Nat} (narrow : prefixBits ≤ 7) (input : Bytes) :
    Exact prefixBits input ↔ ¬ Overflows prefixBits input := by
  cases input with
  | nil => exact ⟨fun _ => id, fun _ _ _ => nofun⟩
  | cons first input =>
      by_cases short : first.toNat &&& (2 ^ prefixBits - 1) < 2 ^ prefixBits - 1
      · have apart : ¬ Overflows prefixBits (first :: input) := by
          match input with
          | o1 :: o2 :: o3 :: o4 :: o5 :: rest =>
              rintro ⟨full, _⟩
              omega
          | [] | [_] | [_, _] | [_, _, _] | [_, _, _, _] => exact id
        refine iff_of_true ?_ apart
        intro value rest decoded
        rw [decodeInteger] at decoded
        simp only [if_pos short] at decoded
        rw [integer]
        simp only [if_pos short, decoded]
      · have full : first.toNat &&& (2 ^ prefixBits - 1) = 2 ^ prefixBits - 1 := by
          have below : first.toNat &&& (2 ^ prefixBits - 1) ≤ 2 ^ prefixBits - 1 := Nat.and_le_right
          omega
        rw [overflows_iff narrow full, Exact, decodeInteger, integer]
        simp only [full, Nat.lt_irrefl, if_false, continueInteger_iff (by decide : 0 < 5) rfl,
          Nat.pow_zero, Nat.mul_one]
        constructor
        · rintro exact ⟨more, rest, read, few, reached⟩
          have same := exact _ rest ⟨more, read, rfl, few⟩
          rw [read, Option.map_some, Option.some_inj, Prod.mk.injEq] at same
          omega
        · rintro fits value rest ⟨more, read, rfl, few⟩
          have below : 2 ^ prefixBits - 1 + more < 2 ^ 32 := by
            by_contra reached
            exact fits ⟨more, rest, read, few, by omega⟩
          rw [read, Option.map_some, Nat.mod_eq_of_lt below]

theorem flagged_of_clear {prefixBits : Nat} (narrow : prefixBits ≤ 7) {mask : UInt8}
    (clear : mask.toNat &&& (2 ^ prefixBits - 1) = 0) : Flagged prefixBits mask := by
  intro number small
  have octet : 2 ^ prefixBits ≤ 2 ^ 7 := Nat.pow_le_pow_right (by decide) narrow
  rw [UInt8.toNat_or, UInt8.toNat_ofNat', Nat.mod_eq_of_lt (by omega), Nat.and_or_distrib_right,
    clear, Nat.zero_or, Nat.and_two_pow_sub_one_eq_mod, Nat.mod_eq_of_lt small]

/-- What is returned is the number of the octets, unless a fifth group carries too much; and
what was encoded is returned. -/
theorem integers_exact_iff {prefixBits : Nat} (narrow : prefixBits ≤ 7) :
    (∀ (buf : Bytes) (position : Nat), Exact prefixBits (buf.drop position) ↔
        ¬ Overflows prefixBits (buf.drop position)) ∧
      ∀ (mask : UInt8) (value : UInt32) (rest : Bytes), mask.toNat &&& (2 ^ prefixBits - 1) = 0 →
        decodeInteger prefixBits (encodeInteger prefixBits mask value.toNat ++ rest) =
          some (value.toNat, rest) := by
  refine ⟨fun buf position => exact_iff narrow _, ?_⟩
  intro mask value rest clear
  exact decodeInteger_encodeInteger (flagged_of_clear narrow clear) value.toNat_lt rest

theorem integers_exact_iff_sample :
    Exact 5 [0x3f, 0x9a, 0x0a] ∧
      decodeInteger 5 (encodeInteger 5 0x20 1337 ++ [0x82]) = some (1337, [0x82]) :=
  ⟨((integers_exact_iff (by decide)).1 [0x3f, 0x9a, 0x0a] 0).mpr id,
    (integers_exact_iff (by decide)).2 0x20 1337 [0x82] (by decide)⟩

/-- 127 and sixteen times 2^28 are returned as 127. -/
theorem fifth_group_wraps :
    ¬ ∀ (prefixBits : Nat) (buf : Bytes) (position : Nat), 1 ≤ prefixBits → prefixBits ≤ 7 →
      Exact prefixBits (buf.drop position) := by
  intro claim
  have returned : decodeInteger 7 [0xff, 0x80, 0x80, 0x80, 0x80, 0x10] = some (127, []) := by
    decide +kernel
  have number : integer 7 [0xff, 0x80, 0x80, 0x80, 0x80, 0x10] = some (127 + 2 ^ 32, []) := by
    decide +kernel
  have same := claim 7 [0xff, 0x80, 0x80, 0x80, 0x80, 0x10] 0 (by decide) (by decide) 127 []
    returned
  rw [List.drop_zero, number] at same
  simp at same

end Hpack

end Sotoportego.Tailscale
