import Mathlib.Data.Nat.Bitwise
import Sotoportego.Lib.CText

/-!
# IPv4 blocks

The addresses that agree with a network on its leading bits, as the mask says it and as a
division, and the texts `a.b.c.d` and `a.b.c.d/n` that name them.
-/

set_option autoImplicit false

namespace Ipv4

open Octets CText

/-! ## Masks -/

def mask (width : Nat) : Nat := 2 ^ 32 - 2 ^ (32 - width)

/-- The address agrees with the network under the mask. -/
def Contains (network width address : Nat) : Prop :=
  address &&& mask width = network &&& mask width

instance decidableContains (network width address : Nat) :
    Decidable (Contains network width address) :=
  inferInstanceAs (Decidable (address &&& mask width = network &&& mask width))

theorem and_mask {address width : Nat} (small : address < 2 ^ 32) (narrow : width ≤ 32) :
    address &&& mask width = address / 2 ^ (32 - width) * 2 ^ (32 - width) := by
  have shifted : mask width = (2 ^ width - 1) <<< (32 - width) := by
    rw [mask, Nat.shiftLeft_eq, Nat.sub_mul, Nat.one_mul, ← Nat.pow_add, Nat.add_sub_cancel' narrow]
  rw [shifted, ← Nat.shiftLeft_eq, ← Nat.shiftRight_eq_div_pow]
  apply Nat.eq_of_testBit_eq
  intro position
  simp only [Nat.testBit_and, Nat.testBit_shiftLeft, Nat.testBit_two_pow_sub_one,
    Nat.testBit_shiftRight]
  by_cases high : 32 - width ≤ position
  · simp only [high, decide_true, Bool.true_and, Nat.add_sub_cancel' high]
    by_cases inside : position < 32
    · simp [show position - (32 - width) < width by omega]
    · have zero : address.testBit position = false :=
        Nat.testBit_lt_two_pow (Nat.lt_of_lt_of_le small
          (Nat.pow_le_pow_right (by decide) (Nat.le_of_not_lt inside)))
      simp [zero]
  · simp [high]

theorem contains_iff {network width address : Nat} (netSmall : network < 2 ^ 32)
    (small : address < 2 ^ 32) (narrow : width ≤ 32) :
    Contains network width address ↔
      network / 2 ^ (32 - width) = address / 2 ^ (32 - width) := by
  rw [Contains, and_mask small narrow, and_mask netSmall narrow,
    Nat.mul_left_inj (Nat.ne_of_gt (Nat.two_pow_pos _)), eq_comm]

theorem Contains.symm {network width address : Nat} (inside : Contains network width address) :
    Contains address width network :=
  Eq.symm inside

theorem Contains.trans {network width middle address : Nat}
    (first : Contains network width middle) (second : Contains middle width address) :
    Contains network width address :=
  Eq.trans second first

/-- A block lies inside the wider one of the same network. -/
theorem Contains.widen {network width wider address : Nat} (netSmall : network < 2 ^ 32)
    (small : address < 2 ^ 32) (narrow : width ≤ 32) (less : wider ≤ width)
    (inside : Contains network width address) : Contains network wider address := by
  rw [contains_iff netSmall small narrow] at inside
  rw [contains_iff netSmall small (by omega)]
  have split : 2 ^ (32 - wider) = 2 ^ (32 - width) * 2 ^ (width - wider) := by
    rw [← Nat.pow_add]
    congr 1
    omega
  rw [split, ← Nat.div_div_eq_div_mul, inside, Nat.div_div_eq_div_mul]

/-! ## Texts -/

/-- A run of digits with a value up to 255. -/
structure Field (digits : Bytes) : Prop where
  nonempty : digits ≠ []
  digit : ∀ octet ∈ digits, isDigit octet = true
  small : decimal digits ≤ 255

/-- `a.b.c.d`, and the address it is. -/
inductive Quad : Bytes → Nat → Prop where
  | fields {a b c d : Bytes} : Field a → Field b → Field c → Field d →
      Quad (a ++ 46 :: (b ++ 46 :: (c ++ 46 :: d)))
        (((decimal a * 256 + decimal b) * 256 + decimal c) * 256 + decimal d)

/-- `a.b.c.d/n`, the address and the width. -/
inductive Cidr : Bytes → Nat → Nat → Prop where
  | block {quad digits : Bytes} {network : Nat} : Quad quad network → digits ≠ [] →
      (∀ octet ∈ digits, isDigit octet = true) → decimal digits ≤ 32 →
      Cidr (quad ++ 47 :: digits) network (decimal digits)

theorem Quad.lt {text : Bytes} {address : Nat} (quad : Quad text address) : address < 2 ^ 32 := by
  cases quad with
  | fields first second third fourth =>
      have a := first.small
      have b := second.small
      have c := third.small
      have d := fourth.small
      omega

theorem Cidr.lt {text : Bytes} {network width : Nat} (cidr : Cidr text network width) :
    network < 2 ^ 32 := by
  cases cidr with
  | block quad => exact quad.lt

theorem Cidr.narrow {text : Bytes} {network width : Nat} (cidr : Cidr text network width) :
    width ≤ 32 := by
  cases cidr with
  | block _ _ _ small => exact small

/-- Only digits and full stops. -/
theorem Quad.plain {text : Bytes} {address : Nat} (quad : Quad text address) :
    ∀ octet ∈ text, isDigit octet = true ∨ octet = 46 := by
  cases quad with
  | fields first second third fourth =>
      intro octet member
      simp only [List.mem_append, List.mem_cons] at member
      obtain member | rfl | member | rfl | member | rfl | member := member
      · exact .inl (first.digit octet member)
      · exact .inr rfl
      · exact .inl (second.digit octet member)
      · exact .inr rfl
      · exact .inl (third.digit octet member)
      · exact .inr rfl
      · exact .inl (fourth.digit octet member)

theorem Quad.ne_nil {text : Bytes} {address : Nat} (quad : Quad text address) : text ≠ [] := by
  cases quad with
  | fields first => exact List.append_ne_nil_of_left_ne_nil first.nonempty _

/-- An octet that is neither digit nor full stop does not occur. -/
theorem Quad.not_mem {text : Bytes} {address : Nat} (quad : Quad text address) {octet : UInt8}
    (stranger : isDigit octet = false) (noDot : octet ≠ 46) : octet ∉ text := by
  intro member
  cases quad.plain octet member with
  | inl digit =>
      rw [stranger] at digit
      cases digit
  | inr dot => exact noDot dot

end Ipv4
