import Mathlib.Algebra.BigOperators.Intervals
import Mathlib.Algebra.BigOperators.Ring.Finset
import Mathlib.Data.Nat.Digits.Lemmas
import Mathlib.Tactic.Ring

/-!
# Numbers in limbs

Carries through little-endian limbs, and the product that folds what passes the last limb back
to the first.
-/

set_option autoImplicit false

namespace Limbs

open Finset

/-! ## Carries -/

/-- The limbs below the base, from the carry `u` on, and the carry out of the last. -/
def carry (base : Nat) : Nat → List Nat → List Nat × Nat
  | u, [] => ([], u)
  | u, limb :: limbs =>
      let (low, last) := carry base ((u + limb) / base) limbs
      ((u + limb) % base :: low, last)

section Carry

variable {base : Nat}

theorem carry_cons (u limb : Nat) (limbs : List Nat) :
    carry base u (limb :: limbs) =
      ((u + limb) % base :: (carry base ((u + limb) / base) limbs).1,
        (carry base ((u + limb) / base) limbs).2) := rfl

@[simp] theorem length_carry (u : Nat) (limbs : List Nat) :
    (carry base u limbs).1.length = limbs.length := by
  induction limbs generalizing u with
  | nil => rfl
  | cons limb limbs continued => rw [carry_cons, List.length_cons, continued, List.length_cons]

theorem carry_lt (positive : 0 < base) (u : Nat) (limbs : List Nat) :
    ∀ limb ∈ (carry base u limbs).1, limb < base := by
  induction limbs generalizing u with
  | nil => simp [carry]
  | cons limb limbs continued =>
      rw [carry_cons]
      exact List.forall_mem_cons.mpr ⟨Nat.mod_lt _ positive, continued _⟩

/-- Carrying keeps the number. -/
theorem carry_value (u : Nat) (limbs : List Nat) :
    Nat.ofDigits base (carry base u limbs).1 + base ^ limbs.length * (carry base u limbs).2 =
      u + Nat.ofDigits base limbs := by
  induction limbs generalizing u with
  | nil => simp [carry]
  | cons limb limbs continued =>
      have rest := continued ((u + limb) / base)
      have split := Nat.mod_add_div (u + limb) base
      rw [carry_cons, Nat.ofDigits_cons, Nat.ofDigits_cons, List.length_cons, pow_succ]
      simp only
      calc
        _ = (u + limb) % base + base * (Nat.ofDigits base (carry base ((u + limb) / base) limbs).1 +
            base ^ limbs.length * (carry base ((u + limb) / base) limbs).2) := by ring
        _ = (u + limb) % base + base * ((u + limb) / base) + base * Nat.ofDigits base limbs := by
          rw [rest]
          ring
        _ = u + (limb + base * Nat.ofDigits base limbs) := by
          rw [split]
          ring

/-- What the limbs can hold, and what is carried out of them. -/
theorem carry_eq (large : 1 < base) (u : Nat) (limbs : List Nat) :
    Nat.ofDigits base (carry base u limbs).1 = (u + Nat.ofDigits base limbs) % base ^ limbs.length ∧
      (carry base u limbs).2 = (u + Nat.ofDigits base limbs) / base ^ limbs.length := by
  have bound := Nat.ofDigits_lt_base_pow_length large (carry_lt (Nat.zero_lt_of_lt large) u limbs)
  rw [length_carry] at bound
  have positive : 0 < base ^ limbs.length := Nat.pow_pos (Nat.zero_lt_of_lt large)
  rw [← carry_value u limbs]
  constructor
  · rw [Nat.add_mul_mod_self_left, Nat.mod_eq_of_lt bound]
  · rw [Nat.add_mul_div_left _ _ positive, Nat.div_eq_of_lt bound, Nat.zero_add]

/-- What is carried out of bounded limbs is bounded like them. -/
theorem carry_le {bound : Nat} (large : 1 < base) {u : Nat} {limbs : List Nat} (first : u ≤ bound)
    (every : ∀ limb ∈ limbs, limb ≤ bound) : (carry base u limbs).2 ≤ bound := by
  induction limbs generalizing u with
  | nil => exact first
  | cons limb limbs continued =>
      obtain ⟨head, rest⟩ := List.forall_mem_cons.mp every
      refine continued ?_ rest
      calc
        (u + limb) / base ≤ (u + limb) / 2 := Nat.div_le_div_left large (by decide)
        _ ≤ bound := by omega

end Carry

/-! ## Limbs one by one -/

/-- The number as the sum of its limbs. -/
theorem ofDigits_eq_sum (base : Nat) (limbs : List Nat) :
    Nat.ofDigits base limbs = ∑ i ∈ range limbs.length, limbs.getD i 0 * base ^ i := by
  induction limbs with
  | nil => rfl
  | cons limb limbs continued =>
      rw [Nat.ofDigits_cons, continued, List.length_cons, sum_range_succ', mul_sum, Nat.add_comm]
      simp only [List.getD_cons_succ, List.getD_cons_zero, pow_zero, mul_one]
      congr 1
      refine sum_congr rfl fun i _ => ?_
      ring

/-- The limbs of a bitwise conjunction. -/
theorem ofDigits_and {bits : Nat} {left right : List Nat} (same : left.length = right.length)
    (leftSmall : ∀ limb ∈ left, limb < 2 ^ bits) (rightSmall : ∀ limb ∈ right, limb < 2 ^ bits) :
    Nat.ofDigits (2 ^ bits) (List.zipWith (· &&& ·) left right) =
      Nat.ofDigits (2 ^ bits) left &&& Nat.ofDigits (2 ^ bits) right := by
  induction left generalizing right with
  | nil => simp
  | cons a left continued =>
      cases right with
      | nil => cases same
      | cons b right =>
          obtain ⟨aSmall, leftSmall⟩ := List.forall_mem_cons.mp leftSmall
          obtain ⟨bSmall, rightSmall⟩ := List.forall_mem_cons.mp rightSmall
          rw [List.zipWith_cons_cons, Nat.ofDigits_cons, Nat.ofDigits_cons, Nat.ofDigits_cons,
            continued (Nat.succ_inj.mp same) leftSmall rightSmall,
            ← Nat.mod_add_div (a + 2 ^ bits * Nat.ofDigits (2 ^ bits) left &&&
              b + 2 ^ bits * Nat.ofDigits (2 ^ bits) right) (2 ^ bits),
            Nat.and_mod_two_pow, Nat.and_div_two_pow, Nat.add_mul_mod_self_left,
            Nat.add_mul_mod_self_left, Nat.mod_eq_of_lt aSmall, Nat.mod_eq_of_lt bSmall,
            Nat.add_mul_div_left _ _ (Nat.two_pow_pos bits),
            Nat.add_mul_div_left _ _ (Nat.two_pow_pos bits), Nat.div_eq_of_lt aSmall,
            Nat.div_eq_of_lt bSmall, Nat.zero_add, Nat.zero_add]

/-! ## Products -/

section Product

variable {R : Type*} [CommSemiring R] {base wrap : R} {n : Nat}

/-- One row: what passes the last limb comes back multiplied. -/
theorem cyclic_row (wraps : base ^ n = wrap) (r : Nat → R) {j : Nat} (inside : j < n) :
    ∑ i ∈ range n, (if j ≤ i then r (i - j) else wrap * r (i + n - j)) * base ^ i =
      base ^ j * ∑ k ∈ range n, r k * base ^ k := by
  obtain ⟨m, rfl⟩ := Nat.exists_eq_add_of_le (Nat.le_of_lt inside)
  have folded : ∑ i ∈ range j, (if j ≤ i then r (i - j) else wrap * r (i + (j + m) - j)) * base ^ i =
      base ^ j * ∑ i ∈ range j, r (m + i) * base ^ (m + i) := by
    rw [mul_sum]
    refine sum_congr rfl fun i member => ?_
    have below : ¬ j ≤ i := Nat.not_le.mpr (mem_range.mp member)
    have position : i + (j + m) - j = m + i := by omega
    rw [if_neg below, position, ← wraps]
    ring
  have shifted : ∑ i ∈ range m,
      (if j ≤ j + i then r (j + i - j) else wrap * r (j + i + (j + m) - j)) * base ^ (j + i) =
        base ^ j * ∑ i ∈ range m, r i * base ^ i := by
    rw [mul_sum]
    refine sum_congr rfl fun i _ => ?_
    rw [if_pos (Nat.le_add_right j i), Nat.add_sub_cancel_left]
    ring
  rw [sum_range_add, folded, shifted, Nat.add_comm j m, sum_range_add]
  ring

/-- Multiplication of numbers in `n` limbs where `base ^ n` counts as `wrap`. -/
theorem cyclic_product (wraps : base ^ n = wrap) (h r : Nat → R) :
    ∑ i ∈ range n,
        (∑ j ∈ range n, h j * (if j ≤ i then r (i - j) else wrap * r (i + n - j))) * base ^ i =
      (∑ j ∈ range n, h j * base ^ j) * ∑ k ∈ range n, r k * base ^ k := by
  calc
    _ = ∑ i ∈ range n, ∑ j ∈ range n,
          h j * ((if j ≤ i then r (i - j) else wrap * r (i + n - j)) * base ^ i) := by
      simp only [sum_mul, mul_assoc]
    _ = ∑ j ∈ range n, h j * ∑ i ∈ range n,
          (if j ≤ i then r (i - j) else wrap * r (i + n - j)) * base ^ i := by
      rw [sum_comm]
      simp only [mul_sum]
    _ = ∑ j ∈ range n, h j * base ^ j * ∑ k ∈ range n, r k * base ^ k := by
      refine sum_congr rfl fun j member => ?_
      rw [cyclic_row wraps r (mem_range.mp member), mul_assoc]
    _ = _ := (sum_mul _ _ _).symm

end Product

end Limbs
