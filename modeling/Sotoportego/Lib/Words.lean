import Mathlib.Algebra.BigOperators.Intervals
import Mathlib.Data.UInt

/-!
# Words whose arithmetic is watched

Sums and products of 32-bit words as the machine forms them, with a flag that stays `true` as
long as none of them wrapped. Below the modulus the words calculate like the natural numbers
they stand for.
-/

set_option autoImplicit false

namespace Words

structure Tracked (α : Type) where
  value : α
  /-- Nothing wrapped so far. -/
  exact : Bool

namespace Tracked

theorem ext {α : Type} {left right : Tracked α} (value : left.value = right.value)
    (exact : left.exact = right.exact) : left = right := by
  cases left
  cases right
  cases value
  cases exact
  rfl

instance : Monad Tracked where
  pure value := ⟨value, true⟩
  bind first next := ⟨(next first.value).value, first.exact && (next first.value).exact⟩

variable {α β : Type}

@[simp] theorem pure_value (value : α) : (pure value : Tracked α).value = value := rfl

@[simp] theorem pure_exact (value : α) : (pure value : Tracked α).exact = true := rfl

@[simp] theorem pure_bind (value : α) (next : α → Tracked β) : (pure value >>= next) = next value :=
  ext rfl (Bool.true_and _)

instance : LawfulMonad Tracked :=
  LawfulMonad.mk' Tracked
    (fun tracked => ext rfl (Bool.and_true _))
    (fun value next => pure_bind value next)
    (fun _ _ _ => ext rfl (Bool.and_assoc _ _ _))

/-- A list of exact results. -/
theorem mapM_exact {f : α → Tracked β} {g : α → β} {list : List α}
    (every : ∀ member ∈ list, f member = pure (g member)) : list.mapM f = pure (list.map g) := by
  induction list with
  | nil => rfl
  | cons member list continued =>
      rw [List.mapM_cons, every member List.mem_cons_self, pure_bind,
        continued fun later inside => every later (List.mem_cons_of_mem _ inside), pure_bind]
      rfl

end Tracked

def add (left right : UInt32) : Tracked UInt32 := ⟨left + right, left.toNat + right.toNat < 2 ^ 32⟩

def mul (left right : UInt32) : Tracked UInt32 := ⟨left * right, left.toNat * right.toNat < 2 ^ 32⟩

/-! ## Words as natural numbers -/

theorem toNat_ofNat {value : Nat} (small : value < 2 ^ 32) : (UInt32.ofNat value).toNat = value := by
  rw [UInt32.toNat_ofNat']
  exact Nat.mod_eq_of_lt small

theorem add_ofNat {left right : Nat} (fits : left + right < 2 ^ 32) :
    add (.ofNat left) (.ofNat right) = pure (.ofNat (left + right)) := by
  apply Tracked.ext
  · exact (UInt32.ofNat_add left right).symm
  · have exact : (UInt32.ofNat left).toNat + (UInt32.ofNat right).toNat < 2 ^ 32 := by
      rwa [toNat_ofNat (by omega), toNat_ofNat (by omega)]
    exact decide_eq_true exact

theorem mul_ofNat {left right : Nat} (fits : left * right < 2 ^ 32) (small : left < 2 ^ 32)
    (other : right < 2 ^ 32) :
    mul (.ofNat left) (.ofNat right) = pure (.ofNat (left * right)) := by
  apply Tracked.ext
  · exact (UInt32.ofNat_mul left right).symm
  · have exact : (UInt32.ofNat left).toNat * (UInt32.ofNat right).toNat < 2 ^ 32 := by
      rwa [toNat_ofNat small, toNat_ofNat other]
    exact decide_eq_true exact

/-- The low bits of a word. -/
theorem and_ofNat {value : Nat} (bits : Nat) (small : value < 2 ^ 32) (narrow : bits ≤ 32) :
    UInt32.ofNat value &&& .ofNat (2 ^ bits - 1) = .ofNat (value % 2 ^ bits) := by
  have below : 2 ^ bits ≤ 2 ^ 32 := Nat.pow_le_pow_right (by decide) narrow
  have positive : 0 < 2 ^ bits := Nat.two_pow_pos bits
  have rest : value % 2 ^ bits < 2 ^ bits := Nat.mod_lt _ positive
  apply UInt32.toNat_inj.mp
  rw [UInt32.toNat_and, toNat_ofNat small, toNat_ofNat (by omega), toNat_ofNat (by omega),
    Nat.and_two_pow_sub_one_eq_mod]

theorem shiftRight_ofNat {value : Nat} (bits : Nat) (small : value < 2 ^ 32) (narrow : bits < 32) :
    UInt32.ofNat value >>> .ofNat bits = .ofNat (value / 2 ^ bits) := by
  have quotient : value / 2 ^ bits ≤ value := Nat.div_le_self _ _
  apply UInt32.toNat_inj.mp
  rw [UInt32.toNat_shiftRight, toNat_ofNat small, toNat_ofNat (by omega), toNat_ofNat (by omega),
    Nat.mod_eq_of_lt narrow, Nat.shiftRight_eq_div_pow]

/-- A sum of bounded words. -/
theorem foldlM_add {term : Nat → Tracked UInt32} {value : Nat → Nat} {bound : Nat} (n : Nat)
    (each : ∀ j < n, term j = pure (.ofNat (value j)) ∧ value j ≤ bound) (fits : n * bound < 2 ^ 32) :
    (List.range n).foldlM (fun x j => do add x (← term j)) 0 =
        pure (.ofNat (∑ j ∈ Finset.range n, value j)) ∧
      ∑ j ∈ Finset.range n, value j ≤ n * bound := by
  induction n with
  | zero => exact ⟨rfl, by simp⟩
  | succ n continued =>
      have smaller : n * bound + bound < 2 ^ 32 := by rwa [← Nat.succ_mul]
      obtain ⟨run, bounded⟩ := continued (fun j inside => each j (Nat.lt_succ_of_lt inside)) (by omega)
      obtain ⟨last, small⟩ := each n (Nat.lt_succ_self n)
      rw [Finset.sum_range_succ]
      constructor
      · rw [List.range_succ, List.foldlM_append, run, Tracked.pure_bind]
        simp only [List.foldlM_cons, List.foldlM_nil, last, Tracked.pure_bind]
        rw [add_ofNat (by omega), Tracked.pure_bind]
      · rw [Nat.succ_mul]
        omega

end Words
