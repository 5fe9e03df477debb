import Mathlib.Data.List.Basic

/-!
# Blocks with the last one held back

A message is cut into blocks of one size, and the last block, even a full one, is set apart
from the others. What follows a message changes neither its earlier blocks nor the chain of
states over them.
-/

set_option autoImplicit false

namespace HeldBack

variable {State Value : Type*} (size : Nat)

/-- The blocks before the last one. -/
def full (message : List Value) : Nat := (message.length - 1) / size

def block (message : List Value) (index : Nat) : List Value :=
  (message.drop (size * index)).take size

def held (message : List Value) : List Value := message.drop (size * full size message)

variable (step : Nat → State → List Value → State) (start : State)

/-- The state after the first blocks, each with its index. -/
def chain (message : List Value) : Nat → State
  | 0 => start
  | count + 1 => step count (chain message count) (block size message count)

variable {size step start} {message : List Value}

theorem full_le : size * full size message ≤ message.length :=
  Nat.le_trans (Nat.mul_div_le _ _) (Nat.sub_le _ _)

theorem length_held : (held size message).length = message.length - size * full size message := by
  rw [held, List.length_drop]

theorem held_le (positive : 0 < size) : (held size message).length ≤ size := by
  have remainder := Nat.mod_lt (message.length - 1) positive
  have parts := Nat.div_add_mod (message.length - 1) size
  rw [length_held, full]
  omega

/-- The last block is the one that the end of the message lies in. -/
theorem full_eq {count : Nat} (before : size * count < message.length)
    (upTo : message.length ≤ size * (count + 1)) : full size message = count := by
  rw [full]
  refine Nat.div_eq_of_lt_le ?_ ?_
  · rw [Nat.mul_comm]
    omega
  · rw [Nat.mul_comm]
    omega

theorem held_nil : held size ([] : List Value) = [] := by simp [held]

theorem full_nil : full size ([] : List Value) = 0 := by simp [full]

theorem block_append {index : Nat} (inside : size * (index + 1) ≤ message.length)
    (more : List Value) : block size (message ++ more) index = block size message index := by
  rw [Nat.mul_succ] at inside
  rw [block, block, List.drop_append_of_le_length (by omega),
    List.take_append_of_le_length (by rw [List.length_drop]; omega)]

theorem chain_append {count : Nat} (inside : size * count ≤ message.length) (more : List Value) :
    chain size step start (message ++ more) count = chain size step start message count := by
  induction count with
  | zero => rfl
  | succ count continued =>
      have earlier : size * count ≤ message.length := by
        rw [Nat.mul_succ] at inside
        omega
      rw [chain, chain, continued earlier, block_append inside]

end HeldBack
