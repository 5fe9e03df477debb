import Mathlib.Data.Set.Insert
import Mathlib.Data.Nat.ModEq

/-!
# Acceptance windows over a ring of bit blocks

The RFC 6479 scheme for any number of blocks and any block width: numbers up to
`top` are recorded one bit each in a ring, and the ring is cleared block by block
as `top` advances. `Tracks` relates a ring to the set of accepted numbers.
-/

set_option autoImplicit false

namespace SlidingWindow

structure Ring where
  top : Nat
  bit : Nat → Nat → Bool

def clear (blocks : Nat) (bit : Nat → Nat → Bool) (current : Nat) : Nat → Nat → Nat → Bool
  | 0 => bit
  | count + 1 => fun block position =>
      if block = (count + 1 + current) % blocks then false
      else clear blocks bit current count block position

def mark (bit : Nat → Nat → Bool) (block position : Nat) : Nat → Nat → Bool :=
  fun block' position' => if block' = block ∧ position' = position then true
    else bit block' position'

namespace Ring

def advance (blocks width : Nat) (ring : Ring) (number : Nat) : Ring :=
  if ring.top < number then
    { top := number
      bit := clear blocks ring.bit (ring.top / width)
        (min (number / width - ring.top / width) blocks) }
  else ring

/-- Accepts `number` unless it is older than the window or already recorded. -/
def validate (blocks width : Nat) (ring : Ring) (number : Nat) : Ring × Bool :=
  if width * (blocks - 1) + number < ring.top then (ring, false)
  else
    let ring := ring.advance blocks width number
    if ring.bit (number / width % blocks) (number % width) = true then (ring, false)
    else
      ({ ring with bit := mark ring.bit (number / width % blocks) (number % width) }, true)

/-- The blocks from the top one down to `blocks - 1` below it hold exactly the
accepted numbers; stale bits elsewhere are not constrained. -/
structure Tracks (blocks width : Nat) (ring : Ring) (accepted : Set Nat) : Prop where
  below : ∀ number ∈ accepted, number ≤ ring.top
  recorded : ∀ number, number / width ≤ ring.top / width →
    ring.top / width < number / width + blocks →
    (ring.bit (number / width % blocks) (number % width) = true ↔ number ∈ accepted)

end Ring

theorem clear_eq_true_iff (blocks : Nat) (bit : Nat → Nat → Bool) (current count : Nat)
    (block position : Nat) :
    clear blocks bit current count block position = true ↔
      bit block position = true ∧
        ∀ step, 1 ≤ step → step ≤ count → block ≠ (step + current) % blocks := by
  induction count with
  | zero =>
      constructor
      · intro set
        exact ⟨set, by omega⟩
      · intro set
        exact set.1
  | succ count previous =>
      simp only [clear]
      split
      · next cleared =>
        constructor
        · intro impossible
          cases impossible
        · rintro ⟨_, outside⟩
          exact absurd cleared (outside (count + 1) (by omega) (by omega))
      · next kept =>
        rw [previous]
        constructor
        · rintro ⟨set, outside⟩
          refine ⟨set, ?_⟩
          intro step positive bounded
          rcases Nat.lt_or_ge count step with last | earlier
          · have same : step = count + 1 := by omega
            exact same ▸ kept
          · exact outside step positive earlier
        · rintro ⟨set, outside⟩
          exact ⟨set, fun step positive bounded => outside step positive (by omega)⟩

theorem mark_eq_true_iff (bit : Nat → Nat → Bool) (block position block' position' : Nat) :
    mark bit block position block' position' = true ↔
      (block' = block ∧ position' = position) ∨ bit block' position' = true := by
  unfold mark
  split
  · next same => simp [same]
  · next different => simp [different]

/-- Two block numbers less than one turn apart share a slot only when equal. -/
theorem slot_injective {blocks left right : Nat} (ordered : left ≤ right)
    (near : right < left + blocks) (same : left % blocks = right % blocks) : left = right := by
  have divides : blocks ∣ right - left :=
    Nat.dvd_of_mod_eq_zero (Nat.sub_mod_eq_zero_of_mod_eq same.symm)
  have zero : right - left = 0 := Nat.eq_zero_of_dvd_of_lt divides (by omega)
  omega

namespace Ring

variable {blocks width : Nat} {ring : Ring} {accepted : Set Nat}

theorem tracks_empty (bit : Nat → Nat → Bool) (unset : ∀ block position, bit block position = false) :
    Tracks blocks width ⟨0, bit⟩ ∅ where
  below := by
    intro number member
    exact absurd member (Set.notMem_empty number)
  recorded := by
    intro number _ _
    simp [unset]

theorem top_advance (blocks width : Nat) (ring : Ring) (number : Nat) :
    (ring.advance blocks width number).top = max ring.top number := by
  unfold advance
  split
  · next newer => exact (Nat.max_eq_right (Nat.le_of_lt newer)).symm
  · next older => exact (Nat.max_eq_left (Nat.le_of_not_lt older)).symm

theorem le_top_advance (blocks width : Nat) (ring : Ring) (number : Nat) :
    number ≤ (ring.advance blocks width number).top := by
  rw [top_advance]
  exact Nat.le_max_right _ _

/-- Every block entered by an advance is cleared, whatever the distance. -/
private theorem cleared_above {current target block : Nat} (entered : current < block)
    (reached : block ≤ target) (positive : 0 < blocks) :
    ∃ step, 1 ≤ step ∧ step ≤ min (target - current) blocks ∧
      block % blocks = (step + current) % blocks := by
  have bounded := Nat.mod_lt (block - current - 1) positive
  have smaller := Nat.mod_le (block - current - 1) blocks
  refine ⟨(block - current - 1) % blocks + 1, by omega, by omega, ?_⟩
  have turn : (block - current - 1) % blocks + (1 + current) ≡
      block - current - 1 + (1 + current) [MOD blocks] :=
    (Nat.mod_modEq _ _).add_right _
  have sum : block - current - 1 + (1 + current) = block := by omega
  rw [sum] at turn
  rw [Nat.add_assoc]
  exact turn.symm

theorem tracks_advance (positive : 0 < blocks) (tracks : ring.Tracks blocks width accepted)
    (number : Nat) : (ring.advance blocks width number).Tracks blocks width accepted := by
  by_cases newer : ring.top < number
  · rw [advance, if_pos newer]
    constructor
    · intro old member
      have := tracks.below old member
      exact Nat.le_of_lt (Nat.lt_of_le_of_lt this newer)
    · intro other below above
      simp only at below above
      simp only [clear_eq_true_iff]
      rcases Nat.lt_or_ge (ring.top / width) (other / width) with entered | retained
      · obtain ⟨step, first, last, slot⟩ := cleared_above entered below positive
        have unseen : other ∉ accepted := by
          intro member
          have := Nat.div_le_div_right (c := width) (tracks.below other member)
          omega
        constructor
        · rintro ⟨_, outside⟩
          exact absurd slot (outside step first last)
        · intro member
          exact absurd member unseen
      · have ordered : ring.top / width ≤ number / width :=
          Nat.div_le_div_right (Nat.le_of_lt newer)
        rw [tracks.recorded other retained (by omega)]
        constructor
        · exact And.left
        · intro member
          refine ⟨member, ?_⟩
          intro step first last slot
          have same := slot_injective (by omega) (by omega) slot
          omega
  · rw [advance, if_neg newer]
    exact tracks

/-- A number inside the window still has a block of its own after the advance. -/
private theorem block_in_ring (positive : 0 < blocks) (wide : 0 < width) {number : Nat}
    (inside : ring.top ≤ width * (blocks - 1) + number) :
    (ring.advance blocks width number).top / width < number / width + blocks := by
  rw [top_advance]
  have widened : max ring.top number ≤ number + width * (blocks - 1) := by
    rw [Nat.add_comm]
    omega
  have divided := Nat.div_le_div_right (c := width) widened
  rw [Nat.add_mul_div_left _ _ wide] at divided
  omega

theorem validate_eq_true_iff (positive : 0 < blocks) (wide : 0 < width)
    (tracks : ring.Tracks blocks width accepted) (number : Nat) :
    (ring.validate blocks width number).2 = true ↔
      number ∉ accepted ∧ ring.top ≤ width * (blocks - 1) + number := by
  unfold validate
  split
  · next stale =>
    constructor
    · intro impossible
      cases impossible
    · rintro ⟨_, inside⟩
      omega
  · next inside =>
    have advanced := (tracks_advance positive tracks number).recorded number
      (Nat.div_le_div_right (le_top_advance blocks width ring number))
      (block_in_ring positive wide (by omega))
    simp only
    split
    · next set =>
      have member := advanced.mp set
      simp [member]
    · next unset =>
      have unseen : number ∉ accepted := fun member => unset (advanced.mpr member)
      simp only [true_iff]
      exact ⟨unseen, by omega⟩

theorem tracks_validate (positive : 0 < blocks) (wide : 0 < width)
    (tracks : ring.Tracks blocks width accepted) (number : Nat) :
    (ring.validate blocks width number).1.Tracks blocks width
      {other | other ∈ accepted ∨
        (other = number ∧ (ring.validate blocks width number).2 = true)} := by
  unfold validate
  split
  · simpa using tracks
  · next inside =>
    have advanced := tracks_advance positive tracks number
    have inRing : (ring.advance blocks width number).top / width < number / width + blocks :=
      block_in_ring positive wide (by omega)
    have underTop : number / width ≤ (ring.advance blocks width number).top / width :=
      Nat.div_le_div_right (le_top_advance blocks width ring number)
    simp only
    split
    · simpa using advanced
    · constructor
      · intro other member
        rcases member with old | ⟨new, _⟩
        · exact advanced.below other old
        · exact new ▸ le_top_advance blocks width ring number
      · intro other below above
        simp only at below above
        simp only [mark_eq_true_iff, Set.mem_ofPred_eq, and_true]
        rw [advanced.recorded other below above]
        constructor
        · rintro (⟨slot, position⟩ | old)
          · right
            have block : other / width = number / width := by
              rcases Nat.le_total (other / width) (number / width) with ordered | ordered
              · exact slot_injective ordered (by omega) slot
              · exact (slot_injective ordered (by omega) slot.symm).symm
            rw [← Nat.div_add_mod other width, ← Nat.div_add_mod number width, block, position]
          · exact Or.inl old
        · rintro (old | new)
          · exact Or.inr old
          · left
            rw [new]
            exact ⟨rfl, rfl⟩

/-- The top is an accepted number as soon as anything was accepted. -/
theorem attained_validate (positive : 0 < blocks) (wide : 0 < width)
    (tracks : ring.Tracks blocks width accepted) (number : Nat)
    (attained : ring.top = 0 ∨ ring.top ∈ accepted) :
    (ring.validate blocks width number).1.top = 0 ∨
      ((ring.validate blocks width number).1.top ∈ accepted ∨
        ((ring.validate blocks width number).1.top = number ∧
          (ring.validate blocks width number).2 = true)) := by
  unfold validate
  split
  · exact attained.imp_right Or.inl
  · next inside =>
    have advanced := (tracks_advance positive tracks number).recorded number
      (Nat.div_le_div_right (le_top_advance blocks width ring number))
      (block_in_ring positive wide (by omega))
    simp only
    split
    · next set =>
      have old : ¬ring.top < number := Nat.not_lt.mpr (tracks.below number (advanced.mp set))
      simp only [advance, if_neg old]
      exact attained.imp_right Or.inl
    · simp only [top_advance, and_true]
      rcases Nat.le_total ring.top number with newer | older
      · rw [Nat.max_eq_right newer]
        exact Or.inr (Or.inr rfl)
      · rw [Nat.max_eq_left older]
        exact attained.imp_right Or.inl

end Ring

end SlidingWindow
