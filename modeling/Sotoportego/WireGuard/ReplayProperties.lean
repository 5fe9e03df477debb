import Mathlib.Data.Nat.Bitwise
import Sotoportego.Lib.SlidingWindow
import Sotoportego.WireGuard.Replay

/-!
# The receive window as a ring of bits

`_ReplayValidate` on the 128-word bitmap is the ring of `SlidingWindow` with 128
blocks of 64 bits, entered with the counter plus one.
-/

set_option autoImplicit false

namespace Sotoportego.WireGuard

namespace ReplayWindow

/-- The bitmap read as a ring of single bits. -/
def ring (window : ReplayWindow) : SlidingWindow.Ring where
  top := window.counter.toNat
  bit block position :=
    if inside : block < 128 then (window.bitmap[block]).toNat.testBit position else false

theorem toNat_replayBit (counter : UInt64) :
    ((1 : UInt64) <<< (counter &&& (kReplayBits - 1))).toNat = 2 ^ (counter.toNat % 64) := by
  have mask : (kReplayBits - 1).toNat = 2 ^ 6 - 1 := rfl
  have bounded : counter.toNat % 2 ^ 6 < 64 := Nat.mod_lt _ (by decide)
  rw [UInt64.toNat_shiftLeft, UInt64.toNat_and, mask, Nat.and_two_pow_sub_one_eq_mod,
    Nat.mod_eq_of_lt bounded, UInt64.toNat_one, Nat.shiftLeft_eq, Nat.one_mul]
  exact Nat.mod_eq_of_lt (Nat.pow_lt_pow_right (by decide) bounded)

private theorem and_replayBit_ne_zero (word counter : UInt64) :
    word &&& (1 <<< (counter &&& (kReplayBits - 1))) ≠ 0 ↔
      word.toNat.testBit (counter.toNat % 64) = true := by
  rw [Ne, ← UInt64.toNat_inj, UInt64.toNat_and, toNat_replayBit, UInt64.toNat_zero,
    Nat.and_two_pow]
  cases word.toNat.testBit (counter.toNat % 64) <;> simp

private theorem testBit_or_replayBit (word counter : UInt64) (position : Nat) :
    (word ||| (1 <<< (counter &&& (kReplayBits - 1)))).toNat.testBit position =
      if position = counter.toNat % 64 then true else word.toNat.testBit position := by
  rw [UInt64.toNat_or, toNat_replayBit, Nat.testBit_or, Nat.testBit_two_pow]
  split
  · next same => simp [same]
  · next different => simp [Ne.symm different]

private theorem clearBlocks_bit (bitmap : Vector UInt64 128) (current count block position : Nat)
    (inside : block < 128) :
    ((clearBlocks bitmap current count)[block]).toNat.testBit position =
      SlidingWindow.clear 128 (fun block position =>
        if inside : block < 128 then (bitmap[block]).toNat.testBit position else false)
        current count block position := by
  induction count with
  | zero => simp [clearBlocks, SlidingWindow.clear, inside]
  | succ count previous =>
      simp only [clearBlocks, SlidingWindow.clear, Vector.getElem_set]
      by_cases cleared : block = (count + 1 + current) % 128
      · rw [if_pos cleared.symm, if_pos cleared, UInt64.toNat_zero, Nat.zero_testBit]
      · rw [if_neg (Ne.symm cleared), if_neg cleared, previous]

theorem toNat_shiftRight_six (value : UInt64) : (value >>> 6).toNat = value.toNat / 64 := by
  simp [Nat.shiftRight_eq_div_pow]

theorem ring_record (window : ReplayWindow) (counter : UInt64) :
    (window.record counter).2 =
        !window.ring.bit (counter.toNat / 64 % 128) (counter.toNat % 64) ∧
      (window.record counter).1.ring =
        if window.ring.bit (counter.toNat / 64 % 128) (counter.toNat % 64) = true then window.ring
        else { window.ring with
          bit := SlidingWindow.mark window.ring.bit (counter.toNat / 64 % 128)
            (counter.toNat % 64) } := by
  have inside : counter.toNat / 64 % 128 < 128 := Nat.mod_lt _ (by decide)
  have bit_eq : window.ring.bit (counter.toNat / 64 % 128) (counter.toNat % 64) =
      (window.bitmap[counter.toNat / 64 % 128]).toNat.testBit (counter.toNat % 64) := by
    simp [ring, inside]
  simp only [record, toNat_shiftRight_six, and_replayBit_ne_zero, bit_eq]
  split
  · next set => exact ⟨by simp [set], rfl⟩
  · next unset =>
    refine ⟨by simp [unset], ?_⟩
    simp only [ring, SlidingWindow.Ring.mk.injEq, true_and]
    funext block position
    simp only [SlidingWindow.mark]
    by_cases inRing : block < 128
    · simp only [inRing, dite_true, Vector.getElem_set]
      by_cases same : counter.toNat / 64 % 128 = block
      · subst same
        rw [if_pos rfl, testBit_or_replayBit]
        simp
      · rw [if_neg same]
        simp [Ne.symm same]
    · have different : block ≠ counter.toNat / 64 % 128 := fun same => inRing (same ▸ inside)
      simp [inRing, different]

theorem ring_advance (window : ReplayWindow) (counter : UInt64) :
    (window.advance counter).ring = window.ring.advance 128 64 counter.toNat := by
  by_cases newer : window.counter < counter
  · have ordered : window.counter.toNat < counter.toNat := UInt64.lt_iff_toNat_lt.mp newer
    have blocks : (counter >>> 6 - window.counter >>> 6).toNat =
        counter.toNat / 64 - window.counter.toNat / 64 := by
      rw [UInt64.toNat_sub_of_le, toNat_shiftRight_six, toNat_shiftRight_six]
      rw [UInt64.le_iff_toNat_le, toNat_shiftRight_six, toNat_shiftRight_six]
      exact Nat.div_le_div_right (Nat.le_of_lt ordered)
    have clipped : (if (counter >>> 6) - (window.counter >>> 6) > kReplayBlocks then
        kReplayBlocks else (counter >>> 6) - (window.counter >>> 6)).toNat =
        min (counter.toNat / 64 - window.counter.toNat / 64) 128 := by
      have whole : kReplayBlocks.toNat = 128 := rfl
      split
      · next above =>
        have := UInt64.lt_iff_toNat_lt.mp above
        omega
      · next below =>
        have := mt UInt64.lt_iff_toNat_lt.mpr below
        omega
    simp only [advance, if_pos newer, clipped, toNat_shiftRight_six]
    rw [SlidingWindow.Ring.advance, if_pos (show window.ring.top < counter.toNat from ordered)]
    simp only [ring, SlidingWindow.Ring.mk.injEq, true_and]
    funext block position
    by_cases inside : block < 128
    · simp only [inside, dite_true]
      exact clearBlocks_bit _ _ _ _ _ inside
    · simp only [inside, dite_false]
      symm
      rw [Bool.eq_false_iff, Ne, SlidingWindow.clear_eq_true_iff]
      simp [inside]
  · have ordered : ¬window.ring.top < counter.toNat := mt UInt64.lt_iff_toNat_lt.mpr newer
    rw [advance, if_neg newer, SlidingWindow.Ring.advance, if_neg ordered]

theorem validate_of_spent {window : ReplayWindow} {counter : UInt64}
    (spent : kRejectAfterMessages ≤ counter) : window.validate counter = (window, false) := by
  rw [validate, if_pos spent]

/-- Below the message limit nothing overflows and the window takes exactly
the ring's step. -/
theorem ring_validate (window : ReplayWindow) (counter : UInt64)
    (live : counter < kRejectAfterMessages) :
    (window.validate counter).1.ring =
        (window.ring.validate 128 64 (counter.toNat + 1)).1 ∧
      (window.validate counter).2 =
        (window.ring.validate 128 64 (counter.toNat + 1)).2 := by
  have limit : kRejectAfterMessages.toNat = 2 ^ 64 - 8194 := by decide
  have bounded := UInt64.lt_iff_toNat_lt.mp live
  have next_eq : (counter + 1).toNat = counter.toNat + 1 := by
    rw [UInt64.toNat_add, UInt64.toNat_one]
    omega
  have stale_iff : kReplayWindow + (counter + 1) < window.counter ↔
      64 * (128 - 1) + (counter.toNat + 1) < window.ring.top := by
    have size : kReplayWindow.toNat = 8128 := by decide
    rw [UInt64.lt_iff_toNat_lt, UInt64.toNat_add, next_eq, size]
    simp only [ring]
    omega
  rw [validate, if_neg (UInt64.not_le.mpr live), SlidingWindow.Ring.validate]
  by_cases stale : kReplayWindow + (counter + 1) < window.counter
  · rw [if_pos stale, if_pos (stale_iff.mp stale)]
    exact ⟨rfl, rfl⟩
  · obtain ⟨fresh_eq, ring_eq⟩ :=
      ring_record (window.advance (counter + 1)) (counter + 1)
    rw [ring_advance, next_eq] at fresh_eq ring_eq
    simp only [if_neg stale, if_neg (mt stale_iff.mpr stale)]
    rw [ring_eq, fresh_eq]
    split
    · next set => exact ⟨rfl, by simp [set]⟩
    · next unset => exact ⟨rfl, by simp [unset]⟩

/-- The window as a set of numbers: what is accepted, and what is recorded after. -/
theorem validate_tracks {window : ReplayWindow} {accepted : Set Nat}
    (tracks : window.ring.Tracks 128 64 accepted)
    (attained : window.ring.top = 0 ∨ window.ring.top ∈ accepted) (counter : UInt64) :
    ((window.validate counter).2 = true ↔ counter < kRejectAfterMessages ∧
        counter.toNat + 1 ∉ accepted ∧ window.ring.top ≤ 8128 + (counter.toNat + 1)) ∧
      (window.validate counter).1.ring.Tracks 128 64 {number | number ∈ accepted ∨
        (number = counter.toNat + 1 ∧ (window.validate counter).2 = true)} ∧
      ((window.validate counter).1.ring.top = 0 ∨
        ((window.validate counter).1.ring.top ∈ accepted ∨
          ((window.validate counter).1.ring.top = counter.toNat + 1 ∧
            (window.validate counter).2 = true))) := by
  by_cases live : counter < kRejectAfterMessages
  · obtain ⟨ring_eq, fresh_eq⟩ := ring_validate window counter live
    rw [ring_eq, fresh_eq]
    refine ⟨?_, ?_, ?_⟩
    · rw [SlidingWindow.Ring.validate_eq_true_iff (by decide) (by decide) tracks]
      simp [live]
    · exact SlidingWindow.Ring.tracks_validate (by decide) (by decide) tracks _
    · exact SlidingWindow.Ring.attained_validate (by decide) (by decide) tracks _ attained
  · rw [validate_of_spent (UInt64.not_lt.mp live)]
    refine ⟨by simp [live], by simpa using tracks, attained.imp_right Or.inl⟩

/-- A refused counter never moves the window: one above the top is fresh. -/
theorem validate_refused {window : ReplayWindow} {accepted : Set Nat}
    (tracks : window.ring.Tracks 128 64 accepted) {counter : UInt64}
    (refused : (window.validate counter).2 = false) :
    (window.validate counter).1 = window := by
  by_cases live : counter < kRejectAfterMessages
  · by_cases stale : kReplayWindow + (counter + 1) < window.counter
    · rw [validate, if_neg (UInt64.not_le.mpr live), if_pos stale]
    · have limit : kRejectAfterMessages.toNat = 2 ^ 64 - 8194 := by decide
      have bounded := UInt64.lt_iff_toNat_lt.mp live
      have next_eq : (counter + 1).toNat = counter.toNat + 1 := by
        rw [UInt64.toNat_add, UInt64.toNat_one]
        omega
      have still : window.advance (counter + 1) = window := by
        rw [advance, if_neg]
        intro newer
        have above : window.ring.top < counter.toNat + 1 := next_eq ▸ UInt64.lt_iff_toNat_lt.mp newer
        have fresh : (window.ring.validate 128 64 (counter.toNat + 1)).2 = true := by
          rw [SlidingWindow.Ring.validate_eq_true_iff (by decide) (by decide) tracks]
          refine ⟨fun member => ?_, by omega⟩
          exact absurd (tracks.below _ member) (by omega)
        rw [← (ring_validate window counter live).2, refused] at fresh
        cases fresh
      rw [validate, if_neg (UInt64.not_le.mpr live)] at refused ⊢
      simp only [if_neg stale, still, record] at refused ⊢
      split
      · rfl
      · next unset =>
        rw [if_neg unset] at refused
        cases refused
  · rw [validate_of_spent (UInt64.not_lt.mp live)]

end ReplayWindow

end Sotoportego.WireGuard
