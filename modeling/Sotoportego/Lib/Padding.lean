import Mathlib.Data.List.DropRight

/-!
# Padding

A bare text begins and ends with values that are no padding. Dropping the padding around it
gives it back.
-/

set_option autoImplicit false

namespace Padding

variable {α : Type*} {pad : α → Bool}

/-- No padding at either end. -/
structure Bare (pad : α → Bool) (text : List α) : Prop where
  first : ∀ value ∈ text.head?, pad value = false
  last : ∀ value ∈ text.getLast?, pad value = false

/-- Dropping at the end stops at a value that is no padding. -/
theorem rdropWhile_append_cons {mark : α} (solid : pad mark = false) (front back : List α) :
    (front ++ mark :: back).rdropWhile pad = front ++ mark :: back.rdropWhile pad := by
  induction back using List.reverseRecOn with
  | nil => simp [solid]
  | append_singleton back last continued =>
      rw [← List.cons_append, ← List.append_assoc]
      by_cases padding : pad last = true
      · rw [List.rdropWhile_concat_pos _ _ _ padding, List.rdropWhile_concat_pos _ _ _ padding,
          continued]
      · rw [List.rdropWhile_concat_neg _ _ _ padding, List.rdropWhile_concat_neg _ _ _ padding]
        simp

theorem rtakeWhile_append_cons {mark : α} (solid : pad mark = false) (front : List α)
    {back : List α} (every : ∀ value ∈ back, pad value = true) :
    (front ++ mark :: back).rtakeWhile pad = back := by
  have whole : (front ++ mark :: back).rdropWhile pad ++ (front ++ mark :: back).rtakeWhile pad =
      front ++ mark :: back := List.rdropWhile_append_rtakeWhile
  rw [rdropWhile_append_cons solid, List.rdropWhile_eq_nil_iff.mpr every] at whole
  have shape : front ++ mark :: back = (front ++ [mark]) ++ back := by simp
  rw [shape] at whole ⊢
  exact List.append_cancel_left whole

/-- Both ends dropped from a bare text between padding. -/
theorem trim_padded {left text right : List α} (early : ∀ value ∈ left, pad value = true)
    (bare : Bare pad text) (late : ∀ value ∈ right, pad value = true) :
    ((left ++ text ++ right).dropWhile pad).rdropWhile pad = text := by
  rw [List.append_assoc, List.dropWhile_append_of_pos early]
  cases text with
  | nil =>
      rw [List.nil_append, List.dropWhile_eq_nil_iff.mpr late, List.rdropWhile_nil]
  | cons first rest =>
      rw [List.cons_append, List.dropWhile_cons_of_neg (by simp [bare.first first rfl]),
        ← List.cons_append]
      have nonempty : first :: rest ≠ [] := List.cons_ne_nil _ _
      have solid := bare.last _ (List.getLast_mem_getLast? nonempty)
      have shape := List.dropLast_append_getLast nonempty
      rw [← shape, List.append_assoc, List.singleton_append, rdropWhile_append_cons solid,
        List.rdropWhile_eq_nil_iff.mpr late]

/-- What is left of a text around a value that is no padding. -/
theorem trim_around {left back : List α} {mark : α} (early : ∀ value ∈ left, pad value = true)
    (solid : pad mark = false) :
    ((left ++ mark :: back).dropWhile pad).rdropWhile pad = mark :: back.rdropWhile pad := by
  rw [List.dropWhile_append_of_pos early, List.dropWhile_cons_of_neg (by simp [solid])]
  exact rdropWhile_append_cons solid [] back

/-- Padding in front of a dropped end stays padding. -/
theorem rdropWhile_padded {left text right : List α} (early : ∀ value ∈ left, pad value = true)
    (bare : Bare pad text) (late : ∀ value ∈ right, pad value = true) :
    (((left ++ text ++ right).rdropWhile pad).dropWhile pad).rdropWhile pad = text := by
  cases text with
  | nil =>
      have every : ∀ value ∈ left ++ [] ++ right, pad value = true := by
        intro value member
        rw [List.append_nil] at member
        obtain before | after := List.mem_append.mp member
        · exact early value before
        · exact late value after
      rw [List.rdropWhile_eq_nil_iff.mpr every]
      rfl
  | cons first rest =>
      have nonempty : first :: rest ≠ [] := List.cons_ne_nil _ _
      have solid := bare.last _ (List.getLast_mem_getLast? nonempty)
      have shape := List.dropLast_append_getLast nonempty
      have trimmed : (left ++ (first :: rest) ++ right).rdropWhile pad =
          left ++ (first :: rest) ++ [] := by
        rw [← shape, ← List.append_assoc, List.append_assoc _ [_], List.singleton_append,
          rdropWhile_append_cons solid, List.rdropWhile_eq_nil_iff.mpr late,
          List.append_nil]
      rw [trimmed]
      exact trim_padded early bare (List.forall_mem_nil _)

end Padding
