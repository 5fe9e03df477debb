import Mathlib.Data.List.Basic

/-!
# Lines of a stream

A stream is cut at every mark into its terminated lines and an unterminated rest. Cutting
what is left of one part together with the next part is cutting both parts at once.
-/

set_option autoImplicit false

namespace Lines

variable {α : Type*} [DecidableEq α]

/-- A value before a stream that is already cut. -/
def extend (head : α) : List (List α) × List α → List (List α) × List α
  | ([], rest) => ([], head :: rest)
  | (line :: lines, rest) => ((head :: line) :: lines, rest)

/-- The terminated lines without their marks, and what follows the last of them. -/
def cut (mark : α) : List α → List (List α) × List α
  | [] => ([], [])
  | head :: stream =>
      let (lines, rest) := cut mark stream
      if head = mark then ([] :: lines, rest) else extend head (lines, rest)

def terminated (mark : α) (stream : List α) : List (List α) := (cut mark stream).1

def unterminated (mark : α) (stream : List α) : List α := (cut mark stream).2

variable {mark : α}

theorem cut_mark (stream : List α) :
    cut mark (mark :: stream) = ([] :: terminated mark stream, unterminated mark stream) := by
  simp [cut, terminated, unterminated]

theorem cut_other {head : α} (other : head ≠ mark) (stream : List α) :
    cut mark (head :: stream) = extend head (cut mark stream) := by
  simp [cut, other]

/-- The cut takes the stream apart, and leaves no mark in a line or in the rest. -/
theorem cut_spec (mark : α) (stream : List α) :
    ((terminated mark stream).map (· ++ [mark])).flatten ++ unterminated mark stream = stream ∧
      (∀ line ∈ terminated mark stream, mark ∉ line) ∧ mark ∉ unterminated mark stream := by
  induction stream with
  | nil => simp [terminated, unterminated, cut]
  | cons head stream continued =>
      obtain ⟨joined, lines, rest⟩ := continued
      by_cases same : head = mark
      · subst same
        have cutHead := @cut_mark _ _ head stream
        rw [terminated, unterminated, cutHead]
        refine ⟨by simpa using joined, fun line member => ?_, rest⟩
        obtain rfl | member := List.mem_cons.mp member
        · exact List.not_mem_nil
        · exact lines line member
      · have cutHead := cut_other same stream
        have parts : cut mark stream = (terminated mark stream, unterminated mark stream) := rfl
        rw [terminated, unterminated, cutHead, parts]
        cases whole : terminated mark stream with
        | nil =>
            rw [whole] at joined
            refine ⟨by simpa [extend] using joined, by simp [extend], ?_⟩
            simp only [extend, List.mem_cons, not_or]
            exact ⟨fun equal => same equal.symm, rest⟩
        | cons line others =>
            rw [whole] at joined lines
            refine ⟨by simpa [extend] using joined, fun entry member => ?_, rest⟩
            obtain rfl | member := List.mem_cons.mp member
            · simp only [List.mem_cons, not_or]
              exact ⟨fun equal => same equal.symm, lines line List.mem_cons_self⟩
            · exact lines entry (List.mem_cons_of_mem _ member)

theorem not_mem_unterminated (mark : α) (stream : List α) : mark ∉ unterminated mark stream :=
  (cut_spec mark stream).2.2

theorem cut_append (mark : α) (front back : List α) :
    cut mark (front ++ back) =
      (terminated mark front ++ terminated mark (unterminated mark front ++ back),
        unterminated mark (unterminated mark front ++ back)) := by
  induction front with
  | nil => rfl
  | cons head front continued =>
      by_cases same : head = mark
      · subst same
        have late : cut head (front ++ back) =
            (terminated head (front ++ back), unterminated head (front ++ back)) := rfl
        rw [late, Prod.mk.injEq] at continued
        have first : terminated head (head :: front) = [] :: terminated head front := by
          rw [terminated, cut_mark]
        have left : unterminated head (head :: front) = unterminated head front := by
          rw [unterminated, cut_mark]
        rw [List.cons_append, cut_mark, continued.1, continued.2, first, left]
        rfl
      · rw [List.cons_append, cut_other same, continued]
        simp only [terminated, unterminated, cut_other same]
        obtain ⟨lines, rest⟩ := cut mark front
        cases lines with
        | nil => simp [extend, cut_other same]
        | cons line lines => rfl

/-- A rest without a mark goes in front of the first line, or of the rest. -/
theorem cut_unterminated {left : List α} (unmarked : mark ∉ left) (stream : List α) :
    cut mark (left ++ stream) =
      match cut mark stream with
      | ([], rest) => ([], left ++ rest)
      | (line :: lines, rest) => ((left ++ line) :: lines, rest) := by
  induction left with
  | nil =>
      rw [List.nil_append]
      obtain ⟨lines, rest⟩ := cut mark stream
      cases lines <;> rfl
  | cons head left continued =>
      obtain ⟨other, unmarked⟩ := List.ne_and_not_mem_of_not_mem_cons unmarked
      rw [List.cons_append, cut_other (Ne.symm other), continued unmarked]
      obtain ⟨lines, rest⟩ := cut mark stream
      cases lines <;> rfl

/-! ## Pieces -/

/-- The pieces that the marks separate; the rest is one of them. -/
def pieces (mark : α) (stream : List α) : List (List α) :=
  terminated mark stream ++ [unterminated mark stream]

theorem pieces_append (front back : List α) :
    pieces mark (front ++ mark :: back) = pieces mark front ++ pieces mark back := by
  have whole := cut_append mark front (mark :: back)
  have rest := cut_unterminated (not_mem_unterminated mark front) (mark :: back)
  simp only [cut_mark, List.append_nil] at rest
  have parts : cut mark (unterminated mark front ++ mark :: back) =
      (unterminated mark front :: terminated mark back, unterminated mark back) := rest
  rw [terminated.eq_def mark (_ ++ _), unterminated.eq_def mark (_ ++ _), parts] at whole
  rw [pieces, terminated, unterminated, whole]
  simp [pieces]

theorem pieces_single {piece : List α} (whole : mark ∉ piece) : pieces mark piece = [piece] := by
  have cut := cut_unterminated whole []
  rw [List.append_nil] at cut
  rw [pieces, terminated, unterminated, cut]
  simp [Lines.cut]

theorem intercalate_cons {α : Type*} {mark : α} (piece next : List α) (list : List (List α)) :
    [mark].intercalate (piece :: next :: list) =
      piece ++ mark :: [mark].intercalate (next :: list) := by
  simp [List.intercalate]

theorem mem_intercalate {α : Type*} {mark value : α} {list : List (List α)}
    (member : value ∈ [mark].intercalate list) :
    value = mark ∨ ∃ piece ∈ list, value ∈ piece := by
  induction list with
  | nil => simp [List.intercalate] at member
  | cons piece list continued =>
      cases list with
      | nil => exact .inr ⟨piece, List.mem_cons_self, by simpa using member⟩
      | cons next list =>
          rw [intercalate_cons, List.mem_append, List.mem_cons] at member
          rcases member with inside | rfl | later
          · exact .inr ⟨piece, List.mem_cons_self, inside⟩
          · exact .inl rfl
          · rcases continued later with same | ⟨other, listed, inside⟩
            · exact .inl same
            · exact .inr ⟨other, List.mem_cons_of_mem _ listed, inside⟩

/-- Pieces without the mark are found again behind the marks between them. -/
theorem pieces_intercalate {list : List (List α)} (filled : list ≠ [])
    (whole : ∀ piece ∈ list, mark ∉ piece) : pieces mark ([mark].intercalate list) = list := by
  induction list with
  | nil => exact absurd rfl filled
  | cons piece list continued =>
      have first := whole piece List.mem_cons_self
      cases list with
      | nil => simpa using pieces_single first
      | cons next list =>
          have rest := continued (List.cons_ne_nil _ _) fun other member =>
            whole other (List.mem_cons_of_mem _ member)
          rw [intercalate_cons, pieces_append, pieces_single first, rest]
          rfl

end Lines
