import Mathlib.Data.List.Basic

/-!
# Streams as a reader meets them

A stream arrives in chunks, and a read may time out between two of them. `read` answers
one bounded read and `collect` reads on until it has a given count.
-/

set_option autoImplicit false

namespace Deliveries

variable {α : Type*}

/-- A chunk, which holds at least one element, or a receive timeout. -/
inductive Delivery (α : Type*) where
  | chunk (first : α) (more : List α)
  | timeout
  deriving DecidableEq

/-- Everything still to arrive. -/
def arriving : List (Delivery α) → List α
  | [] => []
  | .chunk first more :: rest => first :: more ++ arriving rest
  | .timeout :: rest => arriving rest

/-- How much arrives after each of the timeouts. -/
def pauses : List (Delivery α) → List Nat
  | [] => []
  | .chunk _ _ :: rest => pauses rest
  | .timeout :: rest => (arriving rest).length :: pauses rest

theorem pauses_eq_nil {stream : List (Delivery α)} (never : .timeout ∉ stream) :
    pauses stream = [] := by
  induction stream with
  | nil => rfl
  | cons delivery rest continued =>
      rw [List.mem_cons, not_or] at never
      cases delivery with
      | chunk first more => exact continued never.2
      | timeout => exact (never.1 rfl).elim

/-- The unread part of a chunk stays in front. -/
def putBack : List α → List (Delivery α) → List (Delivery α)
  | [], rest => rest
  | first :: more, rest => .chunk first more :: rest

@[simp] theorem arriving_putBack (unread : List α) (rest : List (Delivery α)) :
    arriving (putBack unread rest) = unread ++ arriving rest := by
  cases unread with
  | nil => rfl
  | cons first more => rfl

@[simp] theorem pauses_putBack (unread : List α) (rest : List (Delivery α)) :
    pauses (putBack unread rest) = pauses rest := by
  cases unread with
  | nil => rfl
  | cons first more => rfl

inductive Answer (α : Type*) where
  | bytes (taken : List α)
  | timeout
  | ended
  deriving DecidableEq

/-- One read of at most `size` elements. -/
def read (size : Nat) : List (Delivery α) → Answer α × List (Delivery α)
  | [] => (.ended, [])
  | .timeout :: rest => (.timeout, rest)
  | .chunk first more :: rest =>
      (.bytes ((first :: more).take size), putBack ((first :: more).drop size) rest)

section Read

variable {size : Nat} {stream rest : List (Delivery α)} {taken : List α}

theorem read_bytes (answered : read size stream = (.bytes taken, rest)) :
    taken ++ arriving rest = arriving stream ∧ pauses rest = pauses stream ∧
      taken.length ≤ size ∧ (0 < size → 0 < taken.length) := by
  cases stream with
  | nil => cases answered
  | cons delivery later =>
      cases delivery with
      | timeout => cases answered
      | chunk first more =>
          cases answered
          refine ⟨?_, pauses_putBack _ _, List.length_take_le _ _, ?_⟩
          · rw [arriving_putBack, ← List.append_assoc, List.take_append_drop]
            rfl
          · intro positive
            rw [List.length_take, List.length_cons]
            omega

theorem read_timeout (answered : read size stream = (.timeout, rest)) :
    arriving rest = arriving stream ∧ pauses stream = (arriving rest).length :: pauses rest := by
  cases stream with
  | nil => cases answered
  | cons delivery later =>
      cases delivery with
      | chunk first more => cases answered
      | timeout =>
          cases answered
          exact ⟨rfl, rfl⟩

theorem read_ended (answered : read size stream = (.ended, rest)) :
    stream = [] ∧ rest = [] := by
  cases stream with
  | nil =>
      cases answered
      exact ⟨rfl, rfl⟩
  | cons delivery later => cases delivery <;> cases answered

end Read

/-- How much has arrived with the chunk that brings the first `count` elements. -/
def arrivedWith (count : Nat) : List (Delivery α) → Nat
  | [] => 0
  | .chunk _ more :: rest =>
      if count ≤ more.length + 1 then more.length + 1
      else more.length + 1 + arrivedWith (count - (more.length + 1)) rest
  | .timeout :: rest => arrivedWith count rest

theorem le_arrivedWith {count : Nat} {stream : List (Delivery α)}
    (arrives : count ≤ (arriving stream).length) : count ≤ arrivedWith count stream := by
  induction stream generalizing count with
  | nil => exact arrives
  | cons delivery rest continued =>
      cases delivery with
      | timeout => exact continued arrives
      | chunk first more =>
          rw [arriving, List.length_append, List.length_cons] at arrives
          rw [arrivedWith]
          split
          · assumption
          · have later := @continued (count - (more.length + 1)) (by omega)
            omega

/-- A bounded read that stays short of `count` took a whole chunk. -/
theorem arrivedWith_read {size count : Nat} {stream rest : List (Delivery α)} {taken : List α}
    (answered : read size stream = (.bytes taken, rest)) (within : count ≤ size) :
    (taken.length < count →
      arrivedWith count stream = taken.length + arrivedWith (count - taken.length) rest) ∧
      (count ≤ taken.length → taken.length = min (arrivedWith count stream) size) := by
  cases stream with
  | nil => cases answered
  | cons delivery later =>
      cases delivery with
      | timeout => cases answered
      | chunk first more =>
          cases answered
          simp only [List.length_take, List.length_cons, arrivedWith]
          constructor
          · intro short
            have whole : (first :: more).drop size = [] :=
              List.drop_of_length_le (by rw [List.length_cons]; omega)
            have length : min size (more.length + 1) = more.length + 1 := by omega
            rw [whole, putBack, length, if_neg (by omega)]
          · intro enough
            rw [if_pos (by omega), Nat.min_comm]

inductive Stop where
  | full
  | timeout
  | ended
  deriving DecidableEq

/-- Why the reading stopped, what it has, and what is left. -/
structure Collected (α : Type*) where
  stop : Stop
  taken : List α
  rest : List (Delivery α)

def Collected.after (taken : List α) (onward : Collected α) : Collected α :=
  { onward with taken := taken ++ onward.taken }

def collect (needed : Nat) (stream : List (Delivery α)) : Collected α :=
  if needed = 0 then ⟨.full, [], stream⟩
  else
    match _ : read needed stream with
    | (.bytes taken, rest) => (collect (needed - taken.length) rest).after taken
    | (.timeout, rest) => ⟨.timeout, [], rest⟩
    | (.ended, rest) => ⟨.ended, [], rest⟩
termination_by needed
decreasing_by
  have progress := (read_bytes (by assumption)).2.2.2
  omega

@[simp] theorem collect_zero (stream : List (Delivery α)) :
    collect 0 stream = ⟨.full, [], stream⟩ := by
  rw [collect, if_pos rfl]

section Collect

variable (needed : Nat) (stream : List (Delivery α))

/-- Nothing is lost, whatever ended the reading. -/
theorem taken_arriving :
    (collect needed stream).taken ++ arriving (collect needed stream).rest = arriving stream := by
  fun_induction collect needed stream with
  | case1 stream => rfl
  | case2 needed stream positive taken rest answered continued =>
      have kept := (read_bytes answered).1
      rw [Collected.after, List.append_assoc, continued, kept]
  | case3 needed stream positive rest answered => exact (read_timeout answered).1
  | case4 needed stream positive rest answered =>
      obtain ⟨rfl, rfl⟩ := read_ended answered
      rfl

theorem length_taken :
    ((collect needed stream).stop = .full → (collect needed stream).taken.length = needed) ∧
      ((collect needed stream).stop ≠ .full → (collect needed stream).taken.length < needed) := by
  fun_induction collect needed stream with
  | case1 stream => simp
  | case2 needed stream positive taken rest answered continued =>
      have bounded := (read_bytes answered).2.2.1
      have progress := (read_bytes answered).2.2.2
      simp only [Collected.after, List.length_append]
      constructor
      · intro full
        have exact := continued.1 full
        omega
      · intro short
        have less := continued.2 short
        omega
  | case3 needed stream positive rest answered => simpa using Nat.pos_of_ne_zero positive
  | case4 needed stream positive rest answered => simpa using Nat.pos_of_ne_zero positive

/-- Only the timeout that ended the reading is spent. -/
theorem pauses_collect :
    pauses stream = match (collect needed stream).stop with
      | .timeout =>
          (arriving (collect needed stream).rest).length :: pauses (collect needed stream).rest
      | _ => pauses (collect needed stream).rest := by
  fun_induction collect needed stream with
  | case1 stream => rfl
  | case2 needed stream positive taken rest answered continued =>
      rw [← (read_bytes answered).2.1]
      exact continued
  | case3 needed stream positive rest answered => exact (read_timeout answered).2
  | case4 needed stream positive rest answered =>
      obtain ⟨rfl, rfl⟩ := read_ended answered
      rfl

theorem rest_of_ended (ended : (collect needed stream).stop = .ended) :
    (collect needed stream).rest = [] := by
  fun_induction collect needed stream with
  | case1 stream => cases ended
  | case2 needed stream positive taken rest answered continued => exact continued ended
  | case3 needed stream positive rest answered => cases ended
  | case4 needed stream positive rest answered => exact (read_ended answered).2

end Collect

end Deliveries
