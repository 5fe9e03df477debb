import Mathlib.Data.List.Basic

/-!
# Last writes

A fold whose steps overwrite a field or leave it alone ends with the last value written.
-/

set_option autoImplicit false

namespace LastWrite

variable {State Entry Value : Type*}

theorem last_cons (write : Entry → Option Value) (first : Entry) (later : List Entry)
    (old : Value) :
    ((first :: later).filterMap write).getLast?.getD old =
      (later.filterMap write).getLast?.getD ((write first).getD old) := by
  cases written : write first with
  | none => rw [List.filterMap_cons_none written, Option.getD_none]
  | some value =>
      rw [List.filterMap_cons_some written, List.getLast?_cons, Option.getD_some, Option.getD_some]

variable {step : State → Entry → State} {field : State → Value} {write : Entry → Option Value}

theorem foldl_field
    (writes : ∀ state entry, field (step state entry) = (write entry).getD (field state))
    (entries : List Entry) (state : State) :
    field (entries.foldl step state) = (entries.filterMap write).getLast?.getD (field state) := by
  induction entries generalizing state with
  | nil => rfl
  | cons first later continued => rw [List.foldl_cons, continued, writes, last_cons]

end LastWrite
