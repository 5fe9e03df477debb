import Mathlib.Data.List.Basic
import Mathlib.Data.List.Pairwise
import Mathlib.Tactic.Tauto

/-!
# Tables of rows

A table is a list of rows. `upsert` overwrites the first row that clashes with a new one
or appends it; `amend` changes the first row that meets a test. A table is `Distinct`
when no two of its rows clash.
-/

set_option autoImplicit false

namespace Table

variable {Row : Type*}

/-- Change the first row that meets `test`. -/
def amend (test : Row → Bool) (change : Row → Row) : List Row → List Row
  | [] => []
  | row :: rows => if test row then change row :: rows else row :: amend test change rows

/-- Overwrite the first row that meets `test`, or append. -/
def upsert (test : Row → Bool) (fresh : Row) (rows : List Row) : List Row :=
  if rows.any test then amend test (fun _ => fresh) rows else rows ++ [fresh]

theorem amend_of_none {test : Row → Bool} {change : Row → Row} {rows : List Row}
    (none : ∀ row ∈ rows, test row = false) : amend test change rows = rows := by
  induction rows with
  | nil => rfl
  | cons row rows continued =>
      have head := none row List.mem_cons_self
      have tail := continued fun later member => none later (List.mem_cons_of_mem _ member)
      simp [amend, head, tail]

theorem amend_split {test : Row → Bool} {change : Row → Row} {before after : List Row} {row : Row}
    (skipped : ∀ earlier ∈ before, test earlier = false) (met : test row = true) :
    amend test change (before ++ row :: after) = before ++ change row :: after := by
  induction before with
  | nil => simp [amend, met]
  | cons earlier before continued =>
      have head := skipped earlier List.mem_cons_self
      have tail := continued fun later member => skipped later (List.mem_cons_of_mem _ member)
      simp [amend, head, tail]

/-- Either no row meets the test, or the table splits at the first that does. -/
theorem first_match (test : Row → Bool) (rows : List Row) :
    (∀ row ∈ rows, test row = false) ∨
      ∃ before row after, rows = before ++ row :: after ∧
        (∀ earlier ∈ before, test earlier = false) ∧ test row = true := by
  induction rows with
  | nil => exact .inl (by simp)
  | cons head rows continued =>
      cases met : test head with
      | true => exact .inr ⟨[], head, rows, rfl, by simp, met⟩
      | false =>
          obtain none | ⟨before, row, after, split, skipped, found⟩ := continued
          · exact .inl fun row member => by
              obtain rfl | member := List.mem_cons.mp member
              · exact met
              · exact none row member
          · refine .inr ⟨head :: before, row, after, by rw [split, List.cons_append], ?_, found⟩
            intro earlier member
            obtain rfl | member := List.mem_cons.mp member
            · exact met
            · exact skipped earlier member

theorem split_of_find {test : Row → Bool} {rows : List Row} {row : Row}
    (found : rows.find? test = some row) :
    ∃ before after, rows = before ++ row :: after ∧
      (∀ earlier ∈ before, test earlier = false) ∧ test row = true := by
  obtain ⟨met, before, after, split, skipped⟩ := List.find?_eq_some_iff_append.mp found
  exact ⟨before, after, split, by simpa using skipped, met⟩

theorem mem_amend_iff {test : Row → Bool} (change : Row → Row) {rows : List Row} {row : Row}
    (found : rows.find? test = some row) :
    ∃ rest : List Row, (∀ other, other ∈ amend test change rows ↔ other = change row ∨ other ∈ rest) ∧
      ∀ other, other ∈ rows ↔ other = row ∨ other ∈ rest := by
  obtain ⟨before, after, rfl, skipped, met⟩ := split_of_find found
  refine ⟨before ++ after, fun other => ?_, fun other => ?_⟩
  · rw [amend_split skipped met]
    simp only [List.mem_append, List.mem_cons]
    tauto
  · simp only [List.mem_append, List.mem_cons]
    tauto

theorem upsert_of_none {test : Row → Bool} {fresh : Row} {rows : List Row}
    (none : ∀ row ∈ rows, test row = false) : upsert test fresh rows = rows ++ [fresh] := by
  unfold upsert
  rw [if_neg]
  simpa using none

theorem upsert_split {test : Row → Bool} {fresh row : Row} {before after : List Row}
    (skipped : ∀ earlier ∈ before, test earlier = false) (met : test row = true) :
    upsert test fresh (before ++ row :: after) = before ++ fresh :: after := by
  have found : (before ++ row :: after).any test = true :=
    List.any_eq_true.mpr ⟨row, by simp, met⟩
  rw [upsert, if_pos found, amend_split skipped met]

theorem mem_upsert {test : Row → Bool} {fresh row : Row} {rows : List Row}
    (member : row ∈ upsert test fresh rows) : row = fresh ∨ row ∈ rows := by
  obtain none | ⟨before, first, after, rfl, skipped, met⟩ := first_match test rows
  · rw [upsert_of_none none, List.mem_append, List.mem_singleton] at member
    exact member.symm
  · rw [upsert_split skipped met] at member
    simp only [List.mem_append, List.mem_cons] at member ⊢
    tauto

theorem fresh_mem_upsert {test : Row → Bool} {fresh : Row} {rows : List Row} :
    fresh ∈ upsert test fresh rows := by
  obtain none | ⟨before, first, after, rfl, skipped, met⟩ := first_match test rows
  · simp [upsert_of_none none]
  · simp [upsert_split skipped met]

/-! ## Rows an edit does not concern -/

section Frame

variable {test keep : Row → Bool} {rows : List Row}

theorem filter_amend {change : Row → Row} (foreign : ∀ row, test row = true → keep row = false)
    (stays : ∀ row, test row = true → keep (change row) = false) :
    (amend test change rows).filter keep = rows.filter keep := by
  obtain none | ⟨before, row, after, rfl, skipped, met⟩ := first_match test rows
  · rw [amend_of_none none]
  · rw [amend_split skipped met]
    simp [foreign row met, stays row met]

theorem filter_upsert {fresh : Row} (foreign : ∀ row, test row = true → keep row = false)
    (outside : keep fresh = false) : (upsert test fresh rows).filter keep = rows.filter keep := by
  obtain none | ⟨before, row, after, rfl, skipped, met⟩ := first_match test rows
  · rw [upsert_of_none none]
    simp [outside]
  · rw [upsert_split skipped met]
    simp [foreign row met, outside]

theorem filter_eraseP (foreign : ∀ row, test row = true → keep row = false) :
    (rows.eraseP test).filter keep = rows.filter keep := by
  obtain none | ⟨before, row, after, rfl, skipped, met⟩ := first_match test rows
  · rw [List.eraseP_of_forall_not (by simpa using none)]
  · rw [List.eraseP_append_right _ (by simpa using skipped), List.eraseP_cons_of_pos met]
    simp [foreign row met]

end Frame

/-! ## Tables without clashes -/

section Distinct

variable {clash : Row → Row → Bool}

/-- No two rows clash. -/
def Distinct (clash : Row → Row → Bool) (rows : List Row) : Prop :=
  rows.Pairwise fun left right => clash left right = false

theorem distinct_eraseP {test : Row → Bool} {rows : List Row} (distinct : Distinct clash rows) :
    Distinct clash (rows.eraseP test) :=
  List.Pairwise.sublist List.eraseP_sublist distinct

variable (symmetric : ∀ left right, clash left right = clash right left)

include symmetric

theorem distinct_middle {before after : List Row} {row : Row} :
    Distinct clash (before ++ row :: after) ↔
      (∀ other ∈ before ++ after, clash row other = false) ∧ Distinct clash (before ++ after) := by
  unfold Distinct
  rw [List.pairwise_middle (by intro _ _ apart; rw [symmetric]; exact apart),
    List.pairwise_cons]

theorem Distinct.eq_of_clash {rows : List Row} {row other : Row} (distinct : Distinct clash rows)
    (member : row ∈ rows) (listed : other ∈ rows) (clashes : clash row other = true) :
    other = row := by
  obtain ⟨before, after, rfl⟩ := List.append_of_mem member
  obtain ⟨apart, _⟩ := (distinct_middle symmetric).mp distinct
  by_contra differs
  have elsewhere : other ∈ before ++ after := by
    simp only [List.mem_append, List.mem_cons] at listed ⊢
    tauto
  rw [apart other elsewhere] at clashes
  cases clashes

/-- A distinct table survives an upsert exactly when at most one row clashes with the new
one. -/
theorem distinct_upsert_iff {fresh : Row} {rows : List Row} (distinct : Distinct clash rows) :
    Distinct clash (upsert (clash fresh) fresh rows) ↔
      (rows.filter (clash fresh)).length ≤ 1 := by
  obtain none | ⟨before, row, after, rfl, skipped, met⟩ := first_match (clash fresh) rows
  · have empty : rows.filter (clash fresh) = [] := by
      simpa [List.filter_eq_nil_iff] using none
    rw [upsert_of_none none, distinct_middle symmetric, List.append_nil, empty]
    exact ⟨fun _ => Nat.zero_le _, fun _ => ⟨none, distinct⟩⟩
  · have rest := ((distinct_middle symmetric).mp distinct).2
    have passed : before.filter (clash fresh) = [] := by
      simpa [List.filter_eq_nil_iff] using skipped
    rw [upsert_split skipped met, distinct_middle symmetric, List.filter_append,
      List.filter_cons_of_pos met, passed]
    constructor
    · intro apart
      have none : after.filter (clash fresh) = [] := by
        rw [List.filter_eq_nil_iff]
        intro other member
        simp [apart.1 other (List.mem_append_right _ member)]
      simp [none]
    · intro few
      refine ⟨fun other member => ?_, rest⟩
      obtain member | member := List.mem_append.mp member
      · exact skipped other member
      · have none : after.filter (clash fresh) = [] := by
          simpa using few
        simpa using List.filter_eq_nil_iff.mp none other member

/-- A distinct table survives a change of one row exactly when the changed row clashes with
no other. -/
theorem distinct_amend_iff (reflexive : ∀ row, clash row row = true) {test : Row → Bool}
    (change : Row → Row) {rows : List Row} {row : Row} (found : rows.find? test = some row)
    (distinct : Distinct clash rows) :
    Distinct clash (amend test change rows) ↔
      ∀ other ∈ rows, clash (change row) other = true → other = row := by
  obtain ⟨before, after, rfl, skipped, met⟩ := split_of_find found
  obtain ⟨apart, rest⟩ := (distinct_middle symmetric).mp distinct
  rw [amend_split skipped met, distinct_middle symmetric]
  constructor
  · rintro ⟨separate, _⟩ other member clashes
    have position : other = row ∨ other ∈ before ++ after := by
      simp only [List.mem_append, List.mem_cons] at member ⊢
      tauto
    cases position with
    | inl same => exact same
    | inr member =>
        rw [separate other member] at clashes
        cases clashes
  · intro only
    refine ⟨fun other member => ?_, rest⟩
    cases clashes : clash (change row) other with
    | false => rfl
    | true =>
        have stored : other ∈ before ++ row :: after := by
          simp only [List.mem_append, List.mem_cons] at member ⊢
          tauto
        have same := only other stored clashes
        have free := apart other member
        rw [same, reflexive] at free
        cases free

end Distinct

end Table
