import Mathlib.Data.List.Basic
import Mathlib.Data.List.Nodup

/-!
# Marking a list against wanted values

`marks wanted earlier values` marks the first occurrence of each wanted value that is not
among `earlier`; `keepMarked` drops the unmarked entries of a list. Entries past the end
of the marks are kept.
-/

set_option autoImplicit false

namespace Marks

variable {α : Type*}

def keepMarked : List Bool → List α → List α
  | [], entries => entries
  | _ :: _, [] => []
  | mark :: rest, entry :: entries =>
      if mark then entry :: keepMarked rest entries else keepMarked rest entries

@[simp] theorem keepMarked_nil (seen : List Bool) : keepMarked seen ([] : List α) = [] := by
  cases seen <;> rfl

theorem keepMarked_sublist (seen : List Bool) (entries : List α) :
    (keepMarked seen entries).Sublist entries := by
  induction seen generalizing entries with
  | nil => exact List.Sublist.refl _
  | cons mark seen continued =>
      cases entries with
      | nil => exact List.Sublist.refl _
      | cons entry entries =>
          cases mark with
          | true => exact (continued entries).cons_cons entry
          | false => exact (continued entries).cons entry

theorem keepMarked_append {seen : List Bool} {first : List α} (same : seen.length = first.length)
    (second : List α) : keepMarked seen (first ++ second) = keepMarked seen first ++ second := by
  induction seen generalizing first with
  | nil =>
      cases first with
      | nil => rfl
      | cons entry first => cases same
  | cons mark seen continued =>
      cases first with
      | nil => cases same
      | cons entry first =>
          have shorter := continued (Nat.succ.inj same)
          cases mark <;> simp [keepMarked, shorter]

theorem keepMarked_concat (seen : List Bool) (front : List α) (entry : α) :
    keepMarked seen (front ++ [entry]) =
      keepMarked seen front ++ if seen[front.length]? = some false then [] else [entry] := by
  induction seen generalizing front with
  | nil => simp [keepMarked]
  | cons mark seen continued =>
      cases front with
      | nil => cases mark <;> simp [keepMarked]
      | cons first front => cases mark <;> simp [keepMarked, continued]

theorem keepMarked_map {β : Type*} (key : α → β) (seen : List Bool) (entries : List α) :
    (keepMarked seen entries).map key = keepMarked seen (entries.map key) := by
  induction seen generalizing entries with
  | nil => rfl
  | cons mark seen continued =>
      cases entries with
      | nil => rfl
      | cons entry entries => cases mark <;> simp [keepMarked, continued]

/-- Entries without a mark do not matter. -/
theorem keepMarked_congr {seen : List Bool} {left right : List α}
    (length : left.length = right.length)
    (marked : ∀ index : Nat, seen[index]? ≠ some false → left[index]? = right[index]?) :
    keepMarked seen left = keepMarked seen right := by
  induction seen generalizing left right with
  | nil => exact List.ext_getElem? fun index => marked index nofun
  | cons mark seen continued =>
      cases left with
      | nil =>
          cases right with
          | nil => rfl
          | cons other right => cases length
      | cons entry left =>
          cases right with
          | nil => cases length
          | cons other right =>
              have rest := continued (Nat.succ.inj length) fun index kept => marked (index + 1) kept
              rw [keepMarked, keepMarked, rest]
              cases mark with
              | false => rfl
              | true => rw [Option.some.inj (marked 0 nofun)]

variable [DecidableEq α]

def marks (wanted : List α) : List α → List α → List Bool
  | _, [] => []
  | earlier, value :: values =>
      decide (value ∈ wanted ∧ value ∉ earlier) :: marks wanted (value :: earlier) values

@[simp] theorem length_marks (wanted earlier values : List α) :
    (marks wanted earlier values).length = values.length := by
  induction values generalizing earlier with
  | nil => rfl
  | cons value values continued => simp [marks, continued]

theorem marks_nil (earlier values : List α) :
    marks [] earlier values = List.replicate values.length false := by
  induction values generalizing earlier with
  | nil => rfl
  | cons value values continued => simp [marks, continued, List.replicate_succ]

/-- Wanting one more value that was met before changes no mark. -/
theorem marks_of_earlier {wanted earlier : List α} {value : α} (met : value ∈ earlier)
    (values : List α) : marks (wanted ++ [value]) earlier values = marks wanted earlier values := by
  induction values generalizing earlier with
  | nil => rfl
  | cons head values continued =>
      have head_same : decide (head ∈ wanted ++ [value] ∧ head ∉ earlier) =
          decide (head ∈ wanted ∧ head ∉ earlier) := by
        rw [decide_eq_decide]
        by_cases same : head = value
        · subst same
          simp [met]
        · simp [same]
      rw [marks, marks, head_same, continued (List.mem_cons_of_mem head met)]

/-- Wanting one more value that does not occur changes no mark. -/
theorem marks_of_absent {wanted earlier values : List α} {value : α} (absent : value ∉ values) :
    marks (wanted ++ [value]) earlier values = marks wanted earlier values := by
  induction values generalizing earlier with
  | nil => rfl
  | cons head values continued =>
      have differs : head ≠ value := fun same => absent (by simp [same])
      have later : value ∉ values := fun member => absent (List.mem_cons_of_mem _ member)
      simp [marks, continued later, differs]

/-- Setting the mark at the first occurrence of a value is wanting it. -/
theorem set_marks {wanted earlier values : List α} {value : α} {index : Nat}
    (fresh : value ∉ earlier) (found : values.findIdx? (fun entry => entry = value) = some index) :
    (marks wanted earlier values).set index true = marks (wanted ++ [value]) earlier values := by
  induction values generalizing earlier index with
  | nil => cases found
  | cons head values continued =>
      by_cases same : head = value
      · subst same
        simp only [List.findIdx?_cons, decide_true, if_true, Option.some.injEq] at found
        subst found
        simp [marks, fresh, marks_of_earlier]
      · simp only [List.findIdx?_cons, same, decide_false, Bool.false_eq_true, if_false,
          Option.map_eq_some_iff] at found
        obtain ⟨position, found, rfl⟩ := found
        have beyond : value ∉ head :: earlier := by
          simp [fresh, Ne.symm same]
        simp [marks, continued beyond found, same]

theorem mem_keepMarked_iff {wanted earlier values : List α} {value : α} :
    value ∈ keepMarked (marks wanted earlier values) values ↔
      value ∈ values ∧ value ∈ wanted ∧ value ∉ earlier := by
  induction values generalizing earlier with
  | nil => simp [marks]
  | cons head values continued =>
      by_cases kept : head ∈ wanted ∧ head ∉ earlier
      · simp only [marks, keepMarked, kept, not_false_eq_true, and_self, decide_true, if_true,
          List.mem_cons, continued]
        grind
      · simp only [marks, keepMarked, kept, decide_false, Bool.false_eq_true, if_false,
          List.mem_cons, continued]
        grind

theorem nodup_keepMarked (wanted earlier values : List α) :
    (keepMarked (marks wanted earlier values) values).Nodup := by
  induction values generalizing earlier with
  | nil => simp [marks]
  | cons head values continued =>
      have rest := continued (head :: earlier)
      have absent : head ∉ keepMarked (marks wanted (head :: earlier) values) values := by
        simp [mem_keepMarked_iff]
      unfold marks keepMarked
      split
      · exact List.nodup_cons.mpr ⟨absent, rest⟩
      · exact rest

/-- Without repeated values the marked rows are those with a wanted value. -/
theorem keepMarked_marks {Row : Type*} {key : Row → α} {wanted earlier : List α}
    {rows : List Row} (nodup : (rows.map key).Nodup) (unmet : ∀ row ∈ rows, key row ∉ earlier) :
    keepMarked (marks wanted earlier (rows.map key)) rows =
      rows.filter fun row => key row ∈ wanted := by
  induction rows generalizing earlier with
  | nil => simp
  | cons row rows continued =>
      rw [List.map_cons, List.nodup_cons] at nodup
      have later : ∀ other ∈ rows, key other ∉ key row :: earlier := by
        intro other member met
        obtain same | met := List.mem_cons.mp met
        · exact nodup.1 (same ▸ List.mem_map_of_mem member)
        · exact unmet other (List.mem_cons_of_mem _ member) met
      have rest := continued nodup.2 later
      have first : key row ∉ earlier := unmet row List.mem_cons_self
      by_cases kept : key row ∈ wanted
      · simp [marks, keepMarked, first, kept, rest]
      · simp [marks, keepMarked, kept, rest]

end Marks
