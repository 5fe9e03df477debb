import Mathlib.Data.List.Basic
import Mathlib.Data.List.Nodup
import Sotoportego.Lib.Run

/-!
# Editing a set of entries

Lists that collect distinct values, the difference of two such lists, and additions and
deletions on a table read as a set. Adding what is wanted and missing and deleting what is
held and unwanted turns the held entries into the wanted ones, and no edit is idle.
-/

set_option autoImplicit false

namespace Edits

variable {α : Type*} [DecidableEq α]

/-! ## Collecting -/

/-- Append a value that is not there yet. -/
def insertNew (values : List α) (value : α) : List α :=
  if value ∈ values then values else values ++ [value]

/-- The values in order, each once. -/
def collect (values : List α) : List α := values.foldl insertNew []

theorem mem_insertNew {values : List α} {value other : α} :
    other ∈ insertNew values value ↔ other ∈ values ∨ other = value := by
  unfold insertNew
  split
  · next present =>
    constructor
    · exact .inl
    · rintro (member | rfl)
      · exact member
      · exact present
  · simp

theorem nodup_insertNew {values : List α} {value : α} (nodup : values.Nodup) :
    (insertNew values value).Nodup := by
  unfold insertNew
  split
  · exact nodup
  · next absent =>
    refine List.nodup_append.mpr ⟨nodup, by simp, ?_⟩
    rintro other member _ single rfl
    exact absent (List.mem_singleton.mp single ▸ member)

private theorem foldl_insertNew (values out : List α) :
    (out.Nodup → (values.foldl insertNew out).Nodup) ∧
      ∀ value, value ∈ values.foldl insertNew out ↔ value ∈ out ∨ value ∈ values := by
  induction values generalizing out with
  | nil => simp
  | cons head values continued =>
      obtain ⟨nodup, membership⟩ := continued (insertNew out head)
      refine ⟨fun distinct => nodup (nodup_insertNew distinct), fun value => ?_⟩
      rw [List.foldl_cons, membership, mem_insertNew, List.mem_cons, or_assoc]

theorem nodup_collect (values : List α) : (collect values).Nodup :=
  (foldl_insertNew values []).1 List.nodup_nil

@[simp] theorem mem_collect {values : List α} {value : α} :
    value ∈ collect values ↔ value ∈ values := by
  simpa [collect] using (foldl_insertNew values []).2 value

/-- What the first list has and the second lacks. -/
def difference (values others : List α) : List α :=
  values.filter fun value => value ∉ others

@[simp] theorem mem_difference {values others : List α} {value : α} :
    value ∈ difference values others ↔ value ∈ values ∧ value ∉ others := by
  simp [difference]

theorem same_of_differences {values others : List α} (left : difference values others = [])
    (right : difference others values = []) (value : α) : value ∈ values ↔ value ∈ others := by
  have none := List.eq_nil_iff_forall_not_mem.mp left value
  have back := List.eq_nil_iff_forall_not_mem.mp right value
  rw [mem_difference] at none back
  tauto

/-! ## Additions and deletions -/

inductive Edit (α : Type*) where
  | add (entry : α)
  | delete (entry : α)

/-- The table holds an added entry once, and no deleted one. -/
def apply (table : List α) : Edit α → List α
  | .add entry => insertNew table entry
  | .delete entry => table.filter (· ≠ entry)

def run (edits : List (Edit α)) (table : List α) : List α := Run.run apply table edits

/-- An addition that adds and a deletion that deletes. -/
def Effective (table : List α) : Edit α → Prop
  | .add entry => entry ∉ table
  | .delete entry => entry ∈ table

@[simp] theorem run_nil (table : List α) : run [] table = table := rfl

theorem run_cons (edit : Edit α) (edits : List (Edit α)) (table : List α) :
    run (edit :: edits) table = run edits (apply table edit) := rfl

@[simp] theorem mem_apply_add {table : List α} {entry other : α} :
    other ∈ apply table (.add entry) ↔ other ∈ table ∨ other = entry :=
  mem_insertNew

@[simp] theorem mem_apply_delete {table : List α} {entry other : α} :
    other ∈ apply table (.delete entry) ↔ other ∈ table ∧ other ≠ entry := by
  simp [apply]

theorem run_append (first second : List (Edit α)) (table : List α) :
    run (first ++ second) table = run second (run first table) :=
  Run.run_append table first second

@[simp] theorem mem_run_add {entries table : List α} {entry : α} :
    entry ∈ run (entries.map .add) table ↔ entry ∈ table ∨ entry ∈ entries := by
  induction entries generalizing table with
  | nil => simp [run]
  | cons head entries continued =>
      have rest : entry ∈ run (entries.map .add) (insertNew table head) ↔
          entry ∈ insertNew table head ∨ entry ∈ entries := continued
      rw [mem_insertNew, or_assoc] at rest
      simpa [run, apply] using rest

@[simp] theorem mem_run_delete {entries table : List α} {entry : α} :
    entry ∈ run (entries.map .delete) table ↔ entry ∈ table ∧ entry ∉ entries := by
  induction entries generalizing table with
  | nil => simp [run]
  | cons head entries continued =>
      have rest : entry ∈ run (entries.map .delete) (table.filter (· ≠ head)) ↔
          entry ∈ table.filter (· ≠ head) ∧ entry ∉ entries := continued
      simpa [run, apply, and_assoc] using rest

theorem effective_add {entries table : List α} (nodup : entries.Nodup)
    (absent : ∀ entry ∈ entries, entry ∉ table) :
    Run.Along apply Effective table (entries.map .add) := by
  induction entries generalizing table with
  | nil => trivial
  | cons head entries continued =>
      obtain ⟨fresh, distinct⟩ := List.nodup_cons.mp nodup
      refine ⟨absent head List.mem_cons_self, continued distinct fun entry member => ?_⟩
      intro present
      obtain present | rfl := mem_insertNew.mp present
      · exact absent entry (List.mem_cons_of_mem _ member) present
      · exact fresh member

theorem effective_delete {entries table : List α} (nodup : entries.Nodup)
    (present : ∀ entry ∈ entries, entry ∈ table) :
    Run.Along apply Effective table (entries.map .delete) := by
  induction entries generalizing table with
  | nil => trivial
  | cons head entries continued =>
      obtain ⟨fresh, distinct⟩ := List.nodup_cons.mp nodup
      refine ⟨present head List.mem_cons_self, continued distinct fun entry member => ?_⟩
      refine List.mem_filter.mpr ⟨present entry (List.mem_cons_of_mem _ member), ?_⟩
      exact decide_eq_true fun same => fresh (same ▸ member)

/-! ## From the held to the wanted entries -/

/-- The edits that exchange the held entries for the wanted ones. -/
def exchange (wanted held : List α) : List (Edit α) :=
  (difference wanted held).map .add ++ (difference held wanted).map .delete

theorem mem_run_exchange {wanted held table : List α} {entry : α} :
    entry ∈ run (exchange wanted held) table ↔
      (entry ∈ table ∧ (entry ∈ held → entry ∈ wanted)) ∨ (entry ∈ wanted ∧ entry ∉ held) := by
  rw [exchange, run_append, mem_run_delete, mem_run_add, mem_difference, mem_difference]
  tauto

theorem effective_exchange {wanted held table : List α} (wantedOnce : wanted.Nodup)
    (heldOnce : held.Nodup) (holds : ∀ entry, entry ∈ table ↔ entry ∈ held) :
    Run.Along apply Effective table (exchange wanted held) := by
  refine Run.along_append.mpr ⟨effective_add (wantedOnce.filter _) ?_,
    effective_delete (heldOnce.filter _) ?_⟩
  · intro entry missing
    rw [holds]
    exact (mem_difference.mp missing).2
  · intro entry stale
    refine mem_run_add.mpr (.inl ?_)
    rw [holds]
    exact (mem_difference.mp stale).1

end Edits
