import Mathlib.Data.List.Nodup
import Mathlib.Data.List.Basic

/-!
# Reconciling rows with listed items

Rows and items share a key. A reconciled table keeps the rows that are still listed,
refreshed from their item, and creates a row for every other item. Where the keys are
distinct, the result is fixed by the items, and reconciling it again changes nothing.
-/

set_option autoImplicit false

structure Reconciler (Row Item Key : Type*) where
  rowKey : Row → Key
  itemKey : Item → Key
  refresh : Row → Item → Row
  create : Item → Row
  rowKey_refresh : ∀ row item, rowKey (refresh row item) = rowKey row
  rowKey_create : ∀ item, rowKey (create item) = itemKey item
  refresh_again : ∀ row item, refresh (refresh row item) item = refresh row item
  refresh_create : ∀ item, refresh (create item) item = create item

namespace Reconciler

variable {Row Item Key : Type*} [DecidableEq Key] (spec : Reconciler Row Item Key)

def rowKeys (rows : List Row) : List Key := rows.map spec.rowKey

def itemKeys (items : List Item) : List Key := items.map spec.itemKey

/-- The item listed under a key. -/
def lookup (items : List Item) (key : Key) : Option Item :=
  items.find? fun item => spec.itemKey item = key

def refreshed (items : List Item) (row : Row) : Row :=
  match spec.lookup items (spec.rowKey row) with
  | some item => spec.refresh row item
  | none => row

/-- The items without a row. -/
def unmatched (keys : List Key) (items : List Item) : List Item :=
  items.filter fun item => spec.itemKey item ∉ keys

def reconciled (items : List Item) (rows : List Row) : List Row :=
  (rows.filter fun row => spec.rowKey row ∈ spec.itemKeys items).map (spec.refreshed items) ++
    (spec.unmatched (spec.rowKeys rows) items).map spec.create

variable {spec} {items : List Item} {rows : List Row}

@[simp] theorem rowKey_refreshed (items : List Item) (row : Row) :
    spec.rowKey (spec.refreshed items row) = spec.rowKey row := by
  unfold refreshed
  split
  · exact spec.rowKey_refresh _ _
  · rfl

theorem lookup_some {key : Key} {item : Item} (found : spec.lookup items key = some item) :
    item ∈ items ∧ spec.itemKey item = key :=
  ⟨List.mem_of_find?_eq_some found, by simpa using List.find?_some found⟩

theorem lookup_of_mem (once : (spec.itemKeys items).Nodup) {item : Item} (listed : item ∈ items) :
    spec.lookup items (spec.itemKey item) = some item := by
  cases found : spec.lookup items (spec.itemKey item) with
  | none =>
      have absent := List.find?_eq_none.mp found item listed
      simp at absent
  | some other =>
      obtain ⟨member, same⟩ := lookup_some found
      rw [List.inj_on_of_nodup_map once member listed same]

theorem lookup_isSome {key : Key} (listed : key ∈ spec.itemKeys items) :
    ∃ item, spec.lookup items key = some item := by
  obtain ⟨item, member, same⟩ := List.mem_map.mp listed
  refine Option.isSome_iff_exists.mp (List.find?_isSome.mpr ⟨item, member, ?_⟩)
  simpa using same

/-- A refreshed row takes everything it takes from its item. -/
theorem refreshed_of_lookup {row : Row} {item : Item}
    (found : spec.lookup items (spec.rowKey row) = some item) :
    spec.refreshed items row = spec.refresh row item := by
  simp only [refreshed, found]

theorem mem_rowKeys_reconciled {key : Key} :
    key ∈ spec.rowKeys (spec.reconciled items rows) ↔ key ∈ spec.itemKeys items := by
  simp only [rowKeys, reconciled, List.map_append, List.map_map, List.mem_append, List.mem_map,
    List.mem_filter, Function.comp_apply, rowKey_refreshed, spec.rowKey_create, unmatched,
    decide_eq_true_eq]
  constructor
  · rintro (⟨row, ⟨_, listed⟩, rfl⟩ | ⟨item, ⟨member, _⟩, rfl⟩)
    · exact listed
    · exact List.mem_map_of_mem member
  · intro listed
    obtain ⟨item, member, rfl⟩ := List.mem_map.mp listed
    by_cases matched : spec.itemKey item ∈ rows.map spec.rowKey
    · obtain ⟨row, stored, same⟩ := List.mem_map.mp matched
      exact .inl ⟨row, ⟨stored, same ▸ listed⟩, same⟩
    · exact .inr ⟨item, ⟨member, by simpa using matched⟩, rfl⟩

/-- Every row of the result is settled: its item has nothing new for it. -/
theorem reconciled_settled (once : (spec.itemKeys items).Nodup) {row : Row}
    (member : row ∈ spec.reconciled items rows) :
    ∃ item, spec.lookup items (spec.rowKey row) = some item ∧ spec.refresh row item = row := by
  obtain stored | created := List.mem_append.mp member
  · obtain ⟨old, kept, rfl⟩ := List.mem_map.mp stored
    have listed : spec.rowKey old ∈ spec.itemKeys items := by
      simpa using (List.mem_filter.mp kept).2
    obtain ⟨item, found⟩ := lookup_isSome listed
    refine ⟨item, by rw [rowKey_refreshed, found], ?_⟩
    rw [refreshed_of_lookup found, spec.refresh_again]
  · obtain ⟨item, unmatched, rfl⟩ := List.mem_map.mp created
    refine ⟨item, ?_, spec.refresh_create item⟩
    rw [spec.rowKey_create]
    exact lookup_of_mem once (List.mem_filter.mp unmatched).1

/-- A row that stays is the old one, refreshed from a listed item. -/
theorem reconciled_kept (apart : (spec.rowKeys rows).Nodup) {old row : Row} (stored : old ∈ rows)
    (member : row ∈ spec.reconciled items rows) (same : spec.rowKey row = spec.rowKey old) :
    ∃ item ∈ items, row = spec.refresh old item := by
  obtain kept | created := List.mem_append.mp member
  · obtain ⟨other, listed, rfl⟩ := List.mem_map.mp kept
    rw [rowKey_refreshed] at same
    obtain ⟨otherStored, keyListed⟩ := List.mem_filter.mp listed
    obtain rfl := List.inj_on_of_nodup_map apart otherStored stored same
    obtain ⟨item, found⟩ := lookup_isSome (of_decide_eq_true keyListed)
    exact ⟨item, (lookup_some found).1, refreshed_of_lookup found⟩
  · obtain ⟨item, unmatched, rfl⟩ := List.mem_map.mp created
    have absent := of_decide_eq_true (List.mem_filter.mp unmatched).2
    rw [spec.rowKey_create] at same
    exact absurd (same ▸ List.mem_map_of_mem stored) absent

theorem reconciled_reconciled (once : (spec.itemKeys items).Nodup) :
    spec.reconciled items (spec.reconciled items rows) = spec.reconciled items rows := by
  generalize result : spec.reconciled items rows = settled
  have allListed : settled.filter (fun row => spec.rowKey row ∈ spec.itemKeys items) = settled := by
    rw [List.filter_eq_self]
    intro row member
    rw [← result] at member
    exact decide_eq_true (mem_rowKeys_reconciled.mp (List.mem_map_of_mem member))
  have allMatched : spec.unmatched (spec.rowKeys settled) items = [] := by
    rw [unmatched, List.filter_eq_nil_iff]
    intro item member
    have matched : spec.itemKey item ∈ spec.rowKeys settled := by
      rw [← result]
      exact mem_rowKeys_reconciled.mpr (List.mem_map_of_mem member)
    simpa using matched
  have same : settled.map (spec.refreshed items) = settled := by
    refine (List.map_congr_left fun row member => ?_).trans (List.map_id settled)
    rw [← result] at member
    obtain ⟨item, found, still⟩ := reconciled_settled once member
    rw [refreshed_of_lookup found, still, id]
  rw [reconciled, allListed, allMatched, same, List.map_nil, List.append_nil]

end Reconciler
