import DeleteCascade.Proofs.Store.Statements
import Mathlib.Algebra.Order.BigOperators.Group.List
import Mathlib.Algebra.Order.Ring.Nat
import Mathlib.Data.Finset.Card
/-!
# Statements — how much is left to lose

The load of a store is the number of its rows and of the values in them. No
statement adds to it (`load_clearWhere_le`, `load_deleteWhere_le`), and one
that finds something to do takes from it (`load_clearWhere_lt`,
`load_deleteWhere_lt`).
-/

namespace DeleteCascade

/-- How many columns of a row have a value. -/
def Row.values (r : Row) : Nat := (r.cells.map Prod.fst).toFinset.card

namespace Row

variable {r : Row} {c : String} {v : Int}

theorem names_clear (r : Row) (c : String) :
    ((r.clear c).cells.map Prod.fst).toFinset =
      (r.cells.map Prod.fst).toFinset.erase (foldCase c) := by
  ext name
  simp only [clear, List.mem_toFinset, List.mem_map, List.mem_filter, Finset.mem_erase, bne_iff_ne]
  constructor
  · rintro ⟨cell, ⟨hcell, hne⟩, rfl⟩
    exact ⟨hne, cell, hcell, rfl⟩
  · rintro ⟨hne, cell, hcell, rfl⟩
    exact ⟨cell, ⟨hcell, hne⟩, rfl⟩

theorem values_clear_le (r : Row) (c : String) : (r.clear c).values ≤ r.values := by
  rw [values, names_clear]
  exact Finset.card_erase_le

/-- Clearing a value leaves one less. -/
theorem values_clear_lt (h : r.get? c = some v) : (r.clear c).values < r.values := by
  rw [values, names_clear]
  refine Finset.card_erase_lt_of_mem (List.mem_toFinset.2 (List.mem_map.2 ?_))
  obtain ⟨front, back, hcells, -⟩ := List.lookup_eq_some_iff.1 h
  exact ⟨(foldCase c, v), by simp [hcells], rfl⟩

end Row

namespace Store

variable {s s' : Store} {t : TableName} {c : String} {test : Row → Bool} {removed : List Row}

/-- How many values there are that are not NULL. -/
def values (s : Store) : Nat :=
  s.contents.foldr (fun entry n => (entry.2.map Row.values).sum + n) 0

/-- **How much a store can lose**: its rows and the values in them. -/
def load (s : Store) : Nat := s.size + s.values

theorem values_setRows (s : Store) (t : TableName) (rows : List Row) :
    (s.setRows t rows).values + ((s.rows t).map Row.values).sum =
      s.values + (rows.map Row.values).sum := by
  simp only [values, setRows, Store.rows]
  induction s.contents with
  | nil => simp [Contents.put]
  | cons entry rest ih =>
    obtain ⟨k, old⟩ := entry
    unfold Contents.put
    by_cases hk : k = t.key
    · subst hk
      simp
      omega
    · simp_all [lookup_cons_eq]
      omega

/-- Replacing the rows of a table changes the load by their difference. -/
theorem load_setRows (s : Store) (t : TableName) (rows : List Row) :
    (s.setRows t rows).load + ((s.rows t).length + ((s.rows t).map Row.values).sum) =
      s.load + (rows.length + (rows.map Row.values).sum) := by
  have hsize := size_setRows s t rows
  have hvalues := values_setRows s t rows
  unfold load
  omega

/-! ## Taking rows away -/

theorem sum_values_filter_le (rows : List Row) (test : Row → Bool) :
    ((rows.filter test).map Row.values).sum ≤ (rows.map Row.values).sum :=
  (List.filter_sublist.map _).sum_le_sum fun _ _ => Nat.zero_le _

theorem load_removeRows_le (s : Store) (t : TableName) (test : Row → Bool) :
    (s.removeRows t test).load ≤ s.load := by
  have hload := load_setRows s t ((s.rows t).filter fun r => !test r)
  have hrows := List.length_filter_le (fun r => !test r) (s.rows t)
  have hvalues := sum_values_filter_le (s.rows t) fun r => !test r
  unfold removeRows
  omega

theorem load_removeRows_lt (h : (s.rows t).filter test ≠ []) :
    (s.removeRows t test).load < s.load := by
  have hsize := size_removeRows_lt h
  have hvalues := values_setRows s t ((s.rows t).filter fun r => !test r)
  have hless := sum_values_filter_le (s.rows t) fun r => !test r
  unfold load
  unfold removeRows at hsize ⊢
  omega

/-! ## Making values NULL -/

theorem load_clearWhere_le (s : Store) (t : TableName) (c : String) (test : Row → Bool) :
    (s.clearWhere t c test).load ≤ s.load := by
  have hload := load_setRows s t ((s.rows t).map fun r => if test r then r.clear c else r)
  have hvalues : (((s.rows t).map fun r => if test r then r.clear c else r).map Row.values).sum ≤
      ((s.rows t).map Row.values).sum := by
    rw [List.map_map]
    refine List.sum_le_sum fun r _ => ?_
    simp only [Function.comp_apply]
    split
    · exact Row.values_clear_le r c
    · exact Nat.le_refl _
  rw [List.length_map] at hload
  unfold clearWhere
  omega

/-- Clearing a column where it has a value takes from the load. -/
theorem load_clearWhere_lt (htest : ∀ r, test r = true → ∃ v, r.get? c = some v)
    (h : (s.rows t).filter test ≠ []) : (s.clearWhere t c test).load < s.load := by
  have hload := load_setRows s t ((s.rows t).map fun r => if test r then r.clear c else r)
  have hvalues : (((s.rows t).map fun r => if test r then r.clear c else r).map Row.values).sum <
      ((s.rows t).map Row.values).sum := by
    obtain ⟨r, hr⟩ := List.exists_mem_of_ne_nil _ h
    obtain ⟨hr, hpass⟩ := List.mem_filter.1 hr
    rw [List.map_map]
    refine List.sum_lt_sum _ _ (fun r _ => ?_) ⟨r, hr, ?_⟩
    · simp only [Function.comp_apply]
      split
      · exact Row.values_clear_le r c
      · exact Nat.le_refl _
    · obtain ⟨v, hv⟩ := htest r hpass
      simp only [Function.comp_apply, if_pos hpass]
      exact Row.values_clear_lt hv
  rw [List.length_map] at hload
  unfold clearWhere
  omega

/-! ## Deleting -/

theorem load_enforce_le {pending : List Enforcement} (h : s.enforce pending = .ok s') :
    s'.load ≤ s.load :=
  enforce_keeps (P := fun s₁ => s₁.load ≤ s.load) (Q := fun _ => True)
    (fun _ _ _ _ hs => ⟨(load_removeRows_le _ _ _).trans hs, fun _ _ _ => trivial⟩)
    (fun _ _ _ _ _ _ hs => (load_clearWhere_le _ _ _ _).trans hs) s pending (fun _ _ => trivial)
    (Nat.le_refl _) h

theorem load_deleteWhere_le (h : s.deleteWhere t test = .ok (removed, s')) : s'.load ≤ s.load :=
  (load_enforce_le (deleteWhere_eq_ok h).2).trans (load_removeRows_le s t test)

theorem load_deleteWhere_lt (h : s.deleteWhere t test = .ok (removed, s')) (hsome : removed ≠ []) :
    s'.load < s.load := by
  obtain ⟨rfl, henforce⟩ := deleteWhere_eq_ok h
  exact Nat.lt_of_le_of_lt (load_enforce_le henforce) (load_removeRows_lt hsome)

end Store

end DeleteCascade
