import DeleteCascade.Store.Row
/-!
# Statements — rows left of rows

`Thinned gone kept l l'` says how the rows `l` became the rows `l'`: in
their order, each was dropped for a reason `gone` or kept as `kept` says. For
one reason there is one list of rows that are left (`Thinned.unique`). A row
that was cut (`Row.Cut`) is told by its values (`Row.Cut.eq_of_get?`).
-/

namespace DeleteCascade

namespace Row

/-- **A row that was made NULL** in some columns. -/
inductive Cut (r : Row) : Row → Prop
  | whole : Cut r r
  | clear {r' : Row} (h : Cut r r') (column : String) : Cut r (r'.clear column)

variable {r r₁ r₂ : Row}

/-- What was cut are the cells of columns that are NULL now. -/
theorem Cut.cells (h : r.Cut r₁) : ∃ names : List String,
    r₁.cells = r.cells.filter (fun cell => !names.contains cell.1) ∧
      ∀ name ∈ names, ∃ c, name = foldCase c ∧ r₁.get? c = none := by
  induction h with
  | whole => exact ⟨[], (List.filter_eq_self.2 fun _ _ => rfl).symm, by simp⟩
  | @clear r' _ column ih =>
    obtain ⟨names, hcells, hnone⟩ := ih
    refine ⟨foldCase column :: names, ?_, fun name hname => ?_⟩
    · rw [Row.clear, hcells, List.filter_filter]
      refine List.filter_congr fun cell _ => ?_
      rw [List.contains_cons, Bool.not_or, bne]
    · rcases List.mem_cons.1 hname with rfl | hname
      · exact ⟨column, rfl, by rw [get?_clear, if_pos (sameName_refl column)]⟩
      · obtain ⟨c, hc, hget⟩ := hnone name hname
        exact ⟨c, hc, by rw [get?_clear, hget, ite_self]⟩

/-- **Rows that were cut of the same row** are the same if their values are. -/
theorem Cut.eq_of_get? (h₁ : r.Cut r₁) (h₂ : r.Cut r₂) (h : ∀ c, r₁.get? c = r₂.get? c) :
    r₁ = r₂ := by
  -- a cell that the one has lost and the other has would be a value of the other
  have hcut {r₁ r₂ : Row} (h₁ : r.Cut r₁) (h : ∀ c, r₁.get? c = r₂.get? c)
      {names names' : List String}
      (hnone : ∀ name ∈ names, ∃ c, name = foldCase c ∧ r₁.get? c = none)
      (hcells : r₂.cells = r.cells.filter (fun cell => !names'.contains cell.1))
      {cell : String × Int} (hcell : cell ∈ r.cells) (hin : cell.1 ∈ names) :
      cell.1 ∈ names' := by
    refine Decidable.byContradiction fun hout => ?_
    obtain ⟨c, hc, hget⟩ := hnone _ hin
    rw [h, Row.get?, ← hc, List.lookup_eq_none_iff] at hget
    have hmem : cell ∈ r₂.cells := by
      rw [hcells]
      exact List.mem_filter.2 ⟨hcell, by simpa using hout⟩
    exact absurd (hget cell hmem) (by simp)
  obtain ⟨names₁, hcells₁, hnone₁⟩ := h₁.cells
  obtain ⟨names₂, hcells₂, hnone₂⟩ := h₂.cells
  have hcells : r₁.cells = r₂.cells := by
    rw [hcells₁, hcells₂]
    refine List.filter_congr fun cell hcell => ?_
    have hiff : cell.1 ∈ names₁ ↔ cell.1 ∈ names₂ :=
      ⟨hcut h₁ h hnone₁ hcells₂ hcell, hcut h₂ (fun c => (h c).symm) hnone₂ hcells₁ hcell⟩
    simp [hiff]
  cases r₁
  cases r₂
  exact congrArg Row.mk hcells

end Row

/-- **Rows that became fewer.** -/
inductive Thinned (gone : Row → Prop) (kept : Row → Row → Prop) : List Row → List Row → Prop
  | nil : Thinned gone kept [] []
  | drop {r : Row} {l l' : List Row} (why : gone r) (rest : Thinned gone kept l l') :
      Thinned gone kept (r :: l) l'
  | keep {r r' : Row} {l l' : List Row} (how : kept r r') (rest : Thinned gone kept l l') :
      Thinned gone kept (r :: l) (r' :: l')

namespace Thinned

variable {gone gone' : Row → Prop} {kept kept' : Row → Row → Prop} {l l' : List Row}

theorem refl (h : ∀ r, kept r r) (l : List Row) : Thinned gone kept l l := by
  induction l with
  | nil => exact .nil
  | cons r l ih => exact .keep (h r) ih

theorem mono (h : Thinned gone kept l l') (hgone : ∀ r, gone r → gone' r)
    (hkept : ∀ r r', kept r r' → kept' r r') : Thinned gone' kept' l l' := by
  induction h with
  | nil => exact .nil
  | drop why _ ih => exact .drop (hgone _ why) ih
  | keep how _ ih => exact .keep (hkept _ _ how) ih

/-- Each row that is left is one that was kept. -/
theorem exists_of_mem (h : Thinned gone kept l l') {r' : Row} (hr' : r' ∈ l') :
    ∃ r ∈ l, kept r r' := by
  induction h with
  | nil => cases hr'
  | drop _ _ ih =>
    obtain ⟨r, hr, hkept⟩ := ih hr'
    exact ⟨r, by simp [hr], hkept⟩
  | keep how _ ih =>
    rcases List.mem_cons.1 hr' with rfl | hr'
    · exact ⟨_, by simp, how⟩
    · obtain ⟨r, hr, hkept⟩ := ih hr'
      exact ⟨r, by simp [hr], hkept⟩

/-- Each row was dropped or kept. -/
theorem dropped_or_kept (h : Thinned gone kept l l') {r : Row} (hr : r ∈ l) :
    gone r ∨ ∃ r' ∈ l', kept r r' := by
  induction h with
  | nil => cases hr
  | drop why _ ih =>
    rcases List.mem_cons.1 hr with rfl | hr
    · exact Or.inl why
    · exact ih hr
  | @keep _ r' _ _ how _ ih =>
    rcases List.mem_cons.1 hr with rfl | hr
    · exact Or.inr ⟨r', by simp, how⟩
    · exact (ih hr).imp id fun ⟨r'', hr'', hkept⟩ => ⟨r'', by simp [hr''], hkept⟩

/-- Dropping more rows needs a reason for each. -/
theorem filter (h : Thinned gone kept l l') (test : Row → Bool)
    (hgone : ∀ r ∈ l, ∀ r', kept r r' → test r' = true → gone r) :
    Thinned gone kept l (l'.filter fun r => !test r) := by
  induction h with
  | nil => exact .nil
  | drop why _ ih => exact .drop why (ih fun r hr => hgone r (by simp [hr]))
  | @keep r r' l l' how _ ih =>
    have hrest := ih fun r hr => hgone r (by simp [hr])
    by_cases htest : test r' = true
    · rw [List.filter_cons_of_neg (by simp [htest])]
      exact .drop (hgone r (by simp) r' how htest) hrest
    · rw [List.filter_cons_of_pos (by simp [htest])]
      exact .keep how hrest

/-- Changing rows needs that they are still kept. -/
theorem map (h : Thinned gone kept l l') (change : Row → Row)
    (hkept : ∀ r ∈ l, ∀ r', kept r r' → kept' r (change r')) :
    Thinned gone kept' l (l'.map change) := by
  induction h with
  | nil => exact .nil
  | drop why _ ih => exact .drop why (ih fun r hr => hkept r (by simp [hr]))
  | @keep r r' l l' how _ ih =>
    exact .keep (hkept r (by simp) r' how) (ih fun r hr => hkept r (by simp [hr]))

/-- **Rows that were thinned out twice**, for one reason, are the same if the
rows that were kept are. -/
theorem unique {l₁ l₂ : List Row} (h₁ : Thinned gone kept l l₁) (h₂ : Thinned gone kept' l l₂)
    (hkept : ∀ r ∈ l, ∀ r₁ ∈ l₁, kept r r₁ → ¬ gone r)
    (hkept' : ∀ r ∈ l, ∀ r₂ ∈ l₂, kept' r r₂ → ¬ gone r)
    (hsame : ∀ r ∈ l, ∀ r₁ ∈ l₁, ∀ r₂ ∈ l₂, kept r r₁ → kept' r r₂ → r₁ = r₂) : l₁ = l₂ := by
  induction h₁ generalizing l₂ with
  | nil =>
    cases h₂
    rfl
  | drop why _ ih =>
    cases h₂ with
    | drop _ rest =>
      exact ih rest (fun r hr => hkept r (by simp [hr])) (fun r hr => hkept' r (by simp [hr]))
        fun r hr => hsame r (by simp [hr])
    | keep how _ => exact absurd why (hkept' _ (by simp) _ (by simp) how)
  | keep how _ ih =>
    cases h₂ with
    | drop why _ => exact absurd why (hkept _ (by simp) _ (by simp) how)
    | keep how' rest =>
      refine List.cons_eq_cons.2 ⟨hsame _ (by simp) _ (by simp) _ (by simp) how how', ?_⟩
      exact ih rest (fun r hr r₁ hr₁ => hkept r (by simp [hr]) r₁ (by simp [hr₁]))
        (fun r hr r₂ hr₂ => hkept' r (by simp [hr]) r₂ (by simp [hr₂]))
        fun r hr r₁ hr₁ r₂ hr₂ => hsame r (by simp [hr]) r₁ (by simp [hr₁]) r₂ (by simp [hr₂])

end Thinned

end DeleteCascade
