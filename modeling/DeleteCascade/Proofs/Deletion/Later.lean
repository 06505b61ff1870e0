import DeleteCascade.Proofs.Deletion.Keeps
/-!
# Deletion — later stores

What a run leaves is `Later` than what it found: each row was there, with
what it still says, and a table that refers to itself has the keys it had.
The latter needs that no foreign key makes such a key NULL
(`Schema.KeepsKeys`): a row that pointed at itself would otherwise look like
a part of another. Keys that were unique stay so (`Program.call_later`),
whatever foreign keys do on their own.
-/

namespace DeleteCascade

namespace Schema

/-- The table has a link to itself, in some spelling. -/
def RefersToItself (g : Schema) (t : TableName) : Prop :=
  ∃ u rs, u.same t ∧ g.selfReferences u = .ok rs ∧ rs ≠ []

theorem RefersToItself.congr {g : Schema} {t u : TableName} (h : g.RefersToItself t)
    (htu : t.same u) : g.RefersToItself u := by
  obtain ⟨w, rs, hw, hrs, hne⟩ := h
  exact ⟨w, rs, TableName.same_trans hw htu, hrs, hne⟩

/-- **No foreign key makes the key of a row NULL** in a table that refers to
itself, unless the key never is. -/
def KeepsKeys (g : Schema) : Prop :=
  ∀ fk ∈ g.foreignKeys, fk.onDelete = .setNull → ∀ c p k, fk.columns? = some (c, p) →
    g.key? fk.source = some k → sameName c k = true → g.isNullable fk.source c = true →
      ¬ g.RefersToItself fk.source

end Schema

namespace Store

variable {s s' s'' : Store} {t u : TableName} {k c : String} {v : Int} {test : Row → Bool}

/-- **A later store**: each of its rows was there, with what it still says,
and with the same key where the table refers to itself. -/
structure Later (s s' : Store) : Prop where
  schema : s'.schema = s.schema
  rows : ∀ t, ∀ r' ∈ s'.rows t, ∃ r ∈ s.rows t, (∀ c, r'.get? c = r.get? c ∨ r'.get? c = none) ∧
    (s.schema.RefersToItself t → ∀ k, s.schema.key? t = some k → r'.get? k = r.get? k)

theorem Later.refl (s : Store) : s.Later s :=
  ⟨rfl, fun _ r hr => ⟨r, hr, fun _ => Or.inl rfl, fun _ _ _ => rfl⟩⟩

theorem Later.within (h : s.Later s') : s'.Within s := by
  refine ⟨h.schema, fun t r' hr' => ?_⟩
  obtain ⟨r, hr, hvalues, -⟩ := h.rows t r' hr'
  exact ⟨r, hr, hvalues⟩

theorem Later.trans (h : s.Later s') (h' : s'.Later s'') : s.Later s'' := by
  refine ⟨h'.schema.trans h.schema, fun t r'' hr'' => ?_⟩
  obtain ⟨r', hr', hvalues', hkeys'⟩ := h'.rows t r'' hr''
  obtain ⟨r, hr, hvalues, hkeys⟩ := h.rows t r' hr'
  rw [h.schema] at hkeys'
  refine ⟨r, hr, fun c => ?_, fun hself k hk => (hkeys' hself k hk).trans (hkeys hself k hk)⟩
  rcases hvalues' c with heq | hnone
  · rw [heq]
    exact hvalues c
  · exact Or.inr hnone

/-- What a row of a later store says it said before. -/
theorem Later.origin (h : s.Later s') {r' : Row} (hr' : r' ∈ s'.rows t) :
    ∃ r ∈ s.rows t, (∀ c v, r'.get? c = some v → r.get? c = some v) ∧
      (s.schema.RefersToItself t → ∀ k, s.schema.key? t = some k → r'.get? k = r.get? k) := by
  obtain ⟨r, hr, hvalues, hkeys⟩ := h.rows t r' hr'
  refine ⟨r, hr, fun c v hv => ?_, hkeys⟩
  rcases hvalues c with heq | hnone
  · rw [← heq, hv]
  · rw [hnone] at hv
    cases hv

/-! ## Statements -/

theorem later_removeRows (s : Store) (t : TableName) (test : Row → Bool) :
    s.Later (s.removeRows t test) := by
  refine ⟨rfl, fun u r' hr' => ⟨r', ?_, fun _ => Or.inl rfl, fun _ _ _ => rfl⟩⟩
  rw [rows_removeRows] at hr'
  split at hr'
  · exact (List.mem_filter.1 hr').1
  · exact hr'

theorem later_clearWhere (hkey : s.schema.RefersToItself t → ∀ k, s.schema.key? t = some k →
      sameName c k = true → ∀ r ∈ s.rows t, test r = false) :
    s.Later (s.clearWhere t c test) := by
  refine ⟨rfl, fun u r' hr' => ?_⟩
  rw [rows_clearWhere] at hr'
  split at hr'
  · rename_i hsame
    obtain ⟨r, hr, rfl⟩ := List.mem_map.1 hr'
    refine ⟨r, hr, fun c' => ?_, fun hself k hk => ?_⟩
    · split
      · rw [Row.get?_clear]
        split
        · exact Or.inr rfl
        · exact Or.inl rfl
      · exact Or.inl rfl
    · split
      · rename_i htest
        rw [Row.get?_clear]
        split
        · rename_i hck
          rw [hkey (hself.congr (TableName.same_symm hsame)) k
            (by rw [Schema.key?_congr hsame, hk]) hck r (by rwa [rows_congr s hsame])] at htest
          cases htest
        · rfl
      · rfl
  · exact ⟨r', hr', fun _ => Or.inl rfl, fun _ _ _ => rfl⟩

/-- A column is made NULL only if it may be, or in no row. -/
theorem setNullWhere_touches {touched : List Row}
    (h : s.setNullWhere t c test = .ok (touched, s')) :
    s.schema.isNullable t c = true ∨ ∀ r ∈ s.rows t, test r = false := by
  unfold setNullWhere at h
  split at h
  · cases h
  · rename_i d hd
    split at h
    · cases h
    · rename_i col hcol
      dsimp only at h
      split at h
      · cases h
      · rename_i hallowed
        by_cases hnull : col.nullable = true
        · have ht : s.schema.table? t = some d := by
            unfold table at hd
            split at hd
            · cases hd
              assumption
            · cases hd
          exact Or.inl (by simp [Schema.isNullable, ht, Table.isNullable, hcol, hnull])
        · refine Or.inr fun r hr => ?_
          simp only [hnull, Bool.not_false, Bool.true_and, Bool.not_eq_true, Bool.not_eq_false',
            List.isEmpty_iff, List.filter_eq_nil_iff] at hallowed
          simpa using hallowed r hr

/-- **Enforcement leaves a later store.** -/
theorem later_enforce (hkeys : s.schema.KeepsKeys) {pending : List Enforcement}
    (hpending : ∀ e ∈ pending, e.foreignKey ∈ s.schema.foreignKeys ∧
      ∃ p, e.foreignKey.columns? = some (e.column, p))
    (h : s.enforce pending = .ok s') : s.Later s' := by
  refine enforce_keeps (P := fun s' => s.Later s') (Q := fun e =>
    e.foreignKey ∈ s.schema.foreignKeys ∧ ∃ p, e.foreignKey.columns? = some (e.column, p))
    ?_ ?_ s pending hpending (.refl s) h
  · intro s₁ e _ _ h₁
    refine ⟨h₁.trans (later_removeRows s₁ _ _), fun removed e' he' => ?_⟩
    obtain ⟨fk, hfk, c, p, hcols, -, rfl⟩ := mem_enforcements.1 he'
    rw [h₁.schema] at hfk
    exact ⟨(Schema.mem_foreignKeysTo.1 hfk).1, p, hcols⟩
  · rintro s₁ e touched ⟨hfk, p, hcols⟩ hact hclear h₁
    refine h₁.trans (later_clearWhere fun hself k hk hck => ?_)
    rw [h₁.schema] at hself hk
    refine (setNullWhere_touches hclear).resolve_left fun hnull => ?_
    rw [h₁.schema] at hnull
    exact hkeys _ hfk hact _ p k hcols hk hck hnull hself

theorem later_deleteWhere (hkeys : s.schema.KeepsKeys) {removed : List Row}
    (h : s.deleteWhere t test = .ok (removed, s')) : s.Later s' := by
  refine (later_removeRows s t test).trans
    (later_enforce hkeys (fun e he => ?_) (deleteWhere_eq_ok h).2)
  obtain ⟨fk, hfk, c, p, hcols, -, rfl⟩ := mem_enforcements.1 he
  exact ⟨(Schema.mem_foreignKeysTo.1 hfk).1, p, hcols⟩

/-! ## Unique keys -/

theorem UniqueKeys.removeRows (h : s.UniqueKeys) (t : TableName) (test : Row → Bool) :
    (s.removeRows t test).UniqueKeys := by
  intro u k hk
  rw [rows_removeRows]
  split
  · exact (h u k hk).filter _
  · exact h u k hk

theorem UniqueKeys.clearWhere (h : s.UniqueKeys) (t : TableName) (c : String)
    (test : Row → Bool) : (s.clearWhere t c test).UniqueKeys := by
  intro u k hk
  rw [rows_clearWhere]
  split
  · have hvalue (r : Row) (v : Int)
        (hv : (if test r = true then r.clear c else r).get? k = some v) : r.get? k = some v := by
      split at hv
      · rw [Row.get?_clear] at hv
        split at hv
        · cases hv
        · exact hv
      · exact hv
    refine List.pairwise_map.2 ((h u k hk).imp fun {r q} hrq v hr hq => ?_)
    exact hrq v (hvalue r v hr) (hvalue q v hq)
  · exact h u k hk

theorem UniqueKeys.deleteWhere (h : s.UniqueKeys) {removed : List Row}
    (hdelete : s.deleteWhere t test = .ok (removed, s')) : s'.UniqueKeys :=
  enforce_keeps (P := UniqueKeys) (Q := fun _ => True)
    (fun _ _ _ _ h₁ => ⟨h₁.removeRows _ _, fun _ _ _ => trivial⟩)
    (fun _ _ _ _ _ _ h₁ => h₁.clearWhere _ _ _) _ _ (fun _ _ => trivial)
    (h.removeRows t test) (deleteWhere_eq_ok hdelete).2

/-- **Statements leave later stores with unique keys.** -/
theorem invariant_later (hkeys : s.schema.KeepsKeys) :
    Invariant s.schema fun s' => s.Later s' ∧ s'.UniqueKeys where
  schema h := h.1.schema
  delete h hdelete := by
    refine ⟨h.1.trans (later_deleteWhere ?_ hdelete), h.2.deleteWhere hdelete⟩
    rwa [h.1.schema]
  clear := by
    intro s₁ t k c test h hk hkey _
    refine ⟨h.1.trans (later_clearWhere fun _ l hl hcl r hr => ?_), h.2.clearWhere t c test⟩
    rw [h.1.schema, hk] at hl
    cases hl
    refine Bool.eq_false_iff.2 fun htest => ?_
    rw [hkey r hr htest] at hcl
    cases hcl

end Store

/-- **A run leaves a later store with unique keys.** -/
theorem Program.call_later {p : Program} {σ : Setting} {notes : List String} {name : String}
    {ids deleted : List Int} {caller : Caller} {levels : Nat} {s s' : Store}
    (hserves : ∀ {name f}, p.lookup name = some f → p.Serves σ notes f)
    (hkeys : σ.schema.KeepsKeys) (hs : s.schema = σ.schema) (hunique : s.UniqueKeys)
    (h : (p.call levels name ids caller).Yields s deleted s') : s.Later s' ∧ s'.UniqueKeys :=
  call_keeps (hs ▸ Store.invariant_later (hs ▸ hkeys)) hserves h ⟨.refl s, hunique⟩

end DeleteCascade
