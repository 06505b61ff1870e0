import DeleteCascade.Proofs.Deletion.Keeps
/-!
# Deletion — what stays intact

Where foreign keys only restrict, every store that a run passes through is
intact (`call_intact`): no reference dangles, rows have the keys they had, and the
rows of tables without a key are as they were. So a row that is gone has
nothing left that points at it.
-/

namespace DeleteCascade

/-- Foreign keys only restrict: they never change rows on their own. -/
def Schema.Restricts (g : Schema) : Prop :=
  ∀ fk ∈ g.foreignKeys, fk.onDelete = .noAction ∨ fk.onDelete = .restrict

instance (g : Schema) : Decidable g.Restricts :=
  inferInstanceAs
    (Decidable (∀ fk ∈ g.foreignKeys, fk.onDelete = .noAction ∨ fk.onDelete = .restrict))

namespace Store

variable {st s s' : Store} {t u : TableName} {c k : String} {v : Int} {test : Row → Bool}

/-- Where keys only restrict, rows are deleted as they are told. -/
theorem deleteWhere_of_restricts (h : s.schema.Restricts) {removed : List Row}
    (hdelete : s.deleteWhere t test = .ok (removed, s')) :
    removed = (s.rows t).filter test ∧ s' = s.removeRows t test := by
  obtain ⟨hremoved, henforce⟩ := deleteWhere_eq_ok hdelete
  refine ⟨hremoved, (enforce_eq_ok_of_restricts (fun e he => ?_) henforce).1⟩
  obtain ⟨fk, hfk, c, p, -, -, rfl⟩ := mem_enforcements.1 he
  rcases h fk (Schema.mem_foreignKeysTo.1 hfk).1 with hact | hact <;> simp [hact]

/-- And nothing points at them any more. -/
theorem NoDangling.deleteWhere (h : s.NoDangling) (hr : s.schema.Restricts) {removed : List Row}
    (hdelete : s.deleteWhere t test = .ok (removed, s')) : s'.NoDangling := by
  obtain ⟨hremoved, henforce⟩ := deleteWhere_eq_ok hdelete
  obtain ⟨rfl, hnone⟩ := enforce_eq_ok_of_restricts (fun e he => by
    obtain ⟨fk, hfk, c, p, -, -, rfl⟩ := mem_enforcements.1 he
    rcases hr fk (Schema.mem_foreignKeysTo.1 hfk).1 with hact | hact <;> simp [hact]) henforce
  intro fk hfk c p hcols r hrow v hv
  obtain ⟨r', hr', hvalues⟩ := (within_removeRows s t test).rows _ r hrow
  have hr'v : r'.get? c = some v := by
    rcases hvalues c with heq | hnone'
    · rw [← heq, hv]
    · rw [hnone'] at hv
      cases hv
  obtain ⟨q, hq, hqv⟩ := h fk hfk c p hcols r' hr' v hr'v
  rw [rows_removeRows]
  split
  · rename_i hsame
    by_cases htest : test q = true
    · -- the row would point at a row that was deleted
      rw [← rows_congr s hsame] at hq
      have hmem : v ∈ removed.filterMap (·.get? p) := by
        rw [hremoved]
        exact List.mem_filterMap.2 ⟨q, List.mem_filter.2 ⟨hq, htest⟩, hqv⟩
      have hout := hnone ⟨fk, c, removed.filterMap (·.get? p)⟩
        (mem_enforcements.2 ⟨fk, Schema.mem_foreignKeysTo.2 ⟨hfk, TableName.same_symm hsame⟩, c, p,
          hcols, List.ne_nil_of_mem hmem, rfl⟩) r hrow
      simp [Enforcement.concerns, hv, hmem] at hout
    · exact ⟨q, List.mem_filter.2 ⟨hq, by simp [htest]⟩, hqv⟩
  · exact ⟨q, hq, hqv⟩

/-- **A store that is intact** after some of `st` was taken away. -/
structure Intact (st s : Store) : Prop where
  within : s.Within st
  keys : ∀ t k, s.schema.key? t = some k → ∀ r' ∈ s.rows t, ∃ r ∈ st.rows t,
    r'.get? k = r.get? k ∧ ∀ c, r'.get? c = r.get? c ∨ r'.get? c = none
  whole : s.NoDangling
  frozen : ∀ t, s.schema.key? t = none → ∀ r ∈ s.rows t, r ∈ st.rows t

theorem Intact.refl (hwhole : st.NoDangling) : Intact st st :=
  ⟨.refl st, fun _ _ _ r hr => ⟨r, hr, rfl, fun _ => Or.inl rfl⟩, hwhole, fun _ _ _ hr => hr⟩

namespace Intact

/-- What follows can be compared with the store of any moment. -/
theorem restart (h : Intact st s) : Intact s s := .refl h.whole

/-- Keys that were given still are. -/
theorem key (h : Intact st s) (hkeys : st.KeysGiven) (hk : s.schema.key? t = some k) {r : Row}
    (hr : r ∈ s.rows t) : ∃ v, r.get? k = some v := by
  obtain ⟨q, hq, hkey, -⟩ := h.keys t k hk r hr
  rw [hkey]
  exact hkeys.value (h.within.schema ▸ hk) hq

/-- A row of an intact store was there, with what it still says and with
its key. -/
theorem origin (h : Intact st s) {q : Row} (hq : q ∈ s.rows t) :
    ∃ r ∈ st.rows t, (∀ c v, q.get? c = some v → r.get? c = some v) ∧
      ∀ k, st.schema.key? t = some k → q.get? k = r.get? k := by
  cases hk : st.schema.key? t with
  | none =>
    obtain ⟨r, hr, hvalues⟩ := h.within.origin hq
    exact ⟨r, hr, hvalues, by simp⟩
  | some k =>
    obtain ⟨r, hr, hkey, hvalues⟩ := h.keys t k (by rw [h.within.schema, hk]) q hq
    refine ⟨r, hr, fun c v hv => ?_, fun l hl => by cases hl; exact hkey⟩
    rcases hvalues c with heq | hnone
    · rw [← heq, hv]
    · rw [hnone] at hv
      cases hv

theorem deleteWhere (h : Intact st s) (hr : s.schema.Restricts) {removed : List Row}
    (hdelete : s.deleteWhere t test = .ok (removed, s')) : Intact st s' := by
  have hwhole := h.whole.deleteWhere hr hdelete
  obtain ⟨-, rfl⟩ := deleteWhere_of_restricts hr hdelete
  have hsub (u : TableName) (r : Row) (hrow : r ∈ (s.removeRows t test).rows u) : r ∈ s.rows u := by
    rw [rows_removeRows] at hrow
    split at hrow
    · exact (List.mem_filter.1 hrow).1
    · exact hrow
  exact ⟨(within_removeRows s t test).trans h.within,
    fun u k hk r hrow => h.keys u k hk r (hsub u r hrow), hwhole,
    fun u hu r hrow => h.frozen u hu r (hsub u r hrow)⟩

/-- Columns other than the key may become NULL. -/
theorem clearWhere (h : Intact st s) (hg : s.schema.Regular) (hk : s.schema.key? t = some k)
    (hkey : ∀ r ∈ s.rows t, test r = true → sameName c k = false) :
    Intact st (s.clearWhere t c test) := by
  -- rows are as they were in their key
  have hback (u : TableName) (l : String) (hl : s.schema.key? u = some l) (r : Row)
      (hrow : r ∈ s.rows u) : ∃ r' ∈ (s.clearWhere t c test).rows u, r'.get? l = r.get? l := by
    rw [rows_clearWhere]
    split
    · rename_i hsame
      refine ⟨_, List.mem_map.2 ⟨r, hrow, rfl⟩, ?_⟩
      split
      · rename_i htest
        rw [← Schema.key?_congr hsame, hk] at hl
        cases hl
        rw [Row.get?_clear, hkey r (by rwa [rows_congr s hsame]) htest]
        rfl
      · rfl
    · exact ⟨r, hrow, rfl⟩
  refine ⟨(within_clearWhere s t c test).trans h.within, fun u l hl r' hr' => ?_, ?_,
    fun u hu r hr => ?_⟩
  · rw [rows_clearWhere] at hr'
    split at hr'
    · rename_i hsame
      obtain ⟨r₁, hr₁, rfl⟩ := List.mem_map.1 hr'
      obtain ⟨r, hr, heq, hvalues⟩ := h.keys u l hl r₁ hr₁
      refine ⟨r, hr, ?_⟩
      split
      · rename_i htest
        rw [schema_clearWhere, ← Schema.key?_congr hsame, hk] at hl
        cases hl
        refine ⟨?_, fun c' => ?_⟩
        · rwa [Row.get?_clear, hkey r₁ (by rwa [rows_congr s hsame]) htest]
        · rw [Row.get?_clear]
          split
          · exact Or.inr rfl
          · exact hvalues c'
      · exact ⟨heq, hvalues⟩
    · exact h.keys u l hl r' hr'
  · intro fk hfk a p hcols r' hr' v hv
    obtain ⟨a', p', l, hcols', hl, hlp⟩ := hg.columns? hfk
    rw [hcols] at hcols'
    cases hcols'
    obtain ⟨r, hr, hvalues⟩ := (within_clearWhere s t c test).rows _ r' hr'
    have hrv : r.get? a = some v := by
      rcases hvalues a with heq | hnone
      · rw [← heq, hv]
      · rw [hnone] at hv
        cases hv
    obtain ⟨q, hq, hqv⟩ := h.whole fk hfk a p hcols r hr v hrv
    obtain ⟨q', hq', heq⟩ := hback fk.target l hl q hq
    rw [Row.get?_congr q' hlp, Row.get?_congr q hlp] at heq
    exact ⟨q', hq', heq.trans hqv⟩
  · rw [rows_clearWhere] at hr
    split at hr
    · rename_i hsame
      rw [schema_clearWhere, ← Schema.key?_congr hsame, hk] at hu
      cases hu
    · exact h.frozen u hu r hr

end Intact

/-- Rows that are taken note of and perhaps cut off keep their key. -/
theorem Takes.intact {detach : Bool} {rows : List Row} (h : s.Takes t c test detach rows s')
    (hst : Intact st s) (hg : s.schema.Regular) (hk : s.schema.key? t = some k)
    (hkey : ∀ r ∈ s.rows t, test r = true → sameName c k = false) : Intact st s' := by
  rw [h.store]
  split
  · exact hst.clearWhere hg hk hkey
  · exact hst

end Store

/-! ## Runs -/

section Runs

variable {σ : Setting} {C : Calls} {f : DeleteFunction} {batch : List Int} {caller : Caller}
variable {st s s' : Store} {notes captured : List String}

/-- **Where keys only restrict, every statement leaves the store intact.** -/
theorem Store.invariant_intact (hg : σ.schema.Regular) (hr : σ.schema.Restricts)
    (hst : st.schema = σ.schema) : Store.Invariant σ.schema (Store.Intact st) where
  schema hs := hs.within.schema.trans hst
  delete hs hdelete := hs.deleteWhere (by rwa [hs.within.schema, hst]) hdelete
  clear hs hk hkey _ :=
    hs.clearWhere (by rwa [hs.within.schema, hst]) (by rwa [hs.within.schema, hst]) hkey

/-- Every block leaves the store intact. -/
theorem Block.Runs.intact (hg : σ.schema.Regular) (hr : σ.schema.Restricts)
    (hst : st.schema = σ.schema) (hkey : σ.schema.key? f.table = some f.keyColumn)
    {b : Block Callee} {frame frame' : Frame}
    (hplan : σ.Plans f.table (·.table) notes captured b)
    (hC : ∀ {n ids caller s deleted s'}, C n ids caller s deleted s' → Store.Intact st s →
      Store.Intact st s')
    (h : b.Runs C f batch caller frame s frame' s') (hs : Store.Intact st s) :
    Store.Intact st s' :=
  h.keeps (Store.invariant_intact hg hr hst) hkey hplan hC hs

theorem Block.RunsAll.intact (hg : σ.schema.Regular) (hr : σ.schema.Restricts)
    (hst : st.schema = σ.schema) (hkey : σ.schema.key? f.table = some f.keyColumn)
    {bs : List (Block Callee)} {frame frame' : Frame}
    (hplans : ∀ b ∈ bs, σ.Plans f.table (·.table) notes captured b)
    (hC : ∀ {n ids caller s deleted s'}, C n ids caller s deleted s' → Store.Intact st s →
      Store.Intact st s')
    (h : Block.RunsAll C f batch caller bs frame s frame' s') (hs : Store.Intact st s) :
    Store.Intact st s' :=
  h.keeps (Store.invariant_intact hg hr hst) hkey hplans hC hs

end Runs

/-- **Every call leaves the store intact.** -/
theorem Program.call_intact {p : Program} {σ : Setting} {notes : List String} {name : String}
    {ids deleted : List Int} {caller : Caller} {levels : Nat} {st s s' : Store}
    (hg : σ.schema.Regular) (hr : σ.schema.Restricts) (hst : st.schema = σ.schema)
    (hserves : ∀ {name f}, p.lookup name = some f → p.Serves σ notes f)
    (h : (p.call levels name ids caller).Yields s deleted s') (hs : Store.Intact st s) :
    Store.Intact st s' :=
  call_keeps (Store.invariant_intact hg hr hst) hserves h hs

end DeleteCascade
