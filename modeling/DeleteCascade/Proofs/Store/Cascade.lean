import DeleteCascade.Proofs.Store.Enforcement
import DeleteCascade.Proofs.Store.Thinned
/-!
# Statements — what a statement takes with it

When a statement deletes rows, others fall with them along the foreign keys
that cascade (`Store.Falls`), and rows that stay lose what points at a row
that falls through a key that clears its column (`Store.Loses`). Both are
told from the store before the statement and from the foreign keys as a set.
The program works off what is due one key after the other on a store that
changes (`Store.Underway`, kept by each step and so by all of them), and
takes none but these rows and values. It comes to all of them where the keys
that clear a column stand apart: the column carries no key that cascades
(`Schema.ClearsApart`), or a row could be cut off before it is found
(`not_falls_palace`), and no key references it (`Schema.ClearsUnreferenced`),
or what is cleared would be missed by others.
-/

namespace DeleteCascade

/-- **A row points at a row** through a foreign key of one column. -/
def ForeignKey.Connects (fk : ForeignKey) (r q : Row) : Prop :=
  ∃ c p v, fk.columns? = some (c, p) ∧ r.get? c = some v ∧ q.get? p = some v

namespace Schema

/-- **A plain schema** lists each table once, and its foreign keys have one
column on either side and are listed under their own source table. -/
structure Plain (g : Schema) : Prop where
  once : g.tables.Pairwise fun t u => t.name.same u.name = false
  singleColumn : ∀ t ∈ g.tables, ∀ fk ∈ t.foreignKeys, fk.isSingleColumn
  atSource : ∀ t ∈ g.tables, ∀ fk ∈ t.foreignKeys, fk.source.same t.name

/-- **No column that a foreign key clears carries another key** with one of
these actions. -/
def ClearsApart (g : Schema) (acts : OnDelete → Prop) : Prop :=
  ∀ fk ∈ g.foreignKeys, fk.onDelete = .setNull → ∀ fk' ∈ g.foreignKeys, acts fk'.onDelete →
    fk.source.same fk'.source → ∀ c p c' p', fk.columns? = some (c, p) →
    fk'.columns? = some (c', p') → sameName c c' = false

/-- **No column that a foreign key clears is referenced** by a foreign key. -/
def ClearsUnreferenced (g : Schema) : Prop :=
  ∀ fk ∈ g.foreignKeys, fk.onDelete = .setNull → ∀ fk' ∈ g.foreignKeys,
    fk'.target.same fk.source → ∀ c p c' p', fk.columns? = some (c, p) →
    fk'.columns? = some (c', p') → sameName p' c = false

instance (g : Schema) : Decidable g.Plain :=
  decidable_of_iff
    ((g.tables.Pairwise fun t u => t.name.same u.name = false) ∧
      (∀ t ∈ g.tables, ∀ fk ∈ t.foreignKeys, fk.isSingleColumn) ∧
      ∀ t ∈ g.tables, ∀ fk ∈ t.foreignKeys, fk.source.same t.name)
    ⟨fun ⟨once, singleColumn, atSource⟩ => ⟨once, singleColumn, atSource⟩,
      fun h => ⟨h.once, h.singleColumn, h.atSource⟩⟩

instance (g : Schema) (acts : OnDelete → Prop) [DecidablePred acts] :
    Decidable (g.ClearsApart acts) :=
  decidable_of_iff
    (∀ fk ∈ g.foreignKeys, fk.onDelete = .setNull → ∀ fk' ∈ g.foreignKeys, acts fk'.onDelete →
      fk.source.same fk'.source → ∀ cols ∈ fk.columns?, ∀ cols' ∈ fk'.columns?,
        sameName cols.1 cols'.1 = false)
    ⟨fun h fk hfk hact fk' hfk' hacts hsame c p c' p' hcols hcols' =>
        h fk hfk hact fk' hfk' hacts hsame (c, p) hcols (c', p') hcols',
      fun h fk hfk hact fk' hfk' hacts hsame cols hcols cols' hcols' =>
        h fk hfk hact fk' hfk' hacts hsame cols.1 cols.2 cols'.1 cols'.2 hcols hcols'⟩

instance (g : Schema) : Decidable g.ClearsUnreferenced :=
  decidable_of_iff
    (∀ fk ∈ g.foreignKeys, fk.onDelete = .setNull → ∀ fk' ∈ g.foreignKeys,
      fk'.target.same fk.source → ∀ cols ∈ fk.columns?, ∀ cols' ∈ fk'.columns?,
        sameName cols'.2 cols.1 = false)
    ⟨fun h fk hfk hact fk' hfk' hsame c p c' p' hcols hcols' =>
        h fk hfk hact fk' hfk' hsame (c, p) hcols (c', p') hcols',
      fun h fk hfk hact fk' hfk' hsame cols hcols cols' hcols' =>
        h fk hfk hact fk' hfk' hsame cols.1 cols.2 cols'.1 cols'.2 hcols hcols'⟩

end Schema

/-- A row is concerned if it has one of the values. -/
theorem Enforcement.concerns_iff {e : Enforcement} {r : Row} :
    e.concerns r = true ↔ ∃ v ∈ e.values, r.get? e.column = some v := by
  unfold concerns
  cases r.get? e.column <;> simp

/-- Rows that were thinned out come from each other's lists. -/
theorem Thinned.members {gone : Row → Prop} {kept : Row → Row → Prop} {l l' : List Row}
    (h : Thinned gone kept l l') :
    Thinned gone (fun r r' => kept r r' ∧ r ∈ l ∧ r' ∈ l') l l' := by
  induction h with
  | nil => exact .nil
  | drop why _ ih =>
    exact .drop why (ih.mono (fun _ h => h) fun _ _ ⟨hkept, hr, hr'⟩ => ⟨hkept, by simp [hr], hr'⟩)
  | keep how _ ih =>
    refine .keep ⟨how, by simp, by simp⟩ (ih.mono (fun _ h => h) ?_)
    exact fun _ _ ⟨hkept, hr, hr'⟩ => ⟨hkept, by simp [hr], by simp [hr']⟩

namespace Store

variable {st s s' : Store} {t u w : TableName} {test : Row → Bool} {r r' q : Row} {c : String}
variable {removed : List Row} {e : Enforcement} {pending rest : List Enforcement}

/-- **The rows that fall with a statement**: those it deletes, and those that
point at a row that falls through a key that cascades. -/
inductive Falls (st : Store) (t : TableName) (test : Row → Bool) : TableName → Row → Prop
  | passes {u : TableName} {r : Row} (table : t.same u) (row : r ∈ st.rows u)
      (passes : test r = true) : Falls st t test u r
  | cascade {u w : TableName} {r q : Row} {fk : ForeignKey} (listed : fk ∈ st.schema.foreignKeys)
      (cascades : fk.onDelete = .cascade) (source : fk.source.same u) (target : fk.target.same w)
      (row : r ∈ st.rows u) (connects : fk.Connects r q) (falls : Falls st t test w q) :
      Falls st t test u r

theorem Falls.mem (h : st.Falls t test u r) : r ∈ st.rows u := by
  cases h with
  | passes _ row => exact row
  | cascade _ _ _ _ row => exact row

theorem Falls.congr (h : st.Falls t test u r) (hu : u.same w) : st.Falls t test w r := by
  cases h with
  | passes table row passes =>
    exact .passes (TableName.same_trans table hu) (rows_congr st hu ▸ row) passes
  | cascade listed cascades source target row connects falls =>
    exact .cascade listed cascades (TableName.same_trans source hu) target
      (rows_congr st hu ▸ row) connects falls

/-- **A row loses the value of a column**: it points at a row that falls
through a key on the column that clears it. -/
def Loses (st : Store) (t : TableName) (test : Row → Bool) (u : TableName) (r : Row)
    (c : String) : Prop :=
  ∃ fk ∈ st.schema.foreignKeys, fk.onDelete = .setNull ∧ fk.source.same u ∧
    (∃ a p, fk.columns? = some (a, p) ∧ sameName a c) ∧
    ∃ w q, fk.target.same w ∧ st.Falls t test w q ∧ fk.Connects r q

/-- **What becomes of a row that stays**: it is as before, up to what it
loses. -/
structure Left (st : Store) (t : TableName) (test : Row → Bool) (u : TableName)
    (r r' : Row) : Prop where
  stays : ¬ st.Falls t test u r
  cut : r.Cut r'
  kept : ∀ c, ¬ st.Loses t test u r c → r'.get? c = r.get? c
  null : ∀ c, st.Loses t test u r c → r'.get? c = none

/-! ## A statement underway -/

/-- A row that was not deleted so far, with what it has lost so far. -/
structure Touched (st : Store) (t : TableName) (test : Row → Bool) (u : TableName)
    (r r' : Row) : Prop where
  fails : t.same u → test r = false
  cut : r.Cut r'
  values : ∀ c, r'.get? c = r.get? c ∨
    (st.Loses t test u r c ∧ r'.get? c = none ∧ ¬ st.schema.Requires u c)

/-- Whatever points at a row has been dealt with or will be. -/
def Settled (s : Store) (pending : List Enforcement) (u : TableName) (r : Row) : Prop :=
  ∀ fk ∈ s.schema.foreignKeys, fk.target.same u → ∀ c p v, fk.columns? = some (c, p) →
    r.get? p = some v →
    (∃ e ∈ pending, e.foreignKey = fk ∧ v ∈ e.values) ∨
      (s.schema.Acts fk c ∧ ∀ q ∈ s.rows fk.source, q.get? c ≠ some v)

/-- What is to be done is about a foreign key and values that rows had that
fall. -/
structure Due (st : Store) (t : TableName) (test : Row → Bool) (e : Enforcement) : Prop where
  listed : e.foreignKey ∈ st.schema.foreignKeys
  found : e.values ≠ []
  values : ∃ p, e.foreignKey.columns? = some (e.column, p) ∧
    ∀ v ∈ e.values, ∃ w q, e.foreignKey.target.same w ∧ st.Falls t test w q ∧ q.get? p = some v

/-- **A statement underway**: what is due is about rows that fell, and what
points at these has been dealt with or will be, if it can still be found. -/
structure Underway (st : Store) (t : TableName) (test : Row → Bool) (s : Store)
    (pending : List Enforcement) : Prop where
  schema : s.schema = st.schema
  due : ∀ e ∈ pending, st.Due t test e
  rows : ∀ u, Thinned
    (fun r => st.Falls t test u r ∧ (st.schema.ClearsUnreferenced → s.Settled pending u r))
    (st.Touched t test u) (st.rows u) (s.rows u)

namespace Touched

/-- A value that is left was there. -/
theorem value (h : st.Touched t test u r r') {v : Int} (hv : r'.get? c = some v) :
    r.get? c = some v := by
  rcases h.values c with heq | ⟨-, hnone, -⟩
  · rw [← heq, hv]
  · rw [hnone] at hv
    cases hv

/-- A column that no key clears is as before. -/
theorem get?_eq (h : st.Touched t test u r r') (hc : ¬ st.Loses t test u r c) :
    r'.get? c = r.get? c :=
  (h.values c).resolve_right fun hloses => hc hloses.1

end Touched

/-- A column that is referenced is not lost. -/
theorem not_loses_of_referenced (hfree : st.schema.ClearsUnreferenced) {fk : ForeignKey}
    (hfk : fk ∈ st.schema.foreignKeys) (htarget : fk.target.same u) {a p : String}
    (hcols : fk.columns? = some (a, p)) : ¬ st.Loses t test u r p := by
  rintro ⟨fk', hfk', hact, hsource, ⟨a', p', hcols', ha'⟩, -⟩
  have hne := hfree fk' hfk' hact fk hfk
    (TableName.same_trans htarget (TableName.same_symm hsource)) a' p' a p hcols' hcols
  rw [sameName_comm, ha'] at hne
  cases hne

/-- A row concerned points at a row that fell. -/
theorem Due.connects (h : st.Due t test e) (htouched : st.Touched t test u r r')
    (hconcerns : e.concerns r' = true) : (∃ p, e.foreignKey.columns? = some (e.column, p)) ∧
      ∃ w q, e.foreignKey.target.same w ∧ st.Falls t test w q ∧ e.foreignKey.Connects r q := by
  obtain ⟨p, hcols, hvalues⟩ := h.values
  obtain ⟨v, hmem, hv⟩ := Enforcement.concerns_iff.1 hconcerns
  obtain ⟨w, q, htarget, hq, hqv⟩ := hvalues v hmem
  exact ⟨⟨p, hcols⟩, w, q, htarget, hq, e.column, p, v, hcols, htouched.value hv, hqv⟩

/-- The keys that point at rows that go are due, if these rows fall. -/
theorem Due.of_mem {t' : TableName} (he : e ∈ enforcements st.schema t' removed)
    (hremoved : ∀ r' ∈ removed, ∃ r, st.Falls t test t' r ∧
      ∀ p v, r'.get? p = some v → r.get? p = some v) : st.Due t test e := by
  obtain ⟨fk, hfk, c, p, hcols, hfound, rfl⟩ := mem_enforcements.1 he
  obtain ⟨hlisted, htarget⟩ := Schema.mem_foreignKeysTo.1 hfk
  refine ⟨hlisted, hfound, p, hcols, fun v hv => ?_⟩
  obtain ⟨r', hr', hvalue⟩ := List.mem_filterMap.1 hv
  obtain ⟨r, hfalls, hvalues⟩ := hremoved r' hr'
  exact ⟨t', r, htarget, hfalls, hvalues p v hvalue⟩

/-- A key that points at a row that goes is due for its value. -/
theorem exists_enforcement {g : Schema} {fk : ForeignKey} (hfk : fk ∈ g.foreignKeys)
    (htarget : fk.target.same t) {c p : String} {v : Int} (hcols : fk.columns? = some (c, p))
    (hr : r ∈ removed) (hv : r.get? p = some v) :
    ∃ e ∈ enforcements g t removed, e.foreignKey = fk ∧ v ∈ e.values := by
  have hmem : v ∈ removed.filterMap (·.get? p) := List.mem_filterMap.2 ⟨r, hr, hv⟩
  exact ⟨_, mem_enforcements.2 ⟨fk, Schema.mem_foreignKeysTo.2 ⟨hfk, htarget⟩, c, p, hcols,
    List.ne_nil_of_mem hmem, rfl⟩, rfl, hmem⟩

/-- What has been dealt with stays so, and an act deals with its own key. -/
theorem Settled.next {due : List Enforcement} (h : s.Settled (e :: rest) u r)
    (hdue : st.Due t test e) (hact : s.act e = .ok (s', due)) (hpending : rest ⊆ pending) :
    s'.Settled pending u r := by
  obtain ⟨hacts, -⟩ := act_isOk_iff.1 ⟨_, hact⟩
  obtain ⟨hschema, hrows, hnone⟩ := act_leaves hact
  intro fk hfk htarget c p v hcols hv
  rcases h fk (hschema ▸ hfk) htarget c p v hcols hv with ⟨e', he', rfl, hmem⟩ | ⟨hacts', hdone⟩
  · rcases List.mem_cons.1 he' with rfl | he'
    · obtain ⟨p', hcols', -⟩ := hdue.values
      rw [hcols] at hcols'
      cases hcols'
      refine Or.inr ⟨hschema ▸ hacts, fun q hq hqv => ?_⟩
      have hnot := hnone q hq
      rw [Enforcement.concerns_iff.2 ⟨v, hmem, hqv⟩] at hnot
      cases hnot
    · exact Or.inl ⟨e', hpending he', rfl, hmem⟩
  · refine Or.inr ⟨hschema ▸ hacts', fun q hq hqv => ?_⟩
    obtain ⟨q₀, hq₀, hvalues⟩ := hrows _ q hq
    exact hdone q₀ hq₀ (hvalues c v hqv)

namespace Underway

/-- The rows before an act, told from the rows at the beginning, with those
that are gone by then settled after it. -/
theorem next {due : List Enforcement} (h : st.Underway t test s (e :: rest))
    (hact : s.act e = .ok (s', due)) (u : TableName) :
    Thinned
      (fun r => st.Falls t test u r ∧
        (st.schema.ClearsUnreferenced → s'.Settled (due ++ rest) u r))
      (fun r r' => st.Touched t test u r r' ∧ r ∈ st.rows u ∧ r' ∈ s.rows u)
      (st.rows u) (s.rows u) :=
  (h.rows u).members.mono
    (fun _ ⟨hfalls, hsettled⟩ => ⟨hfalls, fun hfree =>
      (hsettled hfree).next (h.due e (by simp)) hact (List.subset_append_right _ _)⟩)
    fun _ _ hkept => hkept

/-- **A key that clears its column** takes values of rows that point at rows
that fell. -/
theorem clear (h : st.Underway t test s (e :: rest)) (hclear : e.foreignKey.onDelete = .setNull)
    (hact : s.act e = .ok (s.clearWhere e.foreignKey.source e.column e.concerns, [])) :
    st.Underway t test (s.clearWhere e.foreignKey.source e.column e.concerns) rest := by
  have hdue := h.due e (by simp)
  obtain ⟨-, hallowed⟩ := act_isOk_iff.1 ⟨_, hact⟩
  rw [Schema.HoldsBack, hclear] at hallowed
  refine ⟨h.schema, fun e' he' => h.due e' (by simp [he']), fun u => ?_⟩
  rw [rows_clearWhere]
  split
  · rename_i hsame
    refine (h.next hact u).map _ fun r hr r' ⟨htouched, _, hr'⟩ => ?_
    split
    · rename_i hconcerns
      obtain ⟨⟨p, hcols⟩, w, q, htarget, hq, hconnects⟩ := hdue.connects htouched hconcerns
      refine ⟨htouched.fails, htouched.cut.clear _, fun c => ?_⟩
      rw [Row.get?_clear]
      split
      · rename_i hc
        refine Or.inr ⟨⟨e.foreignKey, hdue.listed, hclear, hsame, ⟨e.column, p, hcols, hc⟩, w, q,
          htarget, hq, hconnects⟩, rfl, fun hrequires => ?_⟩
        rw [← h.schema, ← Schema.requires_congr hsame hc] at hrequires
        have hnot := hallowed hrequires r' (rows_congr s hsame ▸ hr')
        rw [hconcerns] at hnot
        cases hnot
      · exact htouched.values c
    · exact htouched
  · exact (h.next hact u).mono (fun _ h => h) fun _ _ hkept => hkept.1

/-- **A key that cascades** takes rows that point at rows that fell, and what
points at them is to be done next. -/
theorem cascade (h : st.Underway t test s (e :: rest)) (hcascade : e.foreignKey.onDelete = .cascade)
    (hact : s.act e = .ok (s.removeRows e.foreignKey.source e.concerns, enforcements s.schema
      e.foreignKey.source ((s.rows e.foreignKey.source).filter e.concerns))) :
    st.Underway t test (s.removeRows e.foreignKey.source e.concerns)
      (enforcements s.schema e.foreignKey.source
        ((s.rows e.foreignKey.source).filter e.concerns) ++ rest) := by
  have hdue := h.due e (by simp)
  have hfalls {u : TableName} (hsame : e.foreignKey.source.same u) {r r' : Row}
      (hr : r ∈ st.rows u) (htouched : st.Touched t test u r r')
      (hconcerns : e.concerns r' = true) : st.Falls t test u r := by
    obtain ⟨-, w, q, htarget, hq, hconnects⟩ := hdue.connects htouched hconcerns
    exact .cascade hdue.listed hcascade hsame htarget hr hconnects hq
  refine ⟨h.schema, fun e' he' => ?_, fun u => ?_⟩
  · rcases List.mem_append.1 he' with hnew | hold
    · refine .of_mem (h.schema ▸ hnew) fun r' hr' => ?_
      obtain ⟨hr', hconcerns⟩ := List.mem_filter.1 hr'
      obtain ⟨r, hr, htouched⟩ := (h.rows _).exists_of_mem hr'
      exact ⟨r, hfalls (TableName.same_refl _) hr htouched hconcerns, fun _ _ => htouched.value⟩
    · exact h.due e' (by simp [hold])
  · rw [rows_removeRows]
    split
    · rename_i hsame
      refine ((h.next hact u).filter _ fun r hr r' ⟨htouched, _, hr'⟩ hconcerns => ?_).mono
        (fun _ h => h) fun _ _ hkept => hkept.1
      refine ⟨hfalls hsame hr htouched hconcerns,
        fun hfree fk hfk htarget c p v hcols hv => Or.inl ?_⟩
      -- nothing has cleared the value that is referenced, so the key is due for it
      have hvalue : r'.get? p = some v := by
        rw [htouched.get?_eq (not_loses_of_referenced hfree (h.schema ▸ hfk) htarget hcols), hv]
      obtain ⟨e', he', hkey⟩ := exists_enforcement hfk
        (TableName.same_trans htarget (TableName.same_symm hsame)) hcols
        (List.mem_filter.2 ⟨rows_congr s hsame ▸ hr', hconcerns⟩) hvalue
      exact ⟨e', List.mem_append_left _ he', hkey⟩
    · exact (h.next hact u).mono (fun _ h => h) fun _ _ hkept => hkept.1

/-- **Every act carries a statement on.** -/
theorem act {due : List Enforcement} (h : st.Underway t test s (e :: rest))
    (hact : s.act e = .ok (s', due)) : st.Underway t test s' (due ++ rest) := by
  rcases act_eq_ok hact with ⟨-, rfl, rfl⟩ | ⟨hcascade, -, rfl, rfl⟩ | ⟨hclear, rfl, rfl⟩
  · exact ⟨h.schema, fun e' he' => h.due e' (by simp [show e' ∈ rest from he']), fun u =>
      (h.next hact u).mono (fun _ h => h) fun _ _ hkept => hkept.1⟩
  · exact h.cascade hcascade hact
  · exact h.clear hclear hact

/-- **A statement begins** by taking the rows that pass its test. -/
theorem start (st : Store) (t : TableName) (test : Row → Bool) :
    st.Underway t test (st.removeRows t test)
      (enforcements st.schema t ((st.rows t).filter test)) := by
  refine ⟨rfl, fun e he => ?_, fun u => ?_⟩
  · refine .of_mem he fun r hr => ?_
    obtain ⟨hr, htest⟩ := List.mem_filter.1 hr
    exact ⟨r, .passes (TableName.same_refl t) hr htest, fun _ _ hv => hv⟩
  · have hall : Thinned (fun r => st.Falls t test u r ∧ (st.schema.ClearsUnreferenced →
        (st.removeRows t test).Settled (enforcements st.schema t ((st.rows t).filter test)) u r))
        (fun r r' => r = r' ∧ r ∈ st.rows u ∧ r' ∈ st.rows u) (st.rows u) (st.rows u) :=
      (Thinned.refl (fun _ => rfl) (st.rows u)).members
    rw [rows_removeRows]
    split
    · rename_i hsame
      refine (hall.filter test ?_).members.mono (fun _ h => h) ?_
      · rintro r hr r' ⟨rfl, -⟩ htest
        refine ⟨.passes hsame hr htest, fun _ fk hfk htarget c p v hcols hv => Or.inl ?_⟩
        exact exists_enforcement hfk (TableName.same_trans htarget (TableName.same_symm hsame)) hcols
          (List.mem_filter.2 ⟨rows_congr st hsame ▸ hr, htest⟩) hv
      · rintro r r' ⟨⟨rfl, -⟩, -, hr'⟩
        exact ⟨fun _ => by simpa using (List.mem_filter.1 hr').2, .whole, fun _ => Or.inl rfl⟩
    · rename_i hother
      refine hall.mono (fun _ h => h) ?_
      rintro r r' ⟨rfl, -⟩
      exact ⟨fun hsame => absurd hsame hother, .whole, fun _ => Or.inl rfl⟩

/-! ## A statement at its end -/

/-- What points at a row that is gone has been dealt with. -/
theorem settled (hfree : st.schema.ClearsUnreferenced) (h : st.Underway t test s' [])
    (hfalls : st.Falls t test w q) (hgone : ∀ q' ∈ s'.rows w, ¬ st.Touched t test w q q')
    {fk : ForeignKey} (hfk : fk ∈ st.schema.foreignKeys) (htarget : fk.target.same w) {c p : String} {v : Int}
    (hcols : fk.columns? = some (c, p)) (hv : q.get? p = some v) :
    st.schema.Acts fk c ∧ ∀ r' ∈ s'.rows fk.source, r'.get? c ≠ some v := by
  rcases (h.rows w).dropped_or_kept hfalls.mem with ⟨-, hsettled⟩ | ⟨q', hq', hkept⟩
  · rcases hsettled hfree fk (h.schema ▸ hfk) htarget c p v hcols hv with ⟨e, he, -⟩ | hdone
    · cases he
    · exact h.schema ▸ hdone
  · exact absurd hkept (hgone q' hq')

/-- **Every row that falls is gone at the end**: the row that it points at is,
so that the key that cascades was followed to it. -/
theorem gone (hfree : st.schema.ClearsUnreferenced)
    (hapart : st.schema.ClearsApart (· = .cascade)) (h : st.Underway t test s' [])
    (hfalls : st.Falls t test u r) : ∀ r' ∈ s'.rows u, ¬ st.Touched t test u r r' := by
  induction hfalls with
  | passes table _ passes =>
    intro r' _ htouched
    rw [htouched.fails table] at passes
    cases passes
  | @cascade u w r q fk listed cascades source target row connects falls ih =>
    intro r' hr' htouched
    obtain ⟨c, p, v, hcols, hrv, hqv⟩ := connects
    have hkeeps : ¬ st.Loses t test u r c := by
      rintro ⟨fk', hfk', hact, hsource, ⟨a, p', hcols', ha⟩, -⟩
      rw [hapart fk' hfk' hact fk listed cascades
        (TableName.same_trans hsource (TableName.same_symm source)) a p' c p hcols' hcols] at ha
      cases ha
    refine (h.settled hfree falls ih listed target hcols hqv).2 r' ?_ ?_
    · rwa [rows_congr s' source]
    · rw [htouched.get?_eq hkeeps, hrv]

/-- **What is left at the end** is what falls and what is lost away. -/
theorem left (hfree : st.schema.ClearsUnreferenced)
    (hapart : st.schema.ClearsApart (· = .cascade)) (h : st.Underway t test s' []) (u : TableName) :
    Thinned (st.Falls t test u) (st.Left t test u) (st.rows u) (s'.rows u) := by
  refine (h.rows u).members.mono (fun _ hgone => hgone.1) fun r r' ⟨htouched, _, hr'⟩ => ?_
  refine ⟨fun hfalls => h.gone hfree hapart hfalls r' hr' htouched, htouched.cut,
    fun c hkeeps => htouched.get?_eq hkeeps, ?_⟩
  rintro c ⟨fk, hfk, -, hsource, ⟨a, p, hcols, ha⟩, w, q, htarget, hq, c', p', v, hcols', hrv, hqv⟩
  rw [hcols] at hcols'
  cases hcols'
  rw [← Row.get?_congr r' ha]
  rcases htouched.values a with heq | ⟨-, hnone, -⟩
  · refine absurd (heq.trans hrv)
      ((h.settled hfree hq (h.gone hfree hapart hq) hfk htarget hcols hqv).2 r' ?_)
    rwa [rows_congr s' hsource]
  · exact hnone

/-- **No reference dangles at the end** if none did. -/
theorem noDangling (hfree : st.schema.ClearsUnreferenced) (hwhole : st.NoDangling)
    (h : st.Underway t test s' []) : s'.NoDangling := by
  intro fk hfk c p hcols r' hr' v hv
  rw [h.schema] at hfk
  obtain ⟨r, hr, htouched⟩ := (h.rows _).exists_of_mem hr'
  obtain ⟨q, hq, hqv⟩ := hwhole fk hfk c p hcols r hr v (htouched.value hv)
  rcases (h.rows _).dropped_or_kept hq with ⟨-, hsettled⟩ | ⟨q', hq', hkept⟩
  · rcases hsettled hfree fk (h.schema ▸ hfk) (TableName.same_refl _) c p v hcols hqv with
      ⟨e, he, -⟩ | hdone
    · cases he
    · exact absurd hv (hdone.2 r' hr')
  · refine ⟨q', hq', ?_⟩
    rw [hkept.get?_eq (not_loses_of_referenced hfree hfk (TableName.same_refl _) hcols), hqv]

end Underway

/-- A statement that succeeds has come to its end. -/
theorem underway_of_deleteWhere (h : st.deleteWhere t test = .ok (removed, s')) :
    removed = (st.rows t).filter test ∧ st.Underway t test s' [] := by
  obtain ⟨rfl, henforce⟩ := deleteWhere_eq_ok h
  exact ⟨rfl, enforce_ends (fun h hact => h.act hact) (.start st t test) henforce⟩

/-- **What a statement takes with it.** It ends, also where keys that cascade
lead back, no deeper than there are rows. If it succeeds it reports the rows
that passed its test. Only rows that fall are gone, and only values that are
lost are NULL; where the keys that clear a column stand apart, it is these
rows and values exactly, all other rows are left in their order and as they
were, and no reference dangles that did not before. -/
theorem deleteWhere_exact (st : Store) (t : TableName) (test : Row → Bool) :
    (∀ levels, st.size < levels → ∃ outcome, deleteNested levels st t test = some outcome ∧
      outcome.map (fun found => (found.1, found.2.rows)) =
        (st.deleteWhere t test).map fun found => (found.1, found.2.rows)) ∧
      ∀ removed s', st.deleteWhere t test = .ok (removed, s') →
        removed = (st.rows t).filter test ∧
        (∀ u, Thinned (st.Falls t test u) (st.Touched t test u) (st.rows u) (s'.rows u)) ∧
        (st.schema.ClearsUnreferenced → st.schema.ClearsApart (· = .cascade) →
          ∀ u, Thinned (st.Falls t test u) (st.Left t test u) (st.rows u) (s'.rows u)) ∧
        (st.schema.ClearsUnreferenced → st.NoDangling → s'.NoDangling) := by
  refine ⟨fun levels hlevels => ⟨_, deleteNested_eq hlevels t test, deleteFound_rows st t test⟩, ?_⟩
  intro removed s' h
  obtain ⟨hremoved, hend⟩ := underway_of_deleteWhere h
  exact ⟨hremoved, fun u => (hend.rows u).mono (fun _ hgone => hgone.1) fun _ _ hkept => hkept,
    fun hfree hapart => hend.left hfree hapart, fun hfree => hend.noDangling hfree⟩

/-! ## Small stores -/

/-- What is checked of what comes out holds of it, and something does. -/
theorem exists_ok {ε α : Type} {x : Except ε α} {P : α → Prop} [DecidablePred P]
    (h : (x.toOption.any fun a => P a) = true) : ∃ a, x = .ok a ∧ P a := by
  cases x with
  | error err => cases h
  | ok a => exact ⟨a, rfl, of_decide_eq_true h⟩

/-- The test for the row with a key. -/
def hasId (id : Int) (r : Row) : Bool := r.get? "id" == some id

/-- A table with a key, and with columns that may be NULL. -/
def smallTable (schema name : String) (columns : List String) : Table :=
  { Table.empty ⟨schema, name⟩ with
    columns := ⟨"id", "bigint", false⟩ :: columns.map fun c => ⟨c, "bigint", true⟩
    primaryKey := ["id"] }

/-- A knight and a squire who go with each other, and a horse that stays. -/
def tourney : Store where
  schema := ⟨"tourney",
    [(smallTable "tourney" "knight" ["squire"]).addReference "squire" "squire" "id" .cascade,
      (smallTable "tourney" "squire" ["knight"]).addReference "knight" "knight" "id" .cascade,
      (smallTable "tourney" "horse" ["knight"]).addReference "knight" "knight" "id" .setNull], []⟩
  contents := [(("tourney", "knight"), [⟨[("id", 1), ("squire", 1)]⟩]),
    (("tourney", "squire"), [⟨[("id", 1), ("knight", 1)]⟩]),
    (("tourney", "horse"), [⟨[("id", 1), ("knight", 1)]⟩])]

/-- The knight falls and the squire with it, and the horse loses its knight. -/
theorem deleteWhere_exact_tourney : tourney.schema.Plain ∧
    ∃ removed s', tourney.deleteWhere ⟨"tourney", "knight"⟩ (hasId 1) = .ok (removed, s') ∧
      (removed = [⟨[("id", 1), ("squire", 1)]⟩] ∧ s'.rows ⟨"tourney", "squire"⟩ = [] ∧
        s'.rows ⟨"tourney", "horse"⟩ = [⟨[("id", 1)]⟩]) ∧
      (∀ u, Thinned (tourney.Falls ⟨"tourney", "knight"⟩ (hasId 1) u)
        (tourney.Left ⟨"tourney", "knight"⟩ (hasId 1) u) (tourney.rows u) (s'.rows u)) ∧
      s'.NoDangling := by
  have hrun : ((tourney.deleteWhere ⟨"tourney", "knight"⟩ (hasId 1)).toOption.any fun found =>
      found.1 = [⟨[("id", 1), ("squire", 1)]⟩] ∧ found.2.rows ⟨"tourney", "squire"⟩ = [] ∧
        found.2.rows ⟨"tourney", "horse"⟩ = [⟨[("id", 1)]⟩]) = true := by
    -- enforcement is followed for as long as it lasts here
    delta deleteWhere
    rw [← enforceFor_eq 9]
    decide +kernel
  obtain ⟨⟨removed, s'⟩, hdelete, hrows⟩ := exists_ok hrun
  obtain ⟨-, hexact⟩ := deleteWhere_exact tourney ⟨"tourney", "knight"⟩ (hasId 1)
  obtain ⟨-, -, hleft, hwhole⟩ := hexact removed s' hdelete
  exact ⟨by decide +kernel, removed, s', hdelete, hrows,
    hleft (by decide +kernel) (by decide +kernel), hwhole (by decide +kernel) (by decide +kernel)⟩

/-- A house that takes its sign for its number, and a parcel that goes by the
number of the house. -/
def street : Store where
  schema := ⟨"street",
    [smallTable "street" "sign" [],
      (smallTable "street" "house" ["sign"]).addReference "sign" "sign" "id" .setNull,
      (smallTable "street" "parcel" ["sign"]).addReference "sign" "house" "sign" .noAction], []⟩
  contents := [(("street", "sign"), [⟨[("id", 1)]⟩]),
    (("street", "house"), [⟨[("id", 1), ("sign", 1)]⟩]),
    (("street", "parcel"), [⟨[("id", 1), ("sign", 1)]⟩])]

/-- **A cleared column that is referenced leaves a reference dangling**: the
house loses its number with the sign, and nothing looks at the parcel. -/
theorem not_noDangling_street : street.schema.Plain ∧ street.NoDangling ∧
    ∃ found, street.deleteWhere ⟨"street", "sign"⟩ (hasId 1) = .ok found ∧
      ¬ found.2.NoDangling := by
  refine ⟨by decide +kernel, by decide +kernel, exists_ok ?_⟩
  delta deleteWhere
  rw [← enforceFor_eq 9]
  decide +kernel

/-- A hall with a wing, and a door that goes by one number for both. -/
def palace : Store where
  schema := ⟨"palace",
    [smallTable "palace" "hall" [],
      ((smallTable "palace" "door" ["hall"]).addReference "hall" "hall" "id" .setNull).addReference
        "hall" "wing" "id" .cascade,
      (smallTable "palace" "wing" ["hall"]).addReference "hall" "hall" "id" .cascade], []⟩
  contents := [(("palace", "hall"), [⟨[("id", 1)]⟩]),
    (("palace", "door"), [⟨[("id", 1), ("hall", 1)]⟩]),
    (("palace", "wing"), [⟨[("id", 1), ("hall", 1)]⟩])]

/-- **A cleared column that cascades cuts a row off**: the door is to go with
the wing, loses its number with the hall first, and stays. -/
theorem not_falls_palace : palace.schema.Plain ∧ palace.NoDangling ∧
    palace.Falls ⟨"palace", "hall"⟩ (hasId 1) ⟨"palace", "door"⟩ ⟨[("id", 1), ("hall", 1)]⟩ ∧
    ∃ found, palace.deleteWhere ⟨"palace", "hall"⟩ (hasId 1) = .ok found ∧
      found.2.rows ⟨"palace", "door"⟩ = [⟨[("id", 1)]⟩] := by
  refine ⟨by decide +kernel, by decide +kernel, ?_, exists_ok ?_⟩
  · have hwingKey : (⟨"wing_hall_fk", ⟨"palace", "wing"⟩, ["hall"], ⟨"palace", "hall"⟩, ["id"],
        .cascade⟩ : ForeignKey) ∈ palace.schema.foreignKeys := by decide +kernel
    have hdoorKey : (⟨"door_hall_fk", ⟨"palace", "door"⟩, ["hall"], ⟨"palace", "wing"⟩, ["id"],
        .cascade⟩ : ForeignKey) ∈ palace.schema.foreignKeys := by decide +kernel
    have hhall : palace.Falls ⟨"palace", "hall"⟩ (hasId 1) ⟨"palace", "hall"⟩ ⟨[("id", 1)]⟩ :=
      .passes (by decide +kernel) (by decide +kernel) (by decide +kernel)
    have hwing : palace.Falls ⟨"palace", "hall"⟩ (hasId 1) ⟨"palace", "wing"⟩
        ⟨[("id", 1), ("hall", 1)]⟩ :=
      .cascade hwingKey rfl (by decide +kernel) (by decide +kernel) (by decide +kernel)
        ⟨"hall", "id", 1, rfl, by decide +kernel, by decide +kernel⟩ hhall
    exact .cascade hdoorKey rfl (by decide +kernel) (by decide +kernel) (by decide +kernel)
      ⟨"hall", "id", 1, rfl, by decide +kernel, by decide +kernel⟩ hwing
  · delta deleteWhere
    rw [← enforceFor_eq 9]
    decide +kernel

end Store

end DeleteCascade
