import DeleteCascade.Proofs.Store.Statements
/-!
# Deletion — the rows that belong to a batch

Rows belong together along the links of the schema. `Closure` collects what
belongs to a batch when `owns` says which links own: parts, bridge rows and
what is behind them, what a row points at and owns, and the rows of one
object in its subtypes and supertypes. It is read off one store, that before
a deletion. What of these rows is left later is told by their keys
(`HasRow`), and by the rows themselves in tables without a key (`Remains`).
-/

namespace DeleteCascade

namespace Schema

variable {g : Schema} {t t' u u' : TableName} {c : String} {p r : Row}

/-- **A row of `u` points at a row of `t`** through a column. -/
def Points (g : Schema) (u : TableName) (r : Row) (c : String) (t : TableName) (p : Row) : Prop :=
  g.Link u c t ∧ ∃ k v, g.key? t = some k ∧ r.get? c = some v ∧ p.get? k = some v

instance (g : Schema) (u : TableName) (r : Row) (c : String) (t : TableName) (p : Row) :
    Decidable (g.Points u r c t p) :=
  decidable_of_iff (g.Link u c t ∧ ∃ k ∈ g.key? t, ∃ v ∈ r.get? c, p.get? k = some v)
    (and_congr_right fun _ => ⟨fun ⟨k, hk, v, hr, hp⟩ => ⟨k, v, hk, hr, hp⟩,
      fun ⟨k, v, hk, hr, hp⟩ => ⟨k, hk, v, hr, hp⟩⟩)

/-- A row of `u` and a row of `t` have the same key. -/
def SameKey (g : Schema) (u : TableName) (r : Row) (t : TableName) (p : Row) : Prop :=
  ∃ k l v, g.key? u = some k ∧ g.key? t = some l ∧ r.get? k = some v ∧ p.get? l = some v

end Schema

namespace Store

variable {s s' s'' : Store} {t u : TableName} {k c : String} {v : Int} {test : Row → Bool}

/-! ## The closure of a batch -/

/-- **What belongs to a batch**: the rows of the batch, and along with a
row that belongs to it

* the rows that point at it and are owned by it (`child`);
* the rows of bridges that link to it (`link`), and the rows at their far
  side if they are owned through the bridge (`far`);
* the rows of other tables that it points at and owns (`referenced`); a
  link of a table to itself makes the row that points the part;
* the rows with its key in subtypes and supertypes (`subtype`, `supertype`).

A table is the same in every spelling of its name. -/
inductive Closure (st : Store) (owns : (owned owner : TableName) → (link : String) → Prop)
    (root : TableName) (ids : List Int) : TableName → Row → Prop
  | batch {r : Row} {k : String} {id : Int} (row : r ∈ st.rows root)
      (key : st.schema.key? root = some k) (value : r.get? k = some id) (mem : id ∈ ids) :
      Closure st owns root ids root r
  | spelling {t u : TableName} {r : Row} (belongs : Closure st owns root ids t r)
      (same : t.same u) : Closure st owns root ids u r
  | child {t u : TableName} {r q : Row} {c : String} (belongs : Closure st owns root ids t r)
      (row : q ∈ st.rows u) (points : st.schema.Points u q c t r) (owned : owns u t c) :
      Closure st owns root ids u q
  | link {t : TableName} {r q : Row} {b : Bridge} (belongs : Closure st owns root ids t r)
      (bridge : st.schema.IsBridge t b) (row : q ∈ st.rows b.table)
      (near : st.schema.Points b.table q b.nearColumn t r) : Closure st owns root ids b.table q
  | far {t : TableName} {r q p : Row} {b : Bridge} (belongs : Closure st owns root ids t r)
      (bridge : st.schema.IsBridge t b) (row : q ∈ st.rows b.table)
      (near : st.schema.Points b.table q b.nearColumn t r) (farRow : p ∈ st.rows b.farTable)
      (points : st.schema.Points b.table q b.farColumn b.farTable p)
      (owned : owns b.farTable t b.table.name) : Closure st owns root ids b.farTable p
  | referenced {t u : TableName} {r p : Row} {c k : String}
      (belongs : Closure st owns root ids t r) (key : st.schema.key? t = some k)
      (row : p ∈ st.rows u) (points : st.schema.Points t r c u p) (other : t.same u = false)
      (owned : owns u t c) : Closure st owns root ids u p
  | subtype {t u : TableName} {r q : Row} (belongs : Closure st owns root ids t r)
      (isSubtype : st.schema.IsSubtype u t) (row : q ∈ st.rows u)
      (sameKey : st.schema.SameKey u q t r) : Closure st owns root ids u q
  | supertype {t u : TableName} {r p : Row} (belongs : Closure st owns root ids t r)
      (isSubtype : st.schema.IsSubtype t u) (row : p ∈ st.rows u)
      (sameKey : st.schema.SameKey t r u p) : Closure st owns root ids u p

/-- What belongs to a batch is there. -/
theorem Closure.mem {owns : TableName → TableName → String → Prop} {root : TableName}
    {ids : List Int} {r : Row} (h : s.Closure owns root ids t r) : r ∈ s.rows t := by
  induction h with
  | batch row => exact row
  | spelling _ same ih => rwa [← rows_congr s same]
  | child _ row => exact row
  | link _ _ row => exact row
  | far _ _ _ _ farRow => exact farRow
  | referenced _ _ row => exact row
  | subtype _ _ row => exact row
  | supertype _ _ row => exact row

/-! ## What is left of a store -/

/-- A table has a row with this key. -/
def HasRow (s : Store) (t : TableName) (v : Int) : Prop :=
  ∃ k, s.schema.key? t = some k ∧ ∃ r ∈ s.rows t, r.get? k = some v

/-- **A row is still there**: under its key, or as it is if its table has
none. -/
def Remains (s : Store) (t : TableName) (r : Row) : Prop :=
  match s.schema.key? t with
  | some k => ∃ v, r.get? k = some v ∧ s.HasRow t v
  | none => r ∈ s.rows t

/-- **A store that lost rows and values**: each row was there, with what it
still says. -/
structure Within (s' s : Store) : Prop where
  schema : s'.schema = s.schema
  rows : ∀ t, ∀ r' ∈ s'.rows t, ∃ r ∈ s.rows t, ∀ c, r'.get? c = r.get? c ∨ r'.get? c = none

theorem Within.refl (s : Store) : s.Within s := ⟨rfl, fun _ r hr => ⟨r, hr, fun _ => Or.inl rfl⟩⟩

theorem Within.trans (h : s''.Within s') (h' : s'.Within s) : s''.Within s := by
  refine ⟨h.schema.trans h'.schema, fun t r'' hr'' => ?_⟩
  obtain ⟨r', hr', hvalues'⟩ := h.rows t r'' hr''
  obtain ⟨r, hr, hvalues⟩ := h'.rows t r' hr'
  refine ⟨r, hr, fun c => ?_⟩
  rcases hvalues' c with heq | hnone
  · rw [heq]
    exact hvalues c
  · exact Or.inr hnone

/-- A row of a later store was there, with what it still says. -/
theorem Within.origin (h : s'.Within s) {r' : Row} (hr' : r' ∈ s'.rows t) :
    ∃ r ∈ s.rows t, ∀ c v, r'.get? c = some v → r.get? c = some v := by
  obtain ⟨r, hr, hvalues⟩ := h.rows t r' hr'
  refine ⟨r, hr, fun c v hv => ?_⟩
  rcases hvalues c with heq | hnone
  · rw [← heq, hv]
  · rw [hnone] at hv
    cases hv

theorem within_removeRows (s : Store) (t : TableName) (test : Row → Bool) :
    (s.removeRows t test).Within s := by
  refine ⟨rfl, fun u r' hr' => ⟨r', ?_, fun _ => Or.inl rfl⟩⟩
  rw [rows_removeRows] at hr'
  split at hr'
  · exact (List.mem_filter.1 hr').1
  · exact hr'

theorem within_clearWhere (s : Store) (t : TableName) (c : String) (test : Row → Bool) :
    (s.clearWhere t c test).Within s := by
  refine ⟨rfl, fun u r' hr' => ?_⟩
  rw [rows_clearWhere] at hr'
  split at hr'
  · obtain ⟨r, hr, rfl⟩ := List.mem_map.1 hr'
    refine ⟨r, hr, fun c' => ?_⟩
    split
    · rw [Row.get?_clear]
      split
      · exact Or.inr rfl
      · exact Or.inl rfl
    · exact Or.inl rfl
  · exact ⟨r', hr', fun _ => Or.inl rfl⟩

theorem within_enforce {pending : List Enforcement} (h : s.enforce pending = .ok s') :
    s'.Within s := by
  refine enforce_keeps (P := fun s' => s'.Within s) (Q := fun _ => True) ?_ ?_ s pending
    (fun _ _ => trivial) (.refl s) h
  · intro s₁ e _ _ h₁
    exact ⟨(within_removeRows s₁ _ _).trans h₁, fun _ _ _ => trivial⟩
  · intro s₁ e _ _ _ _ h₁
    exact (within_clearWhere s₁ _ _ _).trans h₁

theorem within_deleteWhere {removed : List Row} (h : s.deleteWhere t test = .ok (removed, s')) :
    s'.Within s :=
  (within_enforce (deleteWhere_eq_ok h).2).trans (within_removeRows s t test)

theorem HasRow.of_within (h : s'.HasRow t v) (hw : s'.Within s) : s.HasRow t v := by
  obtain ⟨k, hk, r', hr', hv⟩ := h
  obtain ⟨r, hr, hvalues⟩ := hw.rows t r' hr'
  refine ⟨k, by rw [← hw.schema, hk], r, hr, ?_⟩
  rcases hvalues k with heq | hnone
  · rw [← heq, hv]
  · rw [hnone] at hv
    cases hv

theorem hasRow_congr (h : t.same u) : s.HasRow t v ↔ s.HasRow u v := by
  simp only [HasRow, Schema.key?_congr h, rows_congr s h]

theorem remains_congr (h : t.same u) (r : Row) : s.Remains t r ↔ s.Remains u r := by
  simp only [Remains, Schema.key?_congr h, rows_congr s h, hasRow_congr h]

theorem remains_iff (hk : s.schema.key? t = some k) {r : Row} (hv : r.get? k = some v) :
    s.Remains t r ↔ s.HasRow t v := by
  simp [Remains, hk, hv]

/-- What a row of an undamaged store refers to is there. -/
theorem NoDangling.hasRow (h : s.NoDangling) (hg : s.schema.Regular) (hlink : s.schema.Link u c t)
    {r : Row} (hr : r ∈ s.rows u) (hv : r.get? c = some v) : s.HasRow t v := by
  obtain ⟨k, hk⟩ := hg.key?_of_link hlink
  obtain ⟨q, hq, hqv⟩ := h.of_link hg hlink hk hr hv
  exact ⟨k, hk, q, hq, hqv⟩

end Store

end DeleteCascade
