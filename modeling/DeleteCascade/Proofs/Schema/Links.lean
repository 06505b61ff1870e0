import DeleteCascade.Schema.Bridge
import DeleteCascade.Schema.Subtype
import Mathlib.Data.List.Pairwise
/-!
# Links — what the foreign keys of a schema say

Names come in several spellings, and a foreign key names its tables and
columns once more. The relations here forget both: `Link` says that a
foreign key leads from a column of one table to another, `IsSubtype` that
the column is the whole key, `IsBridge` that the table it leaves is a
bridge. A `Regular` schema is one whose foreign keys are all single links
to keys, listed where they start; there the references that a body is read
off are exactly the links (`link_of_mem_outgoing`, `exists_mem_outgoing`).
-/

namespace DeleteCascade

/-! ## Spellings -/

namespace TableName

variable {t u w : TableName}

theorem same_symm (h : t.same u) : u.same t := by rwa [same_comm]

theorem same_congr_right (h : t.same u) (w : TableName) : w.same t = w.same u := by
  rw [same_comm w, same_comm w, same_congr_left h]

theorem sameName_of_same (h : t.same u) : sameName t.name u.name := by
  have hkey := TableName.same_iff.1 h
  simp only [TableName.key, Prod.mk.injEq] at hkey
  exact sameName_iff.2 hkey.2

end TableName

theorem sameName_symm {a b : String} (h : sameName a b) : sameName b a := by rwa [sameName_comm]

theorem sameName_congr_left {a b : String} (h : sameName a b) (c : String) :
    sameName a c = sameName b c := by
  simp only [sameName, sameName_iff.1 h]

theorem sameName_congr_right {a b : String} (h : sameName a b) (c : String) :
    sameName c a = sameName c b := by
  rw [sameName_comm c, sameName_comm c, sameName_congr_left h]

theorem Table.column?_congr (d : Table) {a b : String} (h : sameName a b) :
    d.column? a = d.column? b := by
  simp only [column?, Column.isNamed, sameName_congr_right h]

namespace Schema

variable {g : Schema} {t t' u u' w : TableName} {c c' k k' : String} {fk fk' : ForeignKey}

/-! ## Keys and links -/

/-- The key column of a table that is known and has one. -/
def key? (g : Schema) (t : TableName) : Option String := (g.table? t).bind (·.key?)

/-- **A foreign key leads from a column of `u` to `t`.** -/
def Link (g : Schema) (u : TableName) (c : String) (t : TableName) : Prop :=
  ∃ fk ∈ g.foreignKeys, fk.source.same u ∧ fk.target.same t ∧
    ∃ a p, fk.columns? = some (a, p) ∧ sameName a c

/-- The links of a schema, as its foreign keys list them. -/
def links (g : Schema) : List (TableName × String × TableName) :=
  g.foreignKeys.filterMap fun fk => fk.columns?.map fun cols => (fk.source, cols.1, fk.target)

/-- **A foreign key leads from the whole key of `u` to another table.** -/
def IsSubtype (g : Schema) (u t : TableName) : Prop :=
  ∃ k, g.key? u = some k ∧ g.Link u k t ∧ u.same t = false

/-- The bridge `b` is one of those seen from `t`. -/
def IsBridge (g : Schema) (t : TableName) (b : Bridge) : Prop :=
  ∃ fk ∈ g.foreignKeysTo t, ∃ i, g.enter fk = .ok (some i) ∧ i.shape = .bridge b

/-- **A regular schema** lists each table once, and its foreign keys have
one column on either side, are listed under their own source table and
reference the key of their target. -/
structure Regular (g : Schema) : Prop where
  once : g.tables.Pairwise fun t u => t.name.same u.name = false
  singleColumn : ∀ t ∈ g.tables, ∀ fk ∈ t.foreignKeys, fk.isSingleColumn
  atSource : ∀ t ∈ g.tables, ∀ fk ∈ t.foreignKeys, fk.source.same t.name
  toKey : ∀ t ∈ g.tables, ∀ fk ∈ t.foreignKeys, ∀ c p, fk.columns? = some (c, p) →
    ∃ k, g.key? fk.target = some k ∧ sameName k p

/-- No column carries two foreign keys. -/
def OneKeyPerColumn (g : Schema) : Prop :=
  ∀ fk ∈ g.foreignKeys, ∀ fk' ∈ g.foreignKeys, ∀ c p c' p', fk.columns? = some (c, p) →
    fk'.columns? = some (c', p') → fk.source.same fk'.source → sameName c c' → fk = fk'

instance (g : Schema) (u : TableName) (c : String) (t : TableName) : Decidable (g.Link u c t) :=
  decidable_of_iff
    (∃ fk ∈ g.foreignKeys, fk.source.same u ∧ fk.target.same t ∧
      ∃ cols ∈ fk.columns?, sameName cols.1 c)
    ⟨fun ⟨fk, hfk, hsource, htarget, cols, hcols, hc⟩ =>
        ⟨fk, hfk, hsource, htarget, cols.1, cols.2, hcols, hc⟩,
      fun ⟨fk, hfk, hsource, htarget, a, p, hcols, hc⟩ =>
        ⟨fk, hfk, hsource, htarget, (a, p), hcols, hc⟩⟩

instance (g : Schema) : Decidable g.Regular :=
  decidable_of_iff
    ((g.tables.Pairwise fun t u => t.name.same u.name = false) ∧
      (∀ t ∈ g.tables, ∀ fk ∈ t.foreignKeys, fk.isSingleColumn) ∧
      (∀ t ∈ g.tables, ∀ fk ∈ t.foreignKeys, fk.source.same t.name) ∧
      ∀ t ∈ g.tables, ∀ fk ∈ t.foreignKeys, ∀ cols ∈ fk.columns?,
        ∃ k ∈ g.key? fk.target, sameName k cols.2)
    ⟨fun ⟨once, singleColumn, atSource, toKey⟩ => ⟨once, singleColumn, atSource,
        fun t ht fk hfk c p hcols => toKey t ht fk hfk (c, p) hcols⟩,
      fun h => ⟨h.once, h.singleColumn, h.atSource, fun t ht fk hfk cols hcols =>
        h.toKey t ht fk hfk cols.1 cols.2 hcols⟩⟩

instance (g : Schema) : Decidable g.OneKeyPerColumn :=
  decidable_of_iff
    (∀ fk ∈ g.foreignKeys, ∀ fk' ∈ g.foreignKeys, ∀ cols ∈ fk.columns?, ∀ cols' ∈ fk'.columns?,
      fk.source.same fk'.source → sameName cols.1 cols'.1 → fk = fk')
    ⟨fun h fk hfk fk' hfk' c p c' p' hcols hcols' =>
        h fk hfk fk' hfk' (c, p) hcols (c', p') hcols',
      fun h fk hfk fk' hfk' cols hcols cols' hcols' =>
        h fk hfk fk' hfk' cols.1 cols.2 cols'.1 cols'.2 hcols hcols'⟩

theorem key?_congr (h : t.same u) : g.key? t = g.key? u := by
  rw [key?, key?, table?_congr g h]

theorem foreignKeysTo_congr (h : t.same u) : g.foreignKeysTo t = g.foreignKeysTo u := by
  simp only [foreignKeysTo, TableName.same_congr_right h]

/-- A table is found in all its spellings. -/
theorem lookup_congr (h : t.same u) {d : Table} (hd : g.lookup t = .ok d) : g.lookup u = .ok d := by
  rw [lookup_eq_ok] at hd ⊢
  rw [← table?_congr g h, hd]

/-- A table has one list of references in all its spellings. -/
theorem outgoing_congr (h : t.same u) {rs : List Reference} (hrs : g.outgoing t = .ok rs) :
    g.outgoing u = .ok rs := by
  unfold outgoing at hrs ⊢
  cases hd : g.lookup t with
  | error e =>
    rw [hd] at hrs
    cases hrs
  | ok d =>
    rw [hd] at hrs
    rw [lookup_congr h hd]
    exact hrs

theorem mem_foreignKeysTo : fk ∈ g.foreignKeysTo t ↔ fk ∈ g.foreignKeys ∧ fk.target.same t := by
  simp [foreignKeysTo]

theorem mem_foreignKeys : fk ∈ g.foreignKeys ↔ ∃ d ∈ g.tables, fk ∈ d.foreignKeys := by
  simp [foreignKeys]

theorem Link.congr (h : g.Link u c t) (hu : u.same u') (hc : sameName c c') (ht : t.same t') :
    g.Link u' c' t' := by
  obtain ⟨fk, hfk, hsource, htarget, a, p, hcols, ha⟩ := h
  exact ⟨fk, hfk, TableName.same_trans hsource hu, TableName.same_trans htarget ht, a, p, hcols,
    sameName_trans ha hc⟩

theorem IsSubtype.congr (h : g.IsSubtype u t) (hu : u.same u') (ht : t.same t') :
    g.IsSubtype u' t' := by
  obtain ⟨k, hk, hlink, hne⟩ := h
  refine ⟨k, by rw [← key?_congr hu, hk], hlink.congr hu (by simp) ht, ?_⟩
  rw [← TableName.same_congr_left hu, ← TableName.same_congr_right ht, hne]

theorem IsBridge.congr {b : Bridge} (h : g.IsBridge t b) (ht : t.same u) : g.IsBridge u b := by
  obtain ⟨fk, hfk, i, hi, hshape⟩ := h
  exact ⟨fk, foreignKeysTo_congr ht ▸ hfk, i, hi, hshape⟩

theorem link_of_mem_foreignKeys {a p : String} (hfk : fk ∈ g.foreignKeys)
    (hcols : fk.columns? = some (a, p)) : g.Link fk.source a fk.target :=
  ⟨fk, hfk, by simp, by simp, a, p, hcols, by simp⟩

/-- A link is one of those listed, in some spelling. -/
theorem Link.exists_links (h : g.Link u c t) :
    ∃ e ∈ g.links, e.1.same u ∧ sameName e.2.1 c ∧ e.2.2.same t := by
  obtain ⟨fk, hfk, hsource, htarget, a, p, hcols, ha⟩ := h
  exact ⟨(fk.source, a, fk.target), List.mem_filterMap.2 ⟨fk, hfk, by rw [hcols]; rfl⟩, hsource, ha,
    htarget⟩

/-- A table with a key is a table of the schema. -/
theorem isSome_table?_of_key? (h : g.key? t = some k) : (g.table? t).isSome := by
  obtain ⟨d, hd, -⟩ := Option.bind_eq_some_iff.1 h
  rw [hd]
  rfl

/-- Where no foreign key is on the key of its table there are no subtypes. -/
theorem not_isSubtype (h : ∀ fk ∈ g.foreignKeys, ∀ cols ∈ fk.columns?, ∀ k ∈ g.key? fk.source,
    sameName cols.1 k = false) (u t : TableName) : ¬ g.IsSubtype u t := by
  rintro ⟨k, hk, ⟨fk, hfk, hsource, -, a, p, hcols, ha⟩, -⟩
  have hnot := h fk hfk (a, p) hcols k (by rw [key?_congr hsource]; exact hk)
  rw [ha] at hnot
  cases hnot

/-- A table with a key of one column has a key of that column only. -/
theorem primaryKey_of_key? (h : g.key? t = some k) :
    ∃ d, g.table? t = some d ∧ d.primaryKey = [k] := by
  obtain ⟨d, hd, hk⟩ := Option.bind_eq_some_iff.1 h
  refine ⟨d, hd, ?_⟩
  unfold Table.key? at hk
  split at hk
  · cases hk; assumption
  · cases hk

/-- Under one key per column a column leads to one table. -/
theorem Link.target_unique (hone : g.OneKeyPerColumn) (h : g.Link u c t) (h' : g.Link u c w) :
    t.same w := by
  obtain ⟨fk, hfk, hsource, htarget, a, p, hcols, ha⟩ := h
  obtain ⟨fk', hfk', hsource', htarget', a', p', hcols', ha'⟩ := h'
  have heq : fk = fk' := hone fk hfk fk' hfk' a p a' p' hcols hcols'
    (TableName.same_trans hsource (TableName.same_symm hsource'))
    (sameName_trans ha (sameName_symm ha'))
  subst heq
  exact TableName.same_trans (TableName.same_symm htarget) htarget'

/-- A table has one supertype if no column carries two foreign keys. -/
theorem IsSubtype.unique (hone : g.OneKeyPerColumn) (h : g.IsSubtype t u) (h' : g.IsSubtype t w) :
    u.same w := by
  obtain ⟨k, hk, hlink, -⟩ := h
  obtain ⟨l, hl, hlink', -⟩ := h'
  rw [hk] at hl
  cases hl
  exact hlink.target_unique hone hlink'

/-- Looking up the name of a listed table finds that table, if it is listed
once. -/
theorem table?_of_mem_of_once (honce : g.tables.Pairwise fun t u => t.name.same u.name = false)
    {d : Table} (hd : d ∈ g.tables) : g.table? d.name = some d := by
  have hsome : (g.table? d.name).isSome := by
    rw [Schema.table?, List.find?_isSome]
    exact ⟨d, hd, by simp⟩
  obtain ⟨e, he⟩ := Option.isSome_iff_exists.1 hsome
  obtain ⟨hmem, hsame⟩ := mem_of_table? he
  have hsymm : Std.Symm fun a b : Table => a.name.same b.name = false :=
    ⟨fun a b hab => by rwa [TableName.same_comm]⟩
  rcases eq_or_ne e d with rfl | hne
  · exact he
  · have hdiff := honce.forall hmem hd hne
    rw [hsame] at hdiff
    cases hdiff

namespace Regular

theorem table?_of_mem (h : g.Regular) {d : Table} (hd : d ∈ g.tables) :
    g.table? d.name = some d := table?_of_mem_of_once h.once hd

/-- A foreign key is listed by its own source table. -/
theorem table?_source (h : g.Regular) (hfk : fk ∈ g.foreignKeys) :
    ∃ d, g.table? fk.source = some d ∧ fk ∈ d.foreignKeys := by
  obtain ⟨d, hd, hmem⟩ := mem_foreignKeys.1 hfk
  exact ⟨d, by rw [table?_congr g (h.atSource d hd fk hmem), h.table?_of_mem hd], hmem⟩

/-- A foreign key leads from one column to the key of its target. -/
theorem columns? (h : g.Regular) (hfk : fk ∈ g.foreignKeys) :
    ∃ c p k, fk.columns? = some (c, p) ∧ g.key? fk.target = some k ∧ sameName k p := by
  obtain ⟨d, hd, hmem⟩ := mem_foreignKeys.1 hfk
  obtain ⟨⟨c, p⟩, hcols⟩ := Option.isSome_iff_exists.1 (h.singleColumn d hd fk hmem)
  obtain ⟨k, hk, hkp⟩ := h.toKey d hd fk hmem c p hcols
  exact ⟨c, p, k, hcols, hk, hkp⟩

/-- What a link leads to has a key. -/
theorem key?_of_link (h : g.Regular) (hlink : g.Link u c t) : ∃ k, g.key? t = some k := by
  obtain ⟨fk, hfk, -, htarget, -⟩ := hlink
  obtain ⟨-, -, k, -, hk, -⟩ := h.columns? hfk
  exact ⟨k, by rw [← key?_congr htarget, hk]⟩

end Regular

/-! ## References and links -/

section References

variable {r : Reference}

theorem resolve_eq_ok : g.resolve fk = .ok r ↔ ∃ c p d e, fk.columns? = some (c, p) ∧
    g.table? fk.source = some d ∧ g.table? fk.target = some e ∧
    r = ⟨fk.source, c, fk.target, p, d.isNullable c, d.isKey c, fk.onDelete⟩ := by
  unfold resolve
  constructor
  · intro h
    split at h
    · cases h
    · rename_i c p hcols
      split at h
      · cases h
      · cases h
      · rename_i d e hd he
        cases h
        exact ⟨c, p, d, e, hcols, lookup_eq_ok.1 hd, lookup_eq_ok.1 he, rfl⟩
  · rintro ⟨c, p, d, e, hcols, hd, he, rfl⟩
    simp only [hcols, lookup_eq_ok.2 hd, lookup_eq_ok.2 he]

/-- A resolved reference is a link. -/
theorem link_of_resolve (hfk : fk ∈ g.foreignKeys) (h : g.resolve fk = .ok r) :
    g.Link r.child r.childColumn r.parent := by
  obtain ⟨c, p, d, e, hcols, -, -, rfl⟩ := resolve_eq_ok.1 h
  exact link_of_mem_foreignKeys hfk hcols

/-- Its column is the whole key if the key says so. -/
theorem childIsKey_of_resolve (h : g.resolve fk = .ok r) :
    r.childIsKey = true ↔ ∃ k, g.key? r.child = some k ∧ sameName k r.childColumn := by
  obtain ⟨c, p, d, e, -, hd, -, rfl⟩ := resolve_eq_ok.1 h
  simp only [key?, hd, Option.bind_some, Table.isKey]
  cases d.key? <;> simp

/-- A column that is not the key does not tie a row to its supertype. -/
theorem childIsKey_eq_false (h : g.resolve fk = .ok r) (hchild : r.child.same u)
    (hcol : sameName r.childColumn c) (hnot : ∀ k, g.key? u = some k → sameName k c = false) :
    r.childIsKey = false := by
  refine Bool.eq_false_iff.2 fun hkey => ?_
  obtain ⟨k, hk, hsame⟩ := (childIsKey_of_resolve h).1 hkey
  have hfalse := hnot k (by rw [← key?_congr hchild, hk])
  rw [sameName_trans hsame hcol] at hfalse
  cases hfalse

theorem isSubtype_of_resolve (hfk : fk ∈ g.foreignKeys) (h : g.resolve fk = .ok r)
    (hkey : r.childIsKey = true) (hself : r.isSelf = false) : g.IsSubtype r.child r.parent := by
  obtain ⟨k, hk, hsame⟩ := (childIsKey_of_resolve h).1 hkey
  exact ⟨k, hk, (link_of_resolve hfk h).congr (by simp) (sameName_symm hsame) (by simp), hself⟩

/-- Every link of a regular schema resolves. -/
theorem Regular.resolve_ok (h : g.Regular) (hfk : fk ∈ g.foreignKeys) :
    ∃ r, g.resolve fk = .ok r := by
  obtain ⟨c, p, k, hcols, hk, -⟩ := h.columns? hfk
  obtain ⟨d, hd, -⟩ := h.table?_source hfk
  obtain ⟨e, he, -⟩ := primaryKey_of_key? hk
  exact ⟨_, resolve_eq_ok.2 ⟨c, p, d, e, hcols, hd, he, rfl⟩⟩

/-- What mapping a list yields has something for each of its members. -/
theorem exists_mem_of_mapM_ok {ε α β : Type} {f : α → Except ε β} {l : List α} {l' : List β}
    (h : l.mapM f = .ok l') {a : α} (ha : a ∈ l) : ∃ b ∈ l', f a = .ok b := by
  induction l generalizing l' with
  | nil => cases ha
  | cons a' l ih =>
    rw [List.mapM_cons] at h
    cases hb : f a' with
    | error e => simp [hb, bind, Except.bind] at h
    | ok b' =>
      cases hl : l.mapM f with
      | error e => simp [hb, hl, bind, Except.bind] at h
      | ok bs =>
        simp only [hb, hl, bind, Except.bind, pure, Except.pure, Except.ok.injEq] at h
        subst h
        rcases List.mem_cons.1 ha with rfl | ha
        · exact ⟨b', by simp, hb⟩
        · obtain ⟨b, hmem, hfa⟩ := ih hl ha
          exact ⟨b, by simp [hmem], hfa⟩

/-- **What each step of a chain keeps holds in the end.** -/
theorem keeps_of_foldlM_ok {ε α β : Type} {f : β → α → Except ε β} {P : β → Prop} {l : List α}
    (hstep : ∀ a ∈ l, ∀ b b', P b → f b a = .ok b' → P b') {b b' : β} (h : P b)
    (hl : l.foldlM f b = .ok b') : P b' := by
  induction l generalizing b with
  | nil =>
    cases hl
    exact h
  | cons a l ih =>
    rw [List.foldlM_cons] at hl
    cases hfirst : f b a with
    | error e =>
      rw [hfirst] at hl
      cases hl
    | ok b₁ =>
      rw [hfirst] at hl
      exact ih (fun a' ha' => hstep a' (by simp [ha'])) (hstep a (by simp) b b₁ h hfirst) hl

theorem outgoing_eq_ok {rs : List Reference} (h : g.outgoing t = .ok rs) :
    ∃ d, g.table? t = some d ∧ d.foreignKeys.mapM g.resolve = .ok rs := by
  unfold outgoing at h
  split at h
  · cases h
  · rename_i d hd
    exact ⟨d, lookup_eq_ok.1 hd, h⟩

/-- **The references of a table are links that leave it.** -/
theorem Regular.of_mem_outgoing (hg : g.Regular) {rs : List Reference}
    (h : g.outgoing t = .ok rs) (hr : r ∈ rs) :
    ∃ fk ∈ g.foreignKeys, g.resolve fk = .ok r ∧ r.child.same t := by
  obtain ⟨d, hd, hmap⟩ := outgoing_eq_ok h
  obtain ⟨fk, hfk, hres⟩ := exists_of_mapM_ok hmap hr
  obtain ⟨hdmem, hsame⟩ := mem_of_table? hd
  refine ⟨fk, mem_foreignKeys.2 ⟨d, hdmem, hfk⟩, hres, ?_⟩
  obtain ⟨c, p, d', e, -, -, -, rfl⟩ := resolve_eq_ok.1 hres
  exact TableName.same_trans (hg.atSource d hdmem fk hfk) hsame

/-- **And every link that leaves it is among them.** -/
theorem Regular.exists_mem_outgoing (hg : g.Regular) {rs : List Reference}
    (h : g.outgoing t = .ok rs) (hlink : g.Link t c u) :
    ∃ r ∈ rs, r.child.same t ∧ sameName r.childColumn c ∧ r.parent.same u := by
  obtain ⟨d, hd, hmap⟩ := outgoing_eq_ok h
  obtain ⟨fk, hfk, hsource, htarget, a, p, hcols, ha⟩ := hlink
  obtain ⟨d', hd', hmem⟩ := hg.table?_source hfk
  have hdd : d' = d := by
    rw [table?_congr g hsource, hd] at hd'
    exact (Option.some.inj hd').symm
  obtain ⟨r, hr, hres⟩ := exists_mem_of_mapM_ok hmap (hdd ▸ hmem)
  obtain ⟨c', p', d'', e, hcols', -, -, rfl⟩ := resolve_eq_ok.1 hres
  rw [hcols] at hcols'
  cases hcols'
  exact ⟨_, hr, hsource, ha, htarget⟩

/-! ## Supertypes and plain references -/

/-- Filtering by a test that may fail keeps the members that pass. -/
theorem mem_of_filterAuxM_ok {ε α : Type} {f : α → Except ε Bool} {l acc out : List α}
    (h : l.filterAuxM f acc = .ok out) {a : α} :
    a ∈ out ↔ a ∈ acc ∨ (a ∈ l ∧ f a = .ok true) := by
  induction l generalizing acc with
  | nil =>
    simp only [List.filterAuxM, pure, Except.pure, Except.ok.injEq] at h
    simp [← h]
  | cons b l ih =>
    cases hb : f b with
    | error e => simp [List.filterAuxM, hb, bind, Except.bind] at h
    | ok keep =>
      simp only [List.filterAuxM, hb, bind, Except.bind] at h
      rw [ih h]
      cases keep
      · constructor
        · rintro (hacc | ⟨hl, hf⟩)
          · exact Or.inl hacc
          · exact Or.inr ⟨List.mem_cons_of_mem _ hl, hf⟩
        · rintro (hacc | ⟨hl, hf⟩)
          · exact Or.inl hacc
          · rcases List.mem_cons.1 hl with rfl | hl
            · rw [hb] at hf
              cases hf
            · exact Or.inr ⟨hl, hf⟩
      · simp only [cond_true, List.mem_cons]
        constructor
        · rintro ((rfl | hacc) | ⟨hl, hf⟩)
          · exact Or.inr ⟨Or.inl rfl, hb⟩
          · exact Or.inl hacc
          · exact Or.inr ⟨Or.inr hl, hf⟩
        · rintro (hacc | ⟨rfl | hl, hf⟩)
          · exact Or.inl (Or.inr hacc)
          · exact Or.inl (Or.inl rfl)
          · exact Or.inr ⟨hl, hf⟩

theorem mem_filterM_ok {ε α : Type} {f : α → Except ε Bool} {l out : List α}
    (h : l.filterM f = .ok out) {a : α} : a ∈ out ↔ a ∈ l ∧ f a = .ok true := by
  unfold List.filterM at h
  cases haux : l.filterAuxM f [] with
  | error e => simp [haux, bind, Except.bind] at h
  | ok out' =>
    simp only [haux, bind, Except.bind, pure, Except.pure, Except.ok.injEq] at h
    rw [← h, List.mem_reverse, mem_of_filterAuxM_ok haux]
    simp

/-- In a regular schema a reference makes a subtype if its column is the
whole key and it leads to another table. -/
theorem Regular.isSubtypeLink_eq (hg : g.Regular) (hfk : fk ∈ g.foreignKeys)
    (h : g.resolve fk = .ok r) : g.isSubtypeLink r = .ok (r.childIsKey && !r.isSelf) := by
  obtain ⟨c, p, d, e, hcols, -, he, heq⟩ := resolve_eq_ok.1 h
  obtain ⟨c', p', k, hcols', hk, hkp⟩ := hg.columns? hfk
  rw [hcols] at hcols'
  cases hcols'
  have hparent : g.lookup r.parent = .ok e := lookup_eq_ok.2 (by rw [heq, he])
  have hkey : e.isKey r.parentColumn = true := by
    simp only [key?, he, Option.bind_some] at hk
    simp only [heq, Table.isKey, hk, hkp]
  unfold isSubtypeLink
  rw [hparent]
  simp only [Except.map, hkey]
  cases r.childIsKey <;> cases r.isSelf <;> rfl

/-- The first link to a supertype is one. -/
theorem isSubtypeLink_of_firstSubtypeLink {rs : List Reference}
    (h : g.firstSubtypeLink rs = .ok (some r)) : g.isSubtypeLink r = .ok true := by
  induction rs with
  | nil => simp [firstSubtypeLink] at h
  | cons a rest ih =>
    unfold firstSubtypeLink at h
    split at h
    · cases h
    · rename_i ha
      cases h
      exact ha
    · exact ih h

/-- **The supertype of a table is linked to by its key.** -/
theorem Regular.isSubtype_of_parentLink (hg : g.Regular) (h : g.parentLink t = .ok (some r)) :
    g.IsSubtype t r.parent := by
  unfold parentLink at h
  split at h
  · cases h
  · rename_i rs hrs
    obtain ⟨fk, hfk, hres, hchild⟩ := hg.of_mem_outgoing hrs (mem_of_firstSubtypeLink h)
    have hlink := isSubtypeLink_of_firstSubtypeLink h
    rw [hg.isSubtypeLink_eq hfk hres, Except.ok.injEq, Bool.and_eq_true, Bool.not_eq_true'] at hlink
    exact (isSubtype_of_resolve hfk hres hlink.1 hlink.2).congr hchild (by simp)

theorem firstSubtypeLink_none {rs : List Reference} (h : g.firstSubtypeLink rs = .ok none) :
    ∀ r ∈ rs, g.isSubtypeLink r = .ok false := by
  induction rs with
  | nil => simp
  | cons a rest ih =>
    unfold firstSubtypeLink at h
    split at h
    · cases h
    · cases h
    · rename_i ha
      intro r hr
      rcases List.mem_cons.1 hr with rfl | hr
      · exact ha
      · exact ih h r hr

/-- **A table without a supertype is a subtype of none.** -/
theorem Regular.not_isSubtype_of_parentLink (hg : g.Regular) (h : g.parentLink t = .ok none) :
    ¬ g.IsSubtype t u := by
  rintro ⟨k, hk, hlink, hne⟩
  unfold parentLink at h
  split at h
  · cases h
  · rename_i rs hrs
    obtain ⟨r, hr, hchild, hcol, hparent⟩ := hg.exists_mem_outgoing hrs hlink
    obtain ⟨fk, hfk, hres, -⟩ := hg.of_mem_outgoing hrs hr
    have hkey : r.childIsKey = true :=
      (childIsKey_of_resolve hres).2 ⟨k, by rw [key?_congr hchild, hk], sameName_symm hcol⟩
    have hself : r.isSelf = false := by
      rw [Reference.isSelf, TableName.same_congr_left hchild, TableName.same_congr_right hparent, hne]
    have hfalse := firstSubtypeLink_none h r hr
    rw [hg.isSubtypeLink_eq hfk hres, hkey, hself] at hfalse
    cases hfalse

/-- **The plain references of a table** are those to other tables that are
not its supertypes. -/
theorem Regular.mem_referenced (hg : g.Regular) {rs : List Reference}
    (h : g.referenced t = .ok rs) :
    r ∈ rs ↔ ∃ out, g.outgoing t = .ok out ∧ r ∈ out ∧ r.isSelf = false ∧ r.childIsKey = false := by
  unfold referenced at h
  split at h
  · cases h
  · rename_i out hout
    rw [mem_filterM_ok h]
    constructor
    · rintro ⟨hr, hplain⟩
      obtain ⟨fk, hfk, hres, -⟩ := hg.of_mem_outgoing hout hr
      unfold isPlainReference at hplain
      rw [hg.isSubtypeLink_eq hfk hres] at hplain
      refine ⟨out, hout, hr, ?_⟩
      cases hself : r.isSelf <;> cases hkey : r.childIsKey <;>
        simp [hself, hkey, Except.map] at hplain ⊢
    · rintro ⟨out', hout', hr, hself, hkey⟩
      rw [hout] at hout'
      cases hout'
      obtain ⟨fk, hfk, hres, -⟩ := hg.of_mem_outgoing hout hr
      refine ⟨hr, ?_⟩
      unfold isPlainReference
      rw [hg.isSubtypeLink_eq hfk hres, hself, hkey]
      rfl

/-! ## References that enter a table -/

theorem incoming_eq_ok {is : List Incoming} (h : g.incoming t = .ok is) :
    ∃ found, (g.foreignKeysTo t).mapM g.enter = .ok found ∧ is = found.filterMap id := by
  unfold incoming at h
  split at h
  · cases h
  · cases hmap : (g.foreignKeysTo t).mapM g.enter with
    | error e =>
      rw [hmap] at h
      cases h
    | ok found =>
      rw [hmap] at h
      cases h
      exact ⟨found, rfl, rfl⟩

theorem of_mem_incoming {is : List Incoming} (h : g.incoming t = .ok is) {i : Incoming}
    (hi : i ∈ is) : ∃ fk ∈ g.foreignKeysTo t, g.enter fk = .ok (some i) := by
  obtain ⟨found, hmap, rfl⟩ := incoming_eq_ok h
  obtain ⟨o, ho, hoi⟩ := List.mem_filterMap.1 hi
  cases hoi
  exact exists_of_mapM_ok hmap ho

theorem mem_incoming {is : List Incoming} (h : g.incoming t = .ok is) {i : Incoming}
    (hfk : fk ∈ g.foreignKeysTo t) (henter : g.enter fk = .ok (some i)) : i ∈ is := by
  obtain ⟨found, hmap, rfl⟩ := incoming_eq_ok h
  obtain ⟨o, ho, hoi⟩ := exists_mem_of_mapM_ok hmap hfk
  rw [henter] at hoi
  cases hoi
  exact List.mem_filterMap.2 ⟨_, ho, rfl⟩

theorem enter_eq_ok_some {i : Incoming} (h : g.enter fk = .ok (some i)) :
    g.resolve fk = .ok i.reference ∧ i.reference.isSelf = false ∧
      g.shapeOf i.reference = .ok i.shape := by
  unfold enter at h
  split at h
  · cases h
  · rename_i r hr
    split at h
    · cases h
    · rename_i hself
      cases hshape : g.shapeOf r with
      | error e =>
        rw [hshape] at h
        cases h
      | ok s =>
        rw [hshape] at h
        cases h
        exact ⟨hr, by simpa using hself, hshape⟩

/-- A foreign key of another table enters, if it could be read. -/
theorem exists_of_enter {o : Option Incoming} (h : g.enter fk = .ok o)
    (hother : fk.source.same fk.target = false) : ∃ i, o = some i := by
  cases hres : g.resolve fk with
  | error e =>
    rw [enter, hres] at h
    cases h
  | ok r =>
    obtain ⟨a, p, d, e, -, -, -, heq⟩ := resolve_eq_ok.1 hres
    have hself : r.isSelf = false := by
      rw [heq]
      exact hother
    cases hshape : g.shapeOf r with
    | error e =>
      simp only [enter, hres, hself, hshape] at h
      cases h
    | ok shape =>
      simp only [enter, hres, hself, hshape] at h
      exact ⟨_, (Except.ok.inj h).symm⟩

/-- **Every link from another table enters.** -/
theorem Regular.exists_enter (hg : g.Regular) {is : List Incoming} (h : g.incoming t = .ok is)
    (hlink : g.Link u c t) (hne : u.same t = false) :
    ∃ fk ∈ g.foreignKeysTo t, ∃ i, g.enter fk = .ok (some i) ∧ i.reference.child.same u ∧
      sameName i.reference.childColumn c ∧ i.reference.parent.same t := by
  obtain ⟨fk, hfk, hsource, htarget, a, p, hcols, ha⟩ := hlink
  have hto : fk ∈ g.foreignKeysTo t := mem_foreignKeysTo.2 ⟨hfk, htarget⟩
  obtain ⟨r, hres⟩ := hg.resolve_ok hfk
  obtain ⟨c', p', d, e, hcols', -, -, heq⟩ := resolve_eq_ok.1 hres
  rw [hcols] at hcols'
  cases hcols'
  have hself : r.isSelf = false := by
    rw [heq]
    show fk.source.same fk.target = false
    rw [TableName.same_congr_left hsource, TableName.same_congr_right htarget, hne]
  obtain ⟨found, hmap, -⟩ := incoming_eq_ok h
  obtain ⟨entered, -, henter⟩ := exists_mem_of_mapM_ok hmap hto
  cases hshape : g.shapeOf r with
  | error e =>
    simp only [enter, hres, hself, hshape] at henter
    cases henter
  | ok shape =>
    have hok : g.enter fk = .ok (some ⟨r, shape⟩) := by
      simp only [enter, hres, hself, hshape]
      rfl
    exact ⟨fk, hto, _, hok, by rw [heq]; exact hsource, by rw [heq]; exact ha,
      by rw [heq]; exact htarget⟩

end References

end Schema

end DeleteCascade
