import DeleteCascade.Proofs.Schema.Classes
/-!
# Links — single inheritance

The subtypes of a table are found among the references that enter it, and
its supertype among those that leave it. The first search finds every
subtype in any schema (`isSubtype_iff_isIn_keyChildren`). The second one
stops at the first supertype and asks more of the link, so the two agree
only where a table has one supertype, linked to key by key, by a foreign key
that is listed with the table (`OwnLinks.isSubtype_iff`,
`SingleInheritance.isSubtype_iff`).
-/

namespace DeleteCascade

namespace Schema

variable {g : Schema} {t u : TableName} {c : String} {r : Reference} {is : List Incoming}

/-- **A link from another table enters**, if all that enters the table
resolves. -/
theorem exists_mem_incoming (h : g.incoming t = .ok is) (hlink : g.Link u c t)
    (hne : u.same t = false) : ∃ i ∈ is, ∃ fk, g.resolve fk = .ok i.reference ∧
      i.reference.child.same u ∧ sameName i.reference.childColumn c := by
  obtain ⟨fk, hfk, hsource, htarget, a, p, hcols, ha⟩ := hlink
  obtain ⟨found, hmap, rfl⟩ := incoming_eq_ok h
  obtain ⟨entered, hentered, henter⟩ :=
    exists_mem_of_mapM_ok hmap (mem_foreignKeysTo.2 ⟨hfk, htarget⟩)
  cases hres : g.resolve fk with
  | error e =>
    rw [enter, hres] at henter
    cases henter
  | ok r =>
    obtain ⟨c', p', d, e, hcols', -, -, rfl⟩ := resolve_eq_ok.1 hres
    rw [hcols] at hcols'
    cases hcols'
    have hself : Reference.isSelf
        ⟨fk.source, a, fk.target, p, d.isNullable a, d.isKey a, fk.onDelete⟩ = false := by
      rw [Reference.isSelf, TableName.same_congr_left hsource, TableName.same_congr_right htarget,
        hne]
    rw [enter, hres] at henter
    simp only [hself, Bool.false_eq_true, if_false] at henter
    cases hshape : g.shapeOf
        ⟨fk.source, a, fk.target, p, d.isNullable a, d.isKey a, fk.onDelete⟩ with
    | error e =>
      rw [hshape] at henter
      cases henter
    | ok shape =>
      rw [hshape] at henter
      cases henter
      exact ⟨_, List.mem_filterMap.2 ⟨_, hentered, rfl⟩, fk, hres, hsource, ha⟩

/-- **A schema with single inheritance**: each table is listed once, with its
own foreign keys, a key that references another table references its key, and
no table has two supertypes. -/
structure SingleInheritance (g : Schema) : Prop where
  once : g.tables.Pairwise fun t u => t.name.same u.name = false
  atSource : ∀ t ∈ g.tables, ∀ fk ∈ t.foreignKeys, fk.source.same t.name
  toKey : ∀ fk ∈ g.foreignKeys, ∀ a p k, fk.columns? = some (a, p) → g.key? fk.source = some k →
    sameName k a → fk.source.same fk.target = false → ∃ l, g.key? fk.target = some l ∧ sameName l p
  single : ∀ t u w, g.IsSubtype t u → g.IsSubtype t w → u.same w

/-- A regular schema has single inheritance if no column carries two foreign
keys. -/
theorem Regular.singleInheritance (hg : g.Regular) (hone : g.OneKeyPerColumn) :
    g.SingleInheritance where
  once := hg.once
  atSource := hg.atSource
  toKey fk hfk a p k hcols hk ha hother := by
    obtain ⟨d, hd, hmem⟩ := mem_foreignKeys.1 hfk
    exact hg.toKey d hd fk hmem a p hcols
  single _ _ _ hu hw := hu.unique hone hw

/-- A link to a supertype is held by the whole key. -/
theorem of_isSubtypeLink (h : g.isSubtypeLink r = .ok true) :
    r.childIsKey = true ∧ r.isSelf = false := by
  unfold isSubtypeLink at h
  split at h
  · cases h
  · rename_i hkey
    simpa using hkey

/-- **A key link** leads from the whole key of its table to another table. -/
def IsKeyLink (g : Schema) (fk : ForeignKey) : Prop :=
  fk.source.same fk.target = false ∧
    ∃ a p k, fk.columns? = some (a, p) ∧ g.key? fk.source = some k ∧ sameName k a

/-- **Key links are listed with their own table**, and with no other. -/
structure OwnLinks (g : Schema) : Prop where
  listed : ∀ fk ∈ g.foreignKeys, g.IsKeyLink fk → ∃ d, g.table? fk.source = some d ∧
    fk ∈ d.foreignKeys
  own : ∀ t d, g.table? t = some d → ∀ fk ∈ d.foreignKeys, g.IsKeyLink fk → fk.source.same t

/-- **Key links reference keys.** -/
def KeyToKey (g : Schema) : Prop :=
  ∀ fk ∈ g.foreignKeys, ∀ a p k, fk.columns? = some (a, p) → g.key? fk.source = some k →
    sameName k a → fk.source.same fk.target = false → ∃ l, g.key? fk.target = some l ∧ sameName l p

/-- What is resolved to a link to a supertype is a key link. -/
theorem isKeyLink_of_resolve {fk : ForeignKey} (hres : g.resolve fk = .ok r)
    (hkey : r.childIsKey = true) (hself : r.isSelf = false) : g.IsKeyLink fk := by
  obtain ⟨k, hk, hsame⟩ := (childIsKey_of_resolve hres).1 hkey
  obtain ⟨a, p, d, e, hcols, -, -, rfl⟩ := resolve_eq_ok.1 hres
  exact ⟨hself, a, p, k, hcols, hk, hsame⟩

/-- **A key link to a key resolves** to a link to a supertype. -/
theorem KeyToKey.exists_resolve (hg : g.KeyToKey) {fk : ForeignKey} (hfk : fk ∈ g.foreignKeys)
    (hlink : g.IsKeyLink fk) : ∃ r, g.resolve fk = .ok r ∧ g.isSubtypeLink r = .ok true ∧
      r.child = fk.source ∧ r.parent = fk.target := by
  obtain ⟨hother, a, p, k, hcols, hk, ha⟩ := hlink
  obtain ⟨l, hl, hlp⟩ := hg fk hfk a p k hcols hk ha hother
  obtain ⟨d, hd, hdk⟩ := Option.bind_eq_some_iff.1 hk
  obtain ⟨e, he, hel⟩ := Option.bind_eq_some_iff.1 hl
  have hkey : d.isKey a = true := by simp only [Table.isKey, hdk, ha]
  have hparent : e.isKey p = true := by simp only [Table.isKey, hel, hlp]
  have hself : Reference.isSelf
      ⟨fk.source, a, fk.target, p, d.isNullable a, d.isKey a, fk.onDelete⟩ = false := hother
  refine ⟨_, resolve_eq_ok.2 ⟨a, p, d, e, hcols, hd, he, rfl⟩, ?_, rfl, rfl⟩
  unfold isSubtypeLink
  rw [hself, hkey, lookup_eq_ok.2 he]
  simp only [Bool.not_true, Bool.or_self, Bool.false_eq_true, if_false, Except.map, hparent]

/-- A subtype holds a key link. -/
theorem IsSubtype.exists_keyLink (h : g.IsSubtype u t) :
    ∃ fk ∈ g.foreignKeys, g.IsKeyLink fk ∧ fk.source.same u ∧ fk.target.same t := by
  obtain ⟨k, hk, ⟨fk, hfk, hsource, htarget, a, p, hcols, ha⟩, hne⟩ := h
  refine ⟨fk, hfk, ⟨?_, a, p, k, hcols, ?_, sameName_symm ha⟩, hsource, htarget⟩
  · rw [TableName.same_congr_left hsource, TableName.same_congr_right htarget, hne]
  · rw [key?_congr hsource, hk]

namespace OwnLinks

variable (hg : g.OwnLinks)

include hg

/-- **The link to the supertype is a link from key to key.** -/
theorem isSubtype_of_mem_outgoing {rs : List Reference} (hrs : g.outgoing t = .ok rs) (hr : r ∈ rs)
    (hlink : g.isSubtypeLink r = .ok true) : g.IsSubtype t r.parent := by
  obtain ⟨d, hd, hmap⟩ := outgoing_eq_ok hrs
  obtain ⟨fk, hfk, hres⟩ := exists_of_mapM_ok hmap hr
  obtain ⟨hkey, hself⟩ := of_isSubtypeLink hlink
  have hmem := mem_foreignKeys.2 ⟨d, (mem_of_table? hd).1, hfk⟩
  refine (isSubtype_of_resolve hmem hres hkey hself).congr ?_ (TableName.same_refl _)
  have hown := hg.own t d hd fk hfk (isKeyLink_of_resolve hres hkey hself)
  obtain ⟨c, p, d', e, -, -, -, rfl⟩ := resolve_eq_ok.1 hres
  exact hown

/-- **Every link from key to key is found** among the references that leave
the table. -/
theorem exists_isSubtypeLink (hkeys : g.KeyToKey) {rs : List Reference}
    (hrs : g.outgoing t = .ok rs) (h : g.IsSubtype t u) :
    ∃ r ∈ rs, g.isSubtypeLink r = .ok true := by
  obtain ⟨fk, hfk, hlink, hsource, -⟩ := h.exists_keyLink
  obtain ⟨d, hd, hmap⟩ := outgoing_eq_ok hrs
  obtain ⟨d', hd', hmem⟩ := hg.listed fk hfk hlink
  rw [table?_congr g hsource, hd] at hd'
  cases hd'
  obtain ⟨r, hr, hres⟩ := exists_mem_of_mapM_ok hmap hmem
  obtain ⟨r', hres', hsub, -⟩ := hkeys.exists_resolve hfk hlink
  rw [hres] at hres'
  cases hres'
  exact ⟨r, hr, hsub⟩

/-- **The supertype of a table is the one that is linked to**, where a table has
one supertype. -/
theorem isSubtype_iff (hkeys : g.KeyToKey)
    (hsingle : ∀ t u w, g.IsSubtype t u → g.IsSubtype t w → u.same w) {link : Option Reference}
    (h : g.parentLink t = .ok link) : g.IsSubtype t u ↔ ∃ r, link = some r ∧ r.parent.same u := by
  unfold parentLink at h
  split at h
  · cases h
  · rename_i rs hrs
    constructor
    · intro hsub
      obtain ⟨r, hr, hlink⟩ := hg.exists_isSubtypeLink hkeys hrs hsub
      cases link with
      | none =>
        rw [firstSubtypeLink_none h r hr] at hlink
        cases hlink
      | some r' =>
        have hsub' := hg.isSubtype_of_mem_outgoing hrs (mem_of_firstSubtypeLink h)
          (isSubtypeLink_of_firstSubtypeLink h)
        exact ⟨r', rfl, hsingle _ _ _ hsub' hsub⟩
    · rintro ⟨r, rfl, hsame⟩
      exact (hg.isSubtype_of_mem_outgoing hrs (mem_of_firstSubtypeLink h)
        (isSubtypeLink_of_firstSubtypeLink h)).congr (TableName.same_refl _) hsame

end OwnLinks

namespace SingleInheritance

theorem ownLinks (hg : g.SingleInheritance) : g.OwnLinks where
  listed fk hfk _ := by
    obtain ⟨d, hd, hmem⟩ := mem_foreignKeys.1 hfk
    refine ⟨d, ?_, hmem⟩
    rw [table?_congr g (hg.atSource d hd fk hmem), table?_of_mem_of_once hg.once hd]
  own t d hd fk hfk _ := by
    obtain ⟨hdmem, hsame⟩ := mem_of_table? hd
    exact TableName.same_trans (hg.atSource d hdmem fk hfk) hsame

/-- **The supertype of a table is the one that is linked to.** -/
theorem isSubtype_iff (hg : g.SingleInheritance) {link : Option Reference}
    (h : g.parentLink t = .ok link) : g.IsSubtype t u ↔ ∃ r, link = some r ∧ r.parent.same u :=
  hg.ownLinks.isSubtype_iff hg.toKey hg.single h

end SingleInheritance

/-- A table has one supertype link in all its spellings. -/
theorem parentLink_congr {link : Option Reference} (h : t.same u) (hl : g.parentLink t = .ok link) :
    g.parentLink u = .ok link := by
  unfold parentLink at hl ⊢
  cases hout : g.outgoing t with
  | error e =>
    rw [hout] at hl
    cases hl
  | ok out =>
    rw [hout] at hl
    rw [outgoing_congr h hout]
    exact hl

end Schema

end DeleteCascade
