import DeleteCascade.Proofs.Schema.Descent
/-!
# Links — hierarchies of tables

In a hierarchy no table has two supertypes, none is below itself, and each
class is listed by one table. So what is above a table lies in a line
(`Hierarchy.linear`), and a table that is below another is at or below just
one of its subtypes (`Hierarchy.same_of_atOrBelow`): a class map gives a
subtype exactly the classes that are listed at or below it
(`Hierarchy.mem_classesOf`). Most schemas can be seen to be hierarchies by the
order of their tables (`Hierarchy.of_topDown`).
-/

namespace DeleteCascade

namespace Schema

variable {g : Schema} {t t' u u' v w x root : TableName} {c : Int} {m : ClassMap}

/-! ## At or below a table -/

theorem transGen_congr (h : Relation.TransGen g.IsSubtype u t) (hu : u.same u') (ht : t.same t') :
    Relation.TransGen g.IsSubtype u' t' := by
  induction h generalizing t' with
  | single hsub => exact .single (hsub.congr hu ht)
  | tail _ hsub ih =>
    exact (ih (TableName.same_refl _)).tail (hsub.congr (TableName.same_refl _) ht)

/-- **A table is at or below another**: the same, or below it from subtype to
supertype. -/
def AtOrBelow (g : Schema) (u t : TableName) : Prop :=
  u.same t ∨ Relation.TransGen g.IsSubtype u t

namespace AtOrBelow

theorem refl (t : TableName) : g.AtOrBelow t t := Or.inl (TableName.same_refl t)

theorem congr (h : g.AtOrBelow u t) (hu : u.same u') (ht : t.same t') : g.AtOrBelow u' t' :=
  h.imp (fun hsame => TableName.same_trans (TableName.same_symm hu) (TableName.same_trans hsame ht))
    fun hbelow => transGen_congr hbelow hu ht

theorem trans (h : g.AtOrBelow u t) (h' : g.AtOrBelow t w) : g.AtOrBelow u w := by
  rcases h with hsame | hbelow
  · exact h'.congr (TableName.same_symm hsame) (TableName.same_refl w)
  · rcases h' with hsame | hbelow'
    · exact Or.inr (transGen_congr hbelow (TableName.same_refl u) hsame)
    · exact Or.inr (hbelow.trans hbelow')

/-- What is at or below a subtype is below its supertype. -/
theorem below (h : g.AtOrBelow w u) (hsub : g.IsSubtype u t) :
    Relation.TransGen g.IsSubtype w t := by
  rcases h with hsame | hbelow
  · exact .single (hsub.congr (TableName.same_symm hsame) (TableName.same_refl t))
  · exact hbelow.tail hsub

end AtOrBelow

/-- What is above a table is at or above one of its supertypes. -/
theorem exists_supertype_of_below (h : Relation.TransGen g.IsSubtype w t) :
    ∃ u, g.IsSubtype w u ∧ g.AtOrBelow u t := by
  obtain ⟨u, hsub, habove⟩ := Relation.TransGen.head'_iff.1 h
  refine ⟨u, hsub, ?_⟩
  rcases Relation.reflTransGen_iff_eq_or_transGen.1 habove with rfl | habove
  · exact .refl t
  · exact Or.inr habove

/-- **The top of a table**: at or above it, and below nothing. -/
def IsTop (g : Schema) (root t : TableName) : Prop :=
  g.AtOrBelow t root ∧ ∀ u, ¬ g.IsSubtype root u

/-! ## Hierarchies -/

/-- **A hierarchy**: links from key to another table reference its key, no table
has two supertypes or is below itself, and each class is listed by one table. -/
structure Hierarchy (g : Schema) : Prop where
  toKey : g.KeyToKey
  single : ∀ t u w, g.IsSubtype t u → g.IsSubtype t w → u.same w
  acyclic : ∀ t, ¬ Relation.TransGen g.IsSubtype t t
  classes : ∀ t u c, g.Stores t c → g.Stores u c → t.same u

namespace Hierarchy

variable (hg : g.Hierarchy)

include hg

/-- The direct subtypes are the subtypes. -/
theorem directSubtype_iff : g.DirectSubtype u t ↔ g.IsSubtype u t := by
  constructor
  · rintro ⟨fk, hfk, r, hres, hlink, hsame⟩
    obtain ⟨hmem, htarget⟩ := mem_foreignKeysTo.1 hfk
    obtain ⟨hkey, hself⟩ := of_isSubtypeLink hlink
    refine (isSubtype_of_resolve hmem hres hkey hself).congr hsame ?_
    obtain ⟨a, p, d, e, -, -, -, rfl⟩ := resolve_eq_ok.1 hres
    exact htarget
  · intro h
    obtain ⟨fk, hfk, hlink, hsource, htarget⟩ := h.exists_keyLink
    obtain ⟨r, hres, hsub, hchild, -⟩ := hg.toKey.exists_resolve hfk hlink
    exact ⟨fk, mem_foreignKeysTo.2 ⟨hfk, htarget⟩, r, hres, hsub, hchild ▸ hsource⟩

/-- A supertype is not at or below its subtype. -/
theorem not_atOrBelow (hsub : g.IsSubtype u t) : ¬ g.AtOrBelow t u :=
  fun h => hg.acyclic t (h.below hsub)

/-- What is above a table is at or above its supertype. -/
theorem atOrBelow_of_isSubtype (hsub : g.IsSubtype w u) (h : Relation.TransGen g.IsSubtype w t) :
    g.AtOrBelow u t := by
  obtain ⟨v, hsub', habove⟩ := exists_supertype_of_below h
  exact habove.congr (hg.single w v u hsub' hsub) (TableName.same_refl t)

/-- **What is above a table lies in a line.** -/
theorem linear (hu : g.AtOrBelow w u) (hv : g.AtOrBelow w v) :
    g.AtOrBelow u v ∨ g.AtOrBelow v u := by
  rcases hu with hsame | hbelow
  · exact Or.inl (hv.congr hsame (TableName.same_refl v))
  · induction hbelow using Relation.TransGen.head_induction_on with
    | single hsub =>
      rcases hv with hsame | hv
      · exact Or.inr (Or.inr (.single (hsub.congr hsame (TableName.same_refl u))))
      · exact Or.inl (hg.atOrBelow_of_isSubtype hsub hv)
    | head hsub habove ih =>
      rcases hv with hsame | hv
      · exact Or.inr (Or.inr (transGen_congr (.head hsub habove) hsame (TableName.same_refl u)))
      · exact ih (hg.atOrBelow_of_isSubtype hsub hv)

/-- **A table is at or below one subtype of a table only.** -/
theorem same_of_atOrBelow (hu : g.IsSubtype u t) (hv : g.IsSubtype v t) (hwu : g.AtOrBelow w u)
    (hwv : g.AtOrBelow w v) : u.same v := by
  have hnot {u v : TableName} (hu : g.IsSubtype u t) (hv : g.IsSubtype v t) :
      ¬ Relation.TransGen g.IsSubtype u v :=
    fun hbelow => hg.not_atOrBelow hv (hg.atOrBelow_of_isSubtype hu hbelow)
  rcases hg.linear hwu hwv with (hsame | hbelow) | (hsame | hbelow)
  · exact hsame
  · exact absurd hbelow (hnot hu hv)
  · exact TableName.same_symm hsame
  · exact absurd hbelow (hnot hv hu)

/-- **A table has one top.** -/
theorem isTop_unique (h : g.IsTop root t) {root' : TableName} (h' : g.IsTop root' t) :
    root.same root' := by
  have hstop {a b : TableName} (hab : g.AtOrBelow a b) (htop : ∀ u, ¬ g.IsSubtype a u) : a.same b :=
    hab.resolve_right fun hbelow => by
      obtain ⟨u, hsub, -⟩ := exists_supertype_of_below hbelow
      exact htop u hsub
  rcases hg.linear h.1 h'.1 with hab | hab
  · exact hstop hab h.2
  · exact TableName.same_symm (hstop hab h'.2)

/-! ## Classes -/

/-- Past a table that is not below it, one can descend from a table to all that
is below. -/
theorem descends_of_atOrBelow (h : g.AtOrBelow w u) (hnot : ¬ g.AtOrBelow t u) :
    g.Descends [t] u w := by
  have hnew {u : TableName} (hnot : ¬ g.AtOrBelow t u) : u.isIn [t] = false := by
    refine Bool.eq_false_iff.2 fun hin => hnot ?_
    obtain ⟨v, hv, hsame⟩ := TableName.isIn_iff.1 hin
    obtain rfl := List.mem_singleton.1 hv
    exact Or.inl (TableName.same_symm hsame)
  rcases h with hsame | hbelow
  · exact .here (hnew hnot) (TableName.same_symm hsame)
  · induction hbelow with
    | single hsub =>
      have hbelow : ¬ g.AtOrBelow t w := fun h => hnot (Or.inr (h.below hsub))
      exact .step (hnew hnot) (hg.directSubtype_iff.2 hsub)
        (.here (hnew hbelow) (TableName.same_refl w))
    | tail _ hsub ih =>
      exact .step (hnew hnot) (hg.directSubtype_iff.2 hsub)
        (ih fun h => hnot (Or.inr (h.below hsub)))

theorem atOrBelow_of_descends {avoid : List TableName} (h : g.Descends avoid u w) :
    g.AtOrBelow w u := by
  induction h with
  | here new same => exact Or.inl (TableName.same_symm same)
  | step new below rest ih => exact Or.inr (ih.below (hg.directSubtype_iff.1 below))

/-- A class is found under a subtype if it is listed at or below it. -/
theorem foundUnder_iff (hsub : g.IsSubtype u t) :
    g.FoundUnder t u c ↔ ∃ w, g.AtOrBelow w u ∧ g.Stores w c := by
  refine exists_congr fun w => and_congr_left fun _ => ⟨hg.atOrBelow_of_descends, fun h => ?_⟩
  exact hg.descends_of_atOrBelow h (hg.not_atOrBelow hsub)

/-- **A class map gives a subtype exactly the classes that are listed at or
below it.** -/
theorem mem_classesOf (h : g.classMap t = .ok m) (hsub : g.IsSubtype u t) :
    c ∈ m.classesOf u ↔ ∃ w, g.AtOrBelow w u ∧ g.Stores w c := by
  obtain ⟨hheld, hfound⟩ := exists_mem_classMap h
  constructor
  · intro hc
    obtain ⟨v, hv, hsame⟩ := ClassMap.mem_classesOf.1 hc
    exact (hg.foundUnder_iff hsub).1 ((hheld _ hv).2.congr hsame)
  · rintro ⟨w, hw, hc⟩
    obtain ⟨v, hv⟩ := hfound u (hg.directSubtype_iff.2 hsub) c
      ((hg.foundUnder_iff hsub).2 ⟨w, hw, hc⟩)
    obtain ⟨hdirect, hunder⟩ := hheld _ hv
    have hsub' := hg.directSubtype_iff.1 hdirect
    obtain ⟨w', hw', hc'⟩ := (hg.foundUnder_iff hsub').1 hunder
    have hsame := hg.classes w' w c hc' hc
    exact ClassMap.mem_classesOf.2 ⟨v, hv,
      hg.same_of_atOrBelow hsub' hsub (hw'.congr hsame (TableName.same_refl v)) hw⟩

end Hierarchy

/-! ## Listed hierarchies -/

instance (g : Schema) (u t : TableName) : Decidable (g.IsSubtype u t) :=
  decidable_of_iff (∃ k ∈ g.key? u, g.Link u k t ∧ u.same t = false) Iff.rfl

/-- How far down the schema lists a table. -/
def position (g : Schema) (t : TableName) : Nat := g.tables.findIdx (·.name.same t)

theorem position_congr (h : t.same u) : g.position t = g.position u := by
  unfold position
  simp only [TableName.same_congr_right h]

/-- A subtype is listed further down. -/
theorem IsSubtype.position_lt (hdown : ∀ fk ∈ g.foreignKeys, fk.source.same fk.target = false →
    g.position fk.target < g.position fk.source) (h : g.IsSubtype u t) :
    g.position t < g.position u := by
  obtain ⟨fk, hfk, ⟨hother, -⟩, hsource, htarget⟩ := h.exists_keyLink
  rw [← position_congr hsource, ← position_congr htarget]
  exact hdown fk hfk hother

/-- **A schema that lists its tables from the top down is a hierarchy**, if each
foreign key references a key, no column carries two, and no two tables list the
same class. -/
theorem Hierarchy.of_topDown
    (hkeys : ∀ fk ∈ g.foreignKeys, ∀ cols ∈ fk.columns?, ∃ l ∈ g.key? fk.target, sameName l cols.2)
    (hone : g.OneKeyPerColumn)
    (hdown : ∀ fk ∈ g.foreignKeys, fk.source.same fk.target = false →
      g.position fk.target < g.position fk.source)
    (hclasses : ∀ d ∈ g.tables, ∀ e ∈ g.tables, ∀ c ∈ d.classes, c ∈ e.classes →
      d.name.same e.name) : g.Hierarchy where
  toKey fk hfk a p k hcols _ _ _ := hkeys fk hfk (a, p) hcols
  single t u w hu hw := hu.unique hone hw
  acyclic t h := by
    have hless {u t : TableName} (h : Relation.TransGen g.IsSubtype u t) :
        g.position t < g.position u := by
      induction h with
      | single hsub => exact hsub.position_lt hdown
      | tail _ hsub ih => exact Nat.lt_trans (hsub.position_lt hdown) ih
    exact Nat.lt_irrefl _ (hless h)
  classes t u c ht hu := by
    obtain ⟨d, hd, hc⟩ := ht
    obtain ⟨e, he, hc'⟩ := hu
    obtain ⟨hdmem, hdsame⟩ := mem_of_table? hd
    obtain ⟨hemem, hesame⟩ := mem_of_table? he
    have hsame := hclasses d hdmem e hemem c hc hc'
    exact TableName.same_trans (TableName.same_symm hdsame) (TableName.same_trans hsame hesame)

end Schema

end DeleteCascade
