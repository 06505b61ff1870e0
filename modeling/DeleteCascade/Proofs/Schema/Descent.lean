import DeleteCascade.Proofs.Schema.Inheritance
/-!
# Links — classes at and below a table

The classes below a table are collected by a walk down the subtypes that leaves
out what it has seen. On any schema it finds the classes of just the tables
that it can descend to past those left out at the start
(`mem_classesBelow_iff`): nothing is lost by leaving out what was seen, since
whatever is below that is pending. A class map gives each class that is found
to one of the direct subtypes under which it is found (`exists_mem_classMap`).
-/

namespace DeleteCascade

namespace Schema

variable {g : Schema} {t u v w : TableName} {c : Int} {m m' : ClassMap}
variable {pending visited found' : List TableName} {found out : List Int}

/-- **A table lists a class.** -/
def Stores (g : Schema) (t : TableName) (c : Int) : Prop :=
  ∃ d, g.table? t = some d ∧ c ∈ d.classes

theorem Stores.congr (h : g.Stores t c) (ht : t.same u) : g.Stores u c := by
  obtain ⟨d, hd, hc⟩ := h
  exact ⟨d, by rw [← table?_congr g ht, hd], hc⟩

/-- **A table is a direct subtype of another**: a foreign key leads from its key
to the key of that table. -/
def DirectSubtype (g : Schema) (u t : TableName) : Prop :=
  ∃ fk ∈ g.foreignKeysTo t, ∃ r, g.resolve fk = .ok r ∧ g.isSubtypeLink r = .ok true ∧
    r.child.same u

theorem DirectSubtype.congr (h : g.DirectSubtype u t) (hu : u.same v) (ht : t.same w) :
    g.DirectSubtype v w := by
  obtain ⟨fk, hfk, r, hres, hlink, hsame⟩ := h
  exact ⟨fk, foreignKeysTo_congr ht ▸ hfk, r, hres, hlink, TableName.same_trans hsame hu⟩

/-- A subtype that is added is there, and nothing else is. -/
theorem addSubtype_eq_ok {fk : ForeignKey} {found found' : List TableName}
    (h : g.addSubtype found fk = .ok found') : u.isIn found' ↔ u.isIn found ∨
      ∃ r, g.resolve fk = .ok r ∧ g.isSubtypeLink r = .ok true ∧ r.child.same u := by
  unfold addSubtype at h
  split at h
  · cases h
  · rename_i r hres
    split at h
    · cases h
    · rename_i link hlink
      cases h
      have hone : (∃ r, g.resolve fk = .ok r ∧ g.isSubtypeLink r = .ok true ∧ r.child.same u) ↔
          link = true ∧ r.child.same u := by
        simp [hres, hlink]
      rw [hone]
      split
      · rename_i hadd
        simp only [Bool.and_eq_true, Bool.not_eq_true'] at hadd
        simp [TableName.isIn, hadd.1, TableName.same_comm u r.child]
      · rename_i hkept
        constructor
        · exact Or.inl
        · rintro (hin | ⟨hlinked, hsame⟩)
          · exact hin
          · simp only [hlinked, Bool.true_and, Bool.not_eq_true', Bool.not_eq_false] at hkept
            rwa [← TableName.isIn_congr hsame]

/-- **The subtypes that are found are the direct subtypes.** -/
theorem isIn_subtypes (h : g.subtypes t = .ok found') :
    u.isIn found' ↔ g.DirectSubtype u t := by
  have hall : ∀ (fks : List ForeignKey) (found found' : List TableName),
      fks.foldlM g.addSubtype found = .ok found' → (u.isIn found' ↔ u.isIn found ∨
        ∃ fk ∈ fks, ∃ r, g.resolve fk = .ok r ∧ g.isSubtypeLink r = .ok true ∧ r.child.same u) := by
    intro fks
    induction fks with
    | nil =>
      intro found found' h
      cases h
      simp
    | cons fk fks ih =>
      intro found found' h
      rw [List.foldlM_cons] at h
      cases hstep : g.addSubtype found fk with
      | error e =>
        rw [hstep] at h
        cases h
      | ok next =>
        rw [hstep] at h
        rw [ih next found' h, addSubtype_eq_ok hstep]
        simp only [List.mem_cons, exists_eq_or_imp, or_assoc]
  rw [hall _ _ _ h]
  simp [TableName.isIn, DirectSubtype]

/-! ## The walk -/

/-- **One can descend from a table to another**, from subtype to subtype, past
the tables that are to be avoided. -/
inductive Descends (g : Schema) (avoid : List TableName) : TableName → TableName → Prop
  | here {u w : TableName} (new : u.isIn avoid = false) (same : u.same w) : Descends g avoid u w
  | step {u v w : TableName} (new : u.isIn avoid = false) (below : g.DirectSubtype v u)
      (rest : Descends g avoid v w) : Descends g avoid u w

theorem Descends.congr (h : g.Descends visited u w) (hu : u.same v) : g.Descends visited v w := by
  cases h with
  | here new same =>
    exact .here (TableName.isIn_congr hu visited ▸ new)
      (TableName.same_trans (TableName.same_symm hu) same)
  | step new below rest =>
    exact .step (TableName.isIn_congr hu visited ▸ new)
      (below.congr (TableName.same_refl _) hu) rest

/-- What avoids more avoids less. -/
theorem Descends.of_cons (h : g.Descends (t :: visited) u w) : g.Descends visited u w := by
  have hnew {u : TableName} (h : u.isIn (t :: visited) = false) : u.isIn visited = false := by
    simp only [TableName.isIn, List.any_cons, Bool.or_eq_false_iff] at h
    exact h.2
  induction h with
  | here new same => exact .here (hnew new) same
  | step new below rest ih => exact .step (hnew new) below ih

/-- The walk finds nothing that it could not descend to. -/
theorem exists_descends_of_classesBelow (h : g.classesBelow pending visited found = .ok out)
    (hc : c ∈ out) : c ∈ found ∨ ∃ p ∈ pending, ∃ w, g.Descends visited p w ∧ g.Stores w c := by
  induction pending, visited, found using classesBelow.induct (g := g) with
  | case1 visited found =>
    rw [classesBelow] at h
    cases h
    exact Or.inl hc
  | case2 visited found t rest hold ih =>
    rw [classesBelow_cons, if_pos hold] at h
    rcases ih h with hc | ⟨p, hp, hw⟩
    · exact Or.inl hc
    · exact Or.inr ⟨p, List.mem_cons_of_mem t hp, hw⟩
  | case3 visited found t rest hnew hnone =>
    rw [classesBelow_cons, if_neg hnew, hnone] at h
    cases h
  | case4 visited found t rest hnew table htable e hbelow =>
    rw [classesBelow_cons, if_neg hnew, htable, hbelow] at h
    cases h
  | case5 visited found t rest hnew table htable below hbelow ih =>
    rw [classesBelow_cons, if_neg hnew, htable, hbelow] at h
    have hnew := Bool.eq_false_iff.2 hnew
    rcases ih h with hc | ⟨p, hp, w, hw, hstores⟩
    · refine (List.mem_append.1 hc).imp id fun hc => ?_
      exact ⟨t, List.mem_cons_self, t, .here hnew (TableName.same_refl t), table, htable, hc⟩
    · refine Or.inr ?_
      rcases List.mem_append.1 hp with hp | hp
      · have hsub := (isIn_subtypes hbelow).1 (TableName.isIn_iff.2 ⟨p, hp, TableName.same_refl p⟩)
        exact ⟨t, List.mem_cons_self, w, .step hnew hsub hw.of_cons, hstores⟩
      · exact ⟨p, List.mem_cons_of_mem t hp, w, hw.of_cons, hstores⟩

/-- **What the walk has seen in the end is closed**: it holds all that was
pending, and with each table that was not seen before its classes were found
and its subtypes are there. -/
theorem exists_closed_of_classesBelow (h : g.classesBelow pending visited found = .ok out) :
    found ⊆ out ∧ ∃ V : List TableName, (∀ t : TableName, t.isIn visited → t.isIn V) ∧
      (∀ t ∈ pending, t.isIn V) ∧ ∀ t : TableName, t.isIn V → t.isIn visited = false →
        (∀ c, g.Stores t c → c ∈ out) ∧ ∀ u, g.DirectSubtype u t → u.isIn V := by
  induction pending, visited, found using classesBelow.induct (g := g) with
  | case1 visited found =>
    rw [classesBelow] at h
    cases h
    refine ⟨List.Subset.refl _, visited, fun _ h => h, by simp, fun t ht hnew => ?_⟩
    rw [ht] at hnew
    cases hnew
  | case2 visited found t rest hold ih =>
    rw [classesBelow_cons, if_pos hold] at h
    obtain ⟨hfound, V, hvisited, hpending, hclosed⟩ := ih h
    exact ⟨hfound, V, hvisited, List.forall_mem_cons.2 ⟨hvisited t hold, hpending⟩, hclosed⟩
  | case3 visited found t rest hnew hnone =>
    rw [classesBelow_cons, if_neg hnew, hnone] at h
    cases h
  | case4 visited found t rest hnew table htable e hbelow =>
    rw [classesBelow_cons, if_neg hnew, htable, hbelow] at h
    cases h
  | case5 visited found t rest hnew table htable below hbelow ih =>
    rw [classesBelow_cons, if_neg hnew, htable, hbelow] at h
    obtain ⟨hfound, V, hvisited, hpending, hclosed⟩ := ih h
    obtain ⟨hold, hclasses⟩ := List.append_subset.1 hfound
    obtain ⟨hsubs, hrest⟩ := List.forall_mem_append.1 hpending
    have hcons (x : TableName) : x.isIn (t :: visited) = (x.same t || x.isIn visited) := rfl
    refine ⟨hold, V, fun x hx => hvisited x (by rw [hcons, hx, Bool.or_true]),
      List.forall_mem_cons.2 ⟨hvisited t (by simp [TableName.isIn]), hrest⟩, fun x hx hxnew => ?_⟩
    by_cases hxt : x.same t = true
    · -- the table that was just seen
      refine ⟨fun c hc => ?_, fun u hu => ?_⟩
      · obtain ⟨d, hd, hc⟩ := hc.congr hxt
        rw [htable] at hd
        cases hd
        exact hclasses hc
      · obtain ⟨v, hv, hsame⟩ := TableName.isIn_iff.1
          ((isIn_subtypes hbelow).2 (hu.congr (TableName.same_refl u) hxt))
        rw [TableName.isIn_congr hsame]
        exact hsubs v hv
    · exact hclosed x hx (by rw [hcons, Bool.eq_false_iff.2 hxt, hxnew]; rfl)

/-- **The walk collects just the classes of the tables that it can descend
to.** -/
theorem mem_classesBelow_iff (h : g.classesBelow pending visited found = .ok out) :
    c ∈ out ↔ c ∈ found ∨ ∃ p ∈ pending, ∃ w, g.Descends visited p w ∧ g.Stores w c := by
  refine ⟨exists_descends_of_classesBelow h, ?_⟩
  obtain ⟨hfound, V, -, hpending, hclosed⟩ := exists_closed_of_classesBelow h
  rintro (hc | ⟨p, hp, w, hw, hstores⟩)
  · exact hfound hc
  · have hin : p.isIn V := hpending p hp
    clear hp
    induction hw with
    | here new same => exact (hclosed _ hin new).1 c (hstores.congr (TableName.same_symm same))
    | step new below rest ih => exact ih hstores ((hclosed _ hin new).2 _ below)

/-! ## Class maps -/

namespace ClassMap

theorem subset_insertNew : m ⊆ insertNew c t m := by
  induction m with
  | nil => simp
  | cons e rest ih =>
    obtain ⟨d, u⟩ := e
    unfold insertNew
    split
    · exact List.subset_cons_self _ _
    · split
      · exact fun _ h => h
      · exact List.cons_subset_cons _ ih

/-- A class that is entered is there. -/
theorem exists_mem_insertNew : ∃ v, (c, v) ∈ insertNew c t m := by
  induction m with
  | nil => exact ⟨t, by simp [insertNew]⟩
  | cons e rest ih =>
    obtain ⟨d, u⟩ := e
    unfold insertNew
    split
    · exact ⟨t, List.mem_cons_self⟩
    · split
      · rename_i heq
        exact ⟨u, heq ▸ List.mem_cons_self⟩
      · obtain ⟨v, hv⟩ := ih
        exact ⟨v, List.mem_cons_of_mem _ hv⟩

/-- Entering classes leaves what is there, and afterwards all are there; what is
new is one of them, with the table given. -/
theorem insertAll (classes : List Int) : m ⊆ classes.foldl (fun m c => m.insertNew c t) m ∧
    (∀ c ∈ classes, ∃ v, (c, v) ∈ classes.foldl (fun m c => m.insertNew c t) m) ∧
    ∀ e ∈ classes.foldl (fun m c => m.insertNew c t) m, e ∈ m ∨ e.1 ∈ classes ∧ e.2 = t := by
  induction classes generalizing m with
  | nil => simp
  | cons c classes ih =>
    obtain ⟨hold, hall, hnew⟩ := ih (m := m.insertNew c t)
    refine ⟨List.Subset.trans subset_insertNew hold, List.forall_mem_cons.2 ⟨?_, hall⟩,
      fun e he => ?_⟩
    · obtain ⟨v, hv⟩ := exists_mem_insertNew (c := c) (t := t) (m := m)
      exact ⟨v, hold hv⟩
    · rcases hnew e he with he | ⟨hc, ht⟩
      · rcases mem_insertNew he with rfl | he
        · exact Or.inr ⟨List.mem_cons_self, rfl⟩
        · exact Or.inl he
      · exact Or.inr ⟨List.mem_cons_of_mem _ hc, ht⟩

end ClassMap

/-- **A class is found under a subtype of a table**: at it or below, past the
table. -/
def FoundUnder (g : Schema) (t u : TableName) (c : Int) : Prop :=
  ∃ w, g.Descends [t] u w ∧ g.Stores w c

theorem FoundUnder.congr (h : g.FoundUnder t u c) (hu : u.same v) : g.FoundUnder t v c := by
  obtain ⟨w, hw, hc⟩ := h
  exact ⟨w, hw.congr hu, hc⟩

/-- Entering the classes of one subtype. -/
theorem enterClasses_eq_ok (h : g.enterClasses t m u = .ok m') : m ⊆ m' ∧
    (∀ c, g.FoundUnder t u c → ∃ v, (c, v) ∈ m') ∧
    ∀ e ∈ m', e ∈ m ∨ e.2 = u ∧ g.FoundUnder t u e.1 := by
  unfold enterClasses at h
  split at h
  · cases h
  · rename_i classes hclasses
    cases h
    have hmem {c : Int} : c ∈ classes ↔ g.FoundUnder t u c := by
      rw [mem_classesBelow_iff hclasses]
      simp [FoundUnder]
    obtain ⟨hold, hall, hnew⟩ := ClassMap.insertAll (m := m) (t := u) classes
    exact ⟨hold, fun c hc => hall c (hmem.2 hc),
      fun e he => (hnew e he).imp id fun ⟨hc, hu⟩ => ⟨hu, hmem.1 hc⟩⟩

/-- **A class map gives each class that is found to a subtype under which it is
found**, and holds nothing else. -/
theorem exists_mem_classMap (h : g.classMap t = .ok m) :
    (∀ e ∈ m, g.DirectSubtype e.2 t ∧ g.FoundUnder t e.2 e.1) ∧
      ∀ u, g.DirectSubtype u t → ∀ c, g.FoundUnder t u c → ∃ v, (c, v) ∈ m := by
  have hall : ∀ (us : List TableName) (m m' : ClassMap), us.foldlM (g.enterClasses t) m = .ok m' →
      m ⊆ m' ∧ (∀ u ∈ us, ∀ c, g.FoundUnder t u c → ∃ v, (c, v) ∈ m') ∧
        ∀ e ∈ m', e ∈ m ∨ e.2 ∈ us ∧ g.FoundUnder t e.2 e.1 := by
    intro us
    induction us with
    | nil =>
      intro m m' h
      cases h
      simp
    | cons u us ih =>
      intro m m' h
      rw [List.foldlM_cons] at h
      cases hstep : g.enterClasses t m u with
      | error e =>
        rw [hstep] at h
        cases h
      | ok next =>
        rw [hstep] at h
        obtain ⟨hold, hfound, hnew⟩ := enterClasses_eq_ok hstep
        obtain ⟨hold', hfound', hnew'⟩ := ih next m' h
        refine ⟨List.Subset.trans hold hold', List.forall_mem_cons.2 ⟨fun c hc => ?_, hfound'⟩,
          fun e he => ?_⟩
        · obtain ⟨v, hv⟩ := hfound c hc
          exact ⟨v, hold' hv⟩
        · rcases hnew' e he with he | ⟨hu, hc⟩
          · exact (hnew e he).imp id fun ⟨hu, hc⟩ => ⟨hu ▸ List.mem_cons_self, hu ▸ hc⟩
          · exact Or.inr ⟨List.mem_cons_of_mem _ hu, hc⟩
  unfold classMap at h
  split at h
  · cases h
  · rename_i subtypes hsubtypes
    obtain ⟨-, hfound, hnew⟩ := hall _ _ _ h
    refine ⟨fun e he => ?_, fun u hu c hc => ?_⟩
    · rcases hnew e he with he | ⟨hmem, hc⟩
      · cases he
      · have hin := TableName.isIn_iff.2 ⟨_, hmem, TableName.same_refl _⟩
        exact ⟨(isIn_subtypes hsubtypes).1 hin, hc⟩
    · obtain ⟨v, hv, hsame⟩ := TableName.isIn_iff.1 ((isIn_subtypes hsubtypes).2 hu)
      exact hfound v hv c (hc.congr hsame)

end Schema

end DeleteCascade
