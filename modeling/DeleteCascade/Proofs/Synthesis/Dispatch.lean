import DeleteCascade.Proofs.Schema.Hierarchy
import DeleteCascade.Proofs.Synthesis.Inheritance
import DeleteCascade.Proofs.Synthesis.Spelling
/-!
# Programs — dispatch by class

A function hands the objects of its batch to the subtypes by their class. In
a hierarchy its dispatch sorts the subtypes into cases and hooks, and the cases
hold just the classes that are listed at or below their tables
(`Schema.Sorts`, `Writes.sorts`). So a class leads from a function to
that of a subtype exactly if it is listed there or further down
(`routes_iff`): following a class goes down one chain, which ends at the table
that lists it, and all on the way look the class up at the top
(`dispatches_of_synthesize`).
-/

namespace DeleteCascade

/-- The tables that a dispatch leads to. -/
def SubtypeDispatch.tables (b : SubtypeDispatch Callee) : List TableName :=
  (Block.subtypeDispatch b).callees.map (·.table)

/-- A dispatch leads to the tables of its cases and to its hooks. -/
theorem SubtypeDispatch.isIn_tables {b : SubtypeDispatch Callee} {u : TableName} :
    u.isIn b.tables ↔
      (∃ case ∈ b.cases, u.same case.callee.table) ∨ u.isIn (b.hooks.map (·.table)) := by
  simp [tables, Block.callees, TableName.isIn]

/-- **A dispatch follows a class map**: each table that it leads to has the
classes that the map gives to it, and is a hook if there are none. -/
structure SubtypeDispatch.Follows (b : SubtypeDispatch Callee) (m : Schema.ClassMap) : Prop where
  once : b.tables.Pairwise fun u w => u.same w = false
  cases : ∀ case ∈ b.cases, case.classes = m.classesOf case.callee.table ∧ case.classes ≠ []
  hooks : ∀ hook ∈ b.hooks, m.classesOf hook.table = []

/-- **A dispatch sorts the subtypes of a table**: each of them once, the ones
with a class at or below them by their classes, the others as hooks. -/
structure Schema.Sorts (g : Schema) (t : TableName) (b : SubtypeDispatch Callee) : Prop where
  once : b.tables.Pairwise fun u w => u.same w = false
  subtypes : ∀ u, u.isIn b.tables ↔ g.IsSubtype u t
  hooks : ∀ u, g.IsSubtype u t →
    (u.isIn (b.hooks.map (·.table)) ↔ ∀ w c, g.AtOrBelow w u → ¬ g.Stores w c)
  nonempty : ∀ case ∈ b.cases, case.classes ≠ []
  ascending : ∀ case ∈ b.cases, case.classes.Pairwise (· < ·)
  disjoint : b.cases.Pairwise fun case case' => case.classes.Disjoint case'.classes
  classes : ∀ case ∈ b.cases, ∀ c,
    c ∈ case.classes ↔ ∃ w, g.AtOrBelow w case.callee.table ∧ g.Stores w c
  typed : b.cases ≠ [] → b.discriminator.isSome

/-- **A class leads from a function to another one**: to the one that is called
by the case of a dispatch that holds the class. -/
def Registry.Routes (r : Registry) (c : Int) (f g : DeleteFunction) : Prop :=
  f ∈ r.functions ∧ g ∈ r.functions ∧ ∃ b, .subtypeDispatch b ∈ f.blocks ∧
    ∃ case ∈ b.cases, c ∈ case.classes ∧ case.callee.function = g.name

/-- **A class is delivered** by a function to another one: following it ends
there, and leads nowhere else. -/
structure Registry.Delivers (r : Registry) (c : Int) (f g : DeleteFunction) : Prop where
  arrives : Relation.TransGen (r.Routes c) f g
  stops : ∀ h, ¬ r.Routes c g h
  alone : ∀ h, Relation.ReflTransGen (r.Routes c) f h → Relation.ReflTransGen (r.Routes c) h g

/-- **A function looks classes up** in a table: each of its dispatches with cases
does, by the key of that table. -/
def Setting.LooksUpIn (s : Setting) (root : TableName) (f : DeleteFunction) : Prop :=
  ∀ b, .subtypeDispatch b ∈ f.blocks → b.cases ≠ [] → ∃ place, b.discriminator = some place ∧
    place.table.same root ∧ s.schema.key? root = some place.keyColumn ∧
    place.column = s.discriminator

/-- The classes of a table are listed in ascending order. -/
theorem Schema.ClassMap.Sorted.classesOf {m : Schema.ClassMap} (h : m.Sorted) (t : TableName) :
    (m.classesOf t).Pairwise (· < ·) := by
  unfold ClassMap.classesOf
  exact List.pairwise_map.2 (List.Pairwise.filter _ h)

namespace SubtypeDispatch.Follows

variable {b : SubtypeDispatch Callee} {m : Schema.ClassMap} {u : TableName}

/-- The cases of a dispatch share no class. -/
theorem disjoint (h : b.Follows m) (hm : m.Sorted) :
    b.cases.Pairwise fun case case' => case.classes.Disjoint case'.classes := by
  have honce : (b.cases.map (·.callee.table)).Pairwise fun u w => u.same w = false := by
    have hall := h.once
    unfold tables Block.callees at hall
    rw [List.map_append, List.map_map] at hall
    exact (List.pairwise_append.1 hall).1
  refine (List.pairwise_map.1 honce).imp_of_mem fun {case case'} hcase hcase' hother => ?_
  intro c hc hc'
  rw [(h.cases case hcase).1] at hc
  rw [(h.cases case' hcase').1] at hc'
  rw [hm.same_of_mem_classesOf hc hc'] at hother
  cases hother

/-- A table is a hook if it has no classes. -/
theorem isIn_hooks_iff (h : b.Follows m) (hu : u.isIn b.tables) :
    u.isIn (b.hooks.map (·.table)) ↔ m.classesOf u = [] := by
  constructor
  · intro hhook
    obtain ⟨_, hv, hsame⟩ := TableName.isIn_iff.1 hhook
    obtain ⟨hook, hmem, rfl⟩ := List.mem_map.1 hv
    rw [Schema.ClassMap.classesOf_congr hsame, h.hooks hook hmem]
  · intro hnone
    rcases SubtypeDispatch.isIn_tables.1 hu with ⟨case, hcase, hsame⟩ | hhook
    · obtain ⟨heq, hne⟩ := h.cases case hcase
      rw [heq, ← Schema.ClassMap.classesOf_congr hsame, hnone] at hne
      exact absurd rfl hne
    · exact hhook

end SubtypeDispatch.Follows

namespace Setting

variable {s : Setting} {t u : TableName} {is : List Incoming} {classes : Schema.ClassMap}
variable {subtypes : List TableName} {b : SubtypeDispatch Callee} {f g : DeleteFunction}
variable {notes : List String} {drafted : List (Block TableName)} {callee : TableName → Callee}
variable {w : Block TableName → Block Callee} {c : Int} {d : TableName}

/-! ## One dispatch -/

/-- The tables that hold a reference with their whole key are listed once. -/
theorem pairwise_keyChildren : (keyChildren is).Pairwise fun t u => t.same u = false := by
  unfold keyChildren
  refine List.foldlRecOn
    (motive := fun ts : List TableName => ts.Pairwise fun t u => t.same u = false)
    _ _ List.Pairwise.nil fun ts hts i _ => ?_
  unfold addTable
  split
  · exact hts
  · rename_i hnew
    refine List.pairwise_append.2 ⟨hts, List.pairwise_singleton _ _, fun t ht u hu => ?_⟩
    obtain rfl := List.mem_singleton.1 hu
    refine Bool.eq_false_iff.2 fun hsame => hnew ?_
    exact TableName.isIn_iff.2 ⟨t, ht, TableName.same_symm hsame⟩

/-- The subtypes are sorted into those with classes and the others. -/
theorem pairwise_typedCases_untyped (h : subtypes.Pairwise fun t u => t.same u = false) :
    ((typedCases classes subtypes).map (·.callee) ++ untyped classes subtypes).Pairwise
      fun t u => t.same u = false := by
  have htyped : (typedCases classes subtypes).map (·.callee) =
      subtypes.filter fun t => !(classes.classesOf t).isEmpty := by
    unfold typedCases
    induction subtypes with
    | nil => rfl
    | cons t subtypes ih =>
      rw [List.filterMap_cons, List.filter_cons, ← ih (List.pairwise_cons.1 h).2]
      cases classes.classesOf t <;> rfl
  rw [htyped]
  refine List.pairwise_append.2 ⟨h.filter _, h.filter _, fun t ht u hu => ?_⟩
  refine Bool.eq_false_iff.2 fun hsame => ?_
  have hempty := (mem_untyped.1 hu).2
  have hfull := (List.mem_filter.1 ht).2
  rw [Schema.ClassMap.classesOf_congr hsame, hempty] at hfull
  cases hfull

/-- **A written dispatch follows the class map of its table**, and leads to its
subtypes. -/
theorem Writes.exists_follows (hw : s.Writes notes f t drafted callee w)
    (hb : .subtypeDispatch b ∈ f.blocks) : ∃ m, s.schema.classMap t = .ok m ∧ b.Follows m ∧
      (∀ u, u.isIn b.tables ↔ s.schema.IsSubtype u t) ∧
      (b.cases ≠ [] → b.discriminator.isSome) ∧
      ∀ place, b.discriminator = some place → (s.findDiscriminator t).outcome = .ok place := by
  obtain ⟨b', hb', hwritten⟩ := hw.exists_drafted hb
  obtain ⟨dispatch, rfl, -⟩ := hwritten.of_subtypeDispatch
  have hbody := body_of_draft hw.draft
  have hfound (place : Discriminator) (hplace : dispatch.discriminator = some place) :=
    findDiscriminator_of_mem_body hbody hb' hplace
  obtain ⟨parts, children, subtypes, targets, parent, hsections, rfl⟩ := sections_of_body hbody
  obtain ⟨is, his, -, hsubtypes⟩ := hsections.entering
  have hmem := (hsections.mem_iff hb').2.2.1 rfl
  rcases dispatch_eq_ok hsubtypes with ⟨-, rfl⟩ | ⟨m, d, hm, rfl, hd⟩
  · cases hmem
  · cases List.mem_singleton.1 hmem
    cases hwritten.subtypeDispatch
    have htables : SubtypeDispatch.tables ⟨d, (typedCases m (keyChildren is)).map fun case =>
        ⟨case.classes, callee case.callee⟩, (untyped m (keyChildren is)).map callee⟩ =
          (typedCases m (keyChildren is)).map (·.callee) ++ untyped m (keyChildren is) := by
      simp [SubtypeDispatch.tables, Block.callees, Function.comp_def, hw.named]
    refine ⟨m, hm, ⟨?_, ?_, ?_⟩, fun u => ?_, fun hcases => ?_, hfound⟩
    · rw [htables]
      exact pairwise_typedCases_untyped pairwise_keyChildren
    · intro case hcase
      obtain ⟨case', hcase', rfl⟩ := List.mem_map.1 hcase
      obtain ⟨-, heq, hne⟩ := mem_typedCases.1 hcase'
      exact ⟨by rw [hw.named]; exact heq, hne⟩
    · intro hook hhook
      obtain ⟨u, hu, rfl⟩ := List.mem_map.1 hhook
      rw [hw.named]
      exact (mem_untyped.1 hu).2
    · rw [htables, isSubtype_iff_isIn_keyChildren his, TableName.isIn_iff, TableName.isIn_iff]
      exact exists_congr fun v => and_congr_left fun _ =>
        ⟨fun hv => callees_dispatch (d := d) hv, fun hv => subset_callees_dispatch (d := d) hv⟩
    · rcases hd with ⟨-, hnone⟩ | ⟨place, rfl, -⟩
      · simp [hnone] at hcases
      · rfl

/-- **In a hierarchy a dispatch sorts the subtypes.** -/
theorem Writes.sorts (hg : s.schema.Hierarchy) (hw : s.Writes notes f t drafted callee w)
    (hb : .subtypeDispatch b ∈ f.blocks) : s.schema.Sorts f.table b := by
  obtain ⟨m, hm, hfollows, htables, htyped, -⟩ := hw.exists_follows hb
  rw [Schema.classMap_congr hw.table] at hm
  have hsubtypes (u : TableName) : u.isIn b.tables ↔ s.schema.IsSubtype u f.table := by
    rw [htables]
    exact ⟨fun h => h.congr (TableName.same_refl u) hw.table,
      fun h => h.congr (TableName.same_refl u) (TableName.same_symm hw.table)⟩
  have hsorted := Schema.sorted_of_classMap hm
  refine ⟨hfollows.once, hsubtypes, fun u hu => ?_, fun case hcase => (hfollows.cases case hcase).2,
    fun case hcase => ?_, hfollows.disjoint hsorted, fun case hcase c => ?_, htyped⟩
  · rw [hfollows.isIn_hooks_iff ((hsubtypes u).2 hu), List.eq_nil_iff_forall_not_mem]
    simp only [hg.mem_classesOf hm hu, not_exists, not_and]
    exact ⟨fun h w c => h c w, fun h c w => h w c⟩
  · rw [(hfollows.cases case hcase).1]
    exact hsorted.classesOf _
  · rw [(hfollows.cases case hcase).1]
    refine hg.mem_classesOf hm ((hsubtypes _).1 (SubtypeDispatch.isIn_tables.2 ?_))
    exact Or.inl ⟨case, hcase, TableName.same_refl _⟩

/-! ## The way up -/

/-- **The way up from a table ends at its top**, where links to supertypes are
listed with their own tables. -/
theorem isTop_of_topmost {σ : Schema} {top : TableName} (hg : σ.Hierarchy) (hown : σ.OwnLinks)
    {seen : List TableName} (hseen : ∀ u : TableName, u.isIn seen → σ.AtOrBelow u t)
    (h : topmost σ seen t = .ok top) : σ.IsTop top t := by
  induction seen, t using topmost.induct (g := σ) with
  | case1 seen t e hlink =>
    rw [topmost_eq, hlink] at h
    cases h
  | case2 seen t hlink =>
    rw [topmost_eq, hlink] at h
    cases h
    refine ⟨.refl _, fun u hsub => ?_⟩
    obtain ⟨r, hr, -⟩ := (hown.isSubtype_iff hg.toKey hg.single hlink).1 hsub
    cases hr
  | case3 seen t r hlink hold =>
    have hsub := (hown.isSubtype_iff hg.toKey hg.single hlink).2 ⟨r, rfl, TableName.same_refl _⟩
    exact absurd (hseen _ hold) (hg.not_atOrBelow hsub)
  | case4 seen t r hlink hnew ih =>
    have hsub := (hown.isSubtype_iff hg.toKey hg.single hlink).2 ⟨r, rfl, TableName.same_refl _⟩
    have hup : σ.IsTop top r.parent := by
      rw [topmost_eq, hlink] at h
      dsimp only at h
      rw [if_neg hnew] at h
      refine ih (fun u hu => ?_) h
      have hor : (u.same r.parent || u.isIn seen) = true := hu
      rcases Bool.or_eq_true_iff.1 hor with hsame | hin
      · exact Or.inl hsame
      · exact Or.inr ((hseen u hin).below hsub)
    exact ⟨Schema.AtOrBelow.trans (Or.inr (.single hsub)) hup.1, hup.2⟩

/-! ## Following a class -/

section Functions

variable {namer : Namer} {root : TableName} {result : Synthesis}

/-- **A class leads to the subtype at or below which it is listed.** -/
theorem routes_iff (hg : s.schema.Hierarchy) (hsyn : s.synthesize namer root = .ok result)
    (hf : f ∈ result.registry.functions) (hg' : g ∈ result.registry.functions) :
    result.registry.Routes c f g ↔ s.schema.IsSubtype g.table f.table ∧
      ∃ d, s.schema.AtOrBelow d g.table ∧ s.schema.Stores d c := by
  have hclosed := isClosed_of_synthesize hsyn
  obtain ⟨t, drafted, callee, w, hw⟩ := writes_of_synthesize hsyn hf
  have hcalled {b : SubtypeDispatch Callee} (hb : .subtypeDispatch b ∈ f.blocks)
      {case : SubtypeCase Callee} (hcase : case ∈ b.cases) :
      case.callee.function = g.name ↔ g.table.same case.callee.table := by
    refine hclosed.function_eq_iff hf (List.mem_flatMap.2 ⟨_, hb, ?_⟩) hg'
    exact List.mem_append_left _ (List.mem_map.2 ⟨case, hcase, rfl⟩)
  constructor
  · rintro ⟨-, -, b, hb, case, hcase, hc, hname⟩
    have hsorts := hw.sorts hg hb
    have hsame := (hcalled hb hcase).1 hname
    obtain ⟨d, hd, hstores⟩ := (hsorts.classes case hcase c).1 hc
    have hin := SubtypeDispatch.isIn_tables.2 (Or.inl ⟨case, hcase, hsame⟩)
    exact ⟨(hsorts.subtypes _).1 hin, d,
      hd.congr (TableName.same_refl d) (TableName.same_symm hsame), hstores⟩
  · rintro ⟨hsub, d, hd, hstores⟩
    obtain ⟨callee', hcall, -⟩ := (callsDown_iff hsyn hf hg').2 hsub
    obtain ⟨block, hb, hcb⟩ := List.mem_flatMap.1 hcall
    obtain ⟨b, rfl⟩ := Block.exists_dispatch_of_mem_calls hcb
    have hsorts := hw.sorts hg hb
    refine ⟨hf, hg', b, hb, ?_⟩
    rcases SubtypeDispatch.isIn_tables.1 ((hsorts.subtypes _).2 hsub) with
      ⟨case, hcase, hsame⟩ | hhook
    · have hd' := hd.congr (TableName.same_refl d) hsame
      exact ⟨case, hcase, (hsorts.classes case hcase c).2 ⟨d, hd', hstores⟩,
        (hcalled hb hcase).2 hsame⟩
    · exact absurd hstores ((hsorts.hooks _ hsub).1 hhook d c hd)

/-- A class leads to one function. -/
theorem rightUnique_routes (hg : s.schema.Hierarchy) (hsyn : s.synthesize namer root = .ok result) :
    Relator.RightUnique (result.registry.Routes c) := by
  intro f g h hfg hfh
  obtain ⟨hsub, d, hd, hc⟩ := (routes_iff hg hsyn hfg.1 hfg.2.1).1 hfg
  obtain ⟨hsub', d', hd', hc'⟩ := (routes_iff hg hsyn hfh.1 hfh.2.1).1 hfh
  have hsame := hg.classes d' d c hc' hc
  refine (isClosed_of_synthesize hsyn).eq_of_same_or_eq hfg.2.1 hfh.2.1 (Or.inl ?_)
  exact hg.same_of_atOrBelow hsub hsub' hd (hd'.congr hsame (TableName.same_refl _))

/-- A class that is listed below the table of a function leads to a function. -/
theorem exists_transGen_routes (hg : s.schema.Hierarchy)
    (hsyn : s.synthesize namer root = .ok result) (hf : f ∈ result.registry.functions)
    (hc : s.schema.Stores d c) (hbelow : Relation.TransGen s.schema.IsSubtype d f.table) :
    ∃ g, Relation.TransGen (result.registry.Routes c) f g ∧ g.table.same d := by
  obtain ⟨g, hchain, hsame⟩ := exists_transGen_downIn hsyn hf (Relation.transGen_swap.1 hbelow)
  have hd {h : DeleteFunction} (hh : s.schema.AtOrBelow g.table h.table) :
      ∃ d, s.schema.AtOrBelow d h.table ∧ s.schema.Stores d c :=
    ⟨d, hh.congr hsame (TableName.same_refl _), hc⟩
  refine ⟨g, ?_, hsame⟩
  have hboth : Relation.TransGen (result.registry.Routes c) f g ∧
      s.schema.AtOrBelow g.table f.table := by
    clear hf hbelow
    induction hchain using Relation.TransGen.head_induction_on with
    | single hdown =>
      obtain ⟨hf, hg', hcall⟩ := hdown
      have hsub := (callsDown_iff hsyn hf hg').1 hcall
      exact ⟨.single ((routes_iff hg hsyn hf hg').2 ⟨hsub, hd (.refl _)⟩), Or.inr (.single hsub)⟩
    | head hdown hchain ih =>
      obtain ⟨hf, hh, hcall⟩ := hdown
      have hsub := (callsDown_iff hsyn hf hh).1 hcall
      obtain ⟨hrest, hat⟩ := ih
      exact ⟨.head ((routes_iff hg hsyn hf hh).2 ⟨hsub, hd hat⟩) hrest, Or.inr (hat.below hsub)⟩
  exact hboth.1

/-- **Following a class from a table goes down the hierarchy** to the table that
lists it. -/
theorem exists_delivers (hg : s.schema.Hierarchy) (hsyn : s.synthesize namer root = .ok result)
    (hf : f ∈ result.registry.functions) (hc : s.schema.Stores d c)
    (hbelow : Relation.TransGen s.schema.IsSubtype d f.table) :
    ∃ g, g.table.same d ∧ result.registry.Delivers c f g := by
  obtain ⟨g, hchain, hsame⟩ := exists_transGen_routes hg hsyn hf hc hbelow
  have hstops (h : DeleteFunction) : ¬ result.registry.Routes c g h := by
    intro hgh
    obtain ⟨hsub, d', hd', hc'⟩ := (routes_iff hg hsyn hgh.1 hgh.2.1).1 hgh
    have hback : d'.same g.table :=
      TableName.same_trans (hg.classes d' d c hc' hc) (TableName.same_symm hsame)
    exact hg.not_atOrBelow hsub (hd'.congr hback (TableName.same_refl _))
  refine ⟨g, hsame, hchain, hstops, fun h hh => ?_⟩
  have hone := rightUnique_routes (c := c) hg hsyn
  rcases hh.total_of_right_unique hone hchain.to_reflTransGen with hrest | hpast
  · exact hrest
  · rcases Relation.ReflTransGen.cases_head hpast with rfl | ⟨h', hgh', -⟩
    · exact .refl
    · exact absurd hgh' (hstops h')

/-- **The place where a function looks classes up is the top of its table**, where
links to supertypes are listed with their own tables. -/
theorem isTop_of_discriminator (hg : s.schema.Hierarchy) (hown : s.schema.OwnLinks)
    (hsyn : s.synthesize namer root = .ok result) (hf : f ∈ result.registry.functions)
    (hb : .subtypeDispatch b ∈ f.blocks) {place : Discriminator}
    (hplace : b.discriminator = some place) : s.schema.IsTop place.table f.table ∧
      s.schema.key? place.table = some place.keyColumn ∧ place.column = s.discriminator := by
  obtain ⟨t, drafted, callee, w, hw⟩ := writes_of_synthesize hsyn hf
  obtain ⟨m, -, -, -, -, hfound⟩ := hw.exists_follows hb
  obtain ⟨hroot, hkey, hcolumn⟩ := findDiscriminator_eq_ok (hfound place hplace)
  have hseen (u : TableName) (hu : u.isIn [t]) : s.schema.AtOrBelow u t := by
    obtain ⟨v, hv, hsame⟩ := TableName.isIn_iff.1 hu
    exact Or.inl (List.mem_singleton.1 hv ▸ hsame)
  obtain ⟨hup, htop⟩ := isTop_of_topmost hg hown hseen hroot
  exact ⟨⟨hup.congr hw.table (TableName.same_refl _), htop⟩, hkey, hcolumn⟩

/-- **A function looks classes up at the top of its table.** -/
theorem looksUpIn_of_isTop (hg : s.schema.Hierarchy) (hown : s.schema.OwnLinks)
    (hsyn : s.synthesize namer root = .ok result) (hf : f ∈ result.registry.functions)
    {top : TableName} (htop : s.schema.IsTop top f.table) : s.LooksUpIn top f := by
  intro b hb hcases
  obtain ⟨t, drafted, callee, w, hw⟩ := writes_of_synthesize hsyn hf
  obtain ⟨place, hplace⟩ := Option.isSome_iff_exists.1 ((hw.sorts hg hb).typed hcases)
  obtain ⟨htop', hkey, hcolumn⟩ := isTop_of_discriminator hg hown hsyn hf hb hplace
  have hsame := hg.isTop_unique htop' htop
  exact ⟨place, hplace, hsame, by rw [← Schema.key?_congr hsame, hkey], hcolumn⟩

/-- A table with a function that a class leads from has a top. -/
theorem exists_isTop_of_routes (hg : s.schema.Hierarchy) (hown : s.schema.OwnLinks)
    (hsyn : s.synthesize namer root = .ok result) (hfg : result.registry.Routes c f g) :
    ∃ top, s.schema.IsTop top f.table := by
  obtain ⟨hf, -, b, hb, case, hcase, -⟩ := hfg
  obtain ⟨t, drafted, callee, w, hw⟩ := writes_of_synthesize hsyn hf
  obtain ⟨place, hplace⟩ :=
    Option.isSome_iff_exists.1 ((hw.sorts hg hb).typed (List.ne_nil_of_mem hcase))
  exact ⟨place.table, (isTop_of_discriminator hg hown hsyn hf hb hplace).1⟩

/-- **Dispatch leads every object to the table that stores its class.** In a
hierarchy each dispatch sorts the subtypes of its table, and a class that a
table below lists is delivered to the function of that table, from subtype to
subtype above it. Where links to supertypes are listed with their own tables,
all on the way look the class up at the top. -/
theorem dispatches_of_synthesize (hg : s.schema.Hierarchy)
    (hsyn : s.synthesize namer root = .ok result) (hf : f ∈ result.registry.functions) :
    (∀ b, .subtypeDispatch b ∈ f.blocks → s.schema.Sorts f.table b) ∧
    ∀ c d, s.schema.Stores d c → Relation.TransGen s.schema.IsSubtype d f.table →
      ∃ g, g.table.same d ∧ result.registry.Delivers c f g ∧
        (∀ h h', Relation.ReflTransGen (result.registry.Routes c) f h →
          result.registry.Routes c h h' →
            s.schema.IsSubtype h'.table h.table ∧ s.schema.AtOrBelow d h'.table) ∧
        (s.schema.OwnLinks → ∃ top, s.schema.IsTop top f.table ∧
          ∀ h, Relation.ReflTransGen (result.registry.Routes c) f h → s.LooksUpIn top h) := by
  obtain ⟨t, drafted, callee, w, hw⟩ := writes_of_synthesize hsyn hf
  refine ⟨fun b hb => hw.sorts hg hb, fun c d hc hbelow => ?_⟩
  obtain ⟨g, hsame, hdelivers⟩ := exists_delivers hg hsyn hf hc hbelow
  refine ⟨g, hsame, hdelivers, fun h h' _ hroute => ?_, fun hown => ?_⟩
  · obtain ⟨hsub, d', hd', hc'⟩ := (routes_iff hg hsyn hroute.1 hroute.2.1).1 hroute
    exact ⟨hsub, hd'.congr (hg.classes d' d c hc' hc) (TableName.same_refl _)⟩
  · obtain ⟨g', hfirst, -⟩ := Relation.TransGen.head'_iff.1 hdelivers.arrives
    obtain ⟨top, hup, htop⟩ := exists_isTop_of_routes hg hown hsyn hfirst
    refine ⟨top, ⟨hup, htop⟩, fun h hh => ?_⟩
    have hat : s.schema.AtOrBelow h.table f.table ∧ h ∈ result.registry.functions := by
      induction hh with
      | refl => exact ⟨.refl _, hf⟩
      | tail _ hroute ih =>
        have hsub := ((routes_iff hg hsyn hroute.1 hroute.2.1).1 hroute).1
        exact ⟨Schema.AtOrBelow.trans (Or.inr (.single hsub)) ih.1, hroute.2.1⟩
    exact looksUpIn_of_isTop hg hown hsyn hat.2 ⟨hat.1.trans hup, htop⟩

end Functions

/-! ## Villas, houses and garages -/

/-- The way up, followed for some steps. -/
def topmostFor : Nat → Schema → List TableName → TableName → Except SynthesisError TableName
  | 0, g, seen, t => topmost g seen t
  | n + 1, g, seen, t =>
    match g.parentLink t with
    | .error e => .error (.lookup t e)
    | .ok none => .ok t
    | .ok (some r) =>
      if r.parent.isIn seen then .ok t else topmostFor n g (r.parent :: seen) r.parent

/-- However long it is followed, the rest is the way up again. -/
theorem topmostFor_eq (n : Nat) : topmostFor n = topmost := by
  funext g seen t
  induction n generalizing seen t with
  | zero => rfl
  | succ n ih =>
    rw [topmost_eq, topmostFor]
    rcases g.parentLink t with e | (_ | r)
    · rfl
    · rfl
    · dsimp only
      rw [ih]

end Setting

/-- Houses are objects, and villas are houses, each with a class of its own;
garages are objects without. The link from houses to objects is listed with the
houses or, if it is annexed, with another table. -/
def dwellings (annexed : Bool) : Setting where
  schema :=
    let houseLinks := (cityTable "house" ["id"] [("id", "object")]).foreignKeys
    ⟨"city", [(cityTable "object" ["id"] []).addColumn ⟨"class", "integer", true⟩,
      { (cityTable "house" ["id"] []).addColumn ⟨"class", "integer", true⟩ with
        foreignKeys := if annexed then [] else houseLinks, classes := [1] },
      { cityTable "villa" ["id"] [("id", "house")] with classes := [2] },
      cityTable "garage" ["id"] [("id", "object")],
      { cityTable "annex" ["id"] [] with foreignKeys := if annexed then houseLinks else [] }], []⟩
  classifier := .ofRecords [] true
  discriminator := "class"

theorem dwellings_hierarchy (annexed : Bool) : (dwellings annexed).schema.Hierarchy := by
  cases annexed <;> exact Schema.Hierarchy.of_topDown (by decide +kernel) (by decide +kernel)
    (by decide +kernel) (by decide +kernel)

/-- Villas are listed below houses, and houses below objects. -/
theorem dwellings_below (annexed : Bool) :
    (dwellings annexed).schema.Stores ⟨"city", "villa"⟩ 2 ∧
      Relation.TransGen (dwellings annexed).schema.IsSubtype ⟨"city", "villa"⟩
        ⟨"city", "object"⟩ := by
  have hstores : (dwellings annexed).schema.Stores ⟨"city", "villa"⟩ 2 :=
    ⟨{ cityTable "villa" ["id"] [("id", "house")] with classes := [2] },
      by cases annexed <;> decide, by decide⟩
  have hvilla : (dwellings annexed).schema.IsSubtype ⟨"city", "villa"⟩ ⟨"city", "house"⟩ := by
    cases annexed <;> decide +kernel
  have hhouse : (dwellings annexed).schema.IsSubtype ⟨"city", "house"⟩ ⟨"city", "object"⟩ := by
    cases annexed <;> decide +kernel
  exact ⟨hstores, .tail (.single hvilla) hhouse⟩

/-- What objects and houses dispatch. -/
theorem exists_dwellings (annexed : Bool) : ∃ result f g,
    (dwellings annexed).synthesize (.new "del_" 63) ⟨"city", "object"⟩ = .ok result ∧
      f ∈ result.registry.functions ∧ g ∈ result.registry.functions ∧
      f.table = ⟨"city", "object"⟩ ∧ g.name = "del_house" ∧
      .subtypeDispatch ⟨some ⟨⟨"city", "object"⟩, "id", "class"⟩,
        [⟨[1, 2], ⟨⟨"city", "house"⟩, "del_house"⟩⟩], [⟨⟨"city", "garage"⟩, "del_garage"⟩]⟩ ∈
          f.blocks ∧
      .subtypeDispatch ⟨some ⟨⟨"city", if annexed then "house" else "object"⟩, "id", "class"⟩,
        [⟨[2], ⟨⟨"city", "villa"⟩, "del_villa"⟩⟩], []⟩ ∈ g.blocks := by
  refine exists_functions ?_
  -- the recursions that do not evaluate are followed for as long as they last here
  delta Setting.synthesize Setting.cutCycles Setting.cutTable Setting.leadsBack Setting.cutBlock
    Setting.cutNote? Registry.ownerCallReaches
  rw [← Setting.visitFor_eq _ 12]
  delta Setting.visitFor Setting.visitFor._f Setting.write Setting.draft Setting.body
    Setting.dispatch Schema.classMap Schema.enterClasses Setting.findDiscriminator
  rw [← Schema.classesBelowFor_eq 4, ← Setting.topmostFor_eq 4, ← Registry.searchFor_eq 12]
  cases annexed <;> decide +kernel

/-- The class of villas leads from objects to villas, by way of houses, and is
looked up with the objects each time. -/
theorem Setting.dispatches_of_synthesize_dwellings : ∃ result f,
    (dwellings false).synthesize (.new "del_" 63) ⟨"city", "object"⟩ = .ok result ∧
      f ∈ result.registry.functions ∧ f.table = ⟨"city", "object"⟩ ∧
      (dwellings false).schema.Hierarchy ∧ (dwellings false).schema.OwnLinks ∧
      (dwellings false).schema.Stores ⟨"city", "villa"⟩ 2 ∧
      Relation.TransGen (dwellings false).schema.IsSubtype ⟨"city", "villa"⟩ f.table ∧
      (∃ g, g.table.same ⟨"city", "villa"⟩ ∧ result.registry.Delivers 2 f g) ∧
      ∃ top, (dwellings false).schema.IsTop top f.table ∧
        ∀ h, Relation.ReflTransGen (result.registry.Routes 2) f h →
          (dwellings false).LooksUpIn top h := by
  obtain ⟨result, f, g, hsyn, hf, -, htable, -⟩ := exists_dwellings false
  have hg := dwellings_hierarchy false
  have hown : (dwellings false).schema.OwnLinks :=
    (Schema.Regular.singleInheritance (by decide +kernel) (by decide +kernel)).ownLinks
  obtain ⟨hstores, hbelow⟩ := dwellings_below false
  rw [← htable] at hbelow
  obtain ⟨g, hsame, hdelivers, -, htop⟩ :=
    (Setting.dispatches_of_synthesize hg hsyn hf).2 2 _ hstores hbelow
  exact ⟨result, f, hsyn, hf, htable, hg, hown, hstores, hbelow, ⟨g, hsame, hdelivers⟩, htop hown⟩

/-- **The places where a class is looked up can differ**: where the link from
houses to objects is listed with another table, houses look the class of villas
up among themselves. -/
theorem not_looksUpIn_alike : ∃ result f,
    (dwellings true).synthesize (.new "del_" 63) ⟨"city", "object"⟩ = .ok result ∧
      f ∈ result.registry.functions ∧ (dwellings true).schema.Hierarchy ∧
      (dwellings true).schema.Stores ⟨"city", "villa"⟩ 2 ∧
      Relation.TransGen (dwellings true).schema.IsSubtype ⟨"city", "villa"⟩ f.table ∧
      ¬ ∃ top, ∀ h, Relation.ReflTransGen (result.registry.Routes 2) f h →
        (dwellings true).LooksUpIn top h := by
  obtain ⟨result, f, g, hsyn, hf, hg, htable, hname, hobjects, hhouses⟩ := exists_dwellings true
  obtain ⟨hstores, hbelow⟩ := dwellings_below true
  refine ⟨result, f, hsyn, hf, dwellings_hierarchy true, hstores, htable ▸ hbelow, ?_⟩
  rintro ⟨top, hall⟩
  have hroute : result.registry.Routes 2 f g :=
    ⟨hf, hg, _, hobjects, _, List.mem_singleton_self _, by decide, hname.symm⟩
  obtain ⟨_, hplace, hobject, -⟩ := hall f .refl _ hobjects (by simp)
  cases hplace
  obtain ⟨_, hplace, hhouse, -⟩ := hall g (.single hroute) _ hhouses (by simp)
  cases hplace
  have hsame := TableName.same_trans hobject (TableName.same_symm hhouse)
  revert hsame
  decide

end DeleteCascade
