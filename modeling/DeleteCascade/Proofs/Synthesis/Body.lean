import DeleteCascade.Proofs.Synthesis.Plan
/-!
# Plans — drafting a body

A body is drafted step by step, and each step leaves blocks behind that do
what they are for (`StepOf`). The references to what the table owns are
gathered first and cleaned up after in the end (`Target`), since the rows
go in between. `isBody_of_draft` puts the steps together.
-/

namespace DeleteCascade

namespace Setting

variable {s : Setting} {t u : TableName} {r : Reference} {kind : Relation}

/-! ## Steps of a draft -/

/-- What a step of a body leaves behind: blocks that come early, call only
what was mentioned and do what they are for, whatever is captured later. -/
def StepOf (s : Setting) (t : TableName) (ms : List TableName) (ns : List String)
    (b : Block TableName) : Prop :=
  b.callees ⊆ ms ∧ b.kind.isEarly = true ∧ ∀ captured, s.Plans t id ns captured b

theorem StepOf.mono {ms ms' : List TableName} {ns ns' : List String} {b : Block TableName}
    (hm : ms ⊆ ms') (hn : ns ⊆ ns') (h : s.StepOf t ms ns b) : s.StepOf t ms' ns' b :=
  ⟨List.Subset.trans h.1 hm, h.2.1, fun captured => (h.2.2 captured).mono hn⟩

theorem ensures_ownerCheckFor (s : Setting) (kind : Relation) (owned : TableName) :
    (s.ownerCheckFor kind owned).Ensures fun _ _ check => s.ChecksOwners kind owned check := by
  unfold ownerCheckFor
  split
  · rename_i hkind
    rw [Draft.ensures_map]
    intro owners howners
    exact ⟨hkind, howners⟩
  · rename_i hkind
    rw [Draft.ensures_pure]
    exact hkind

/-- Links of a table to itself come from its references. -/
theorem mem_selfReferences {g : Schema} {rs : List Reference} (h : g.selfReferences t = .ok rs)
    (hr : r ∈ rs) : ∃ out, g.outgoing t = .ok out ∧ r ∈ out ∧ r.isSelf = true := by
  unfold Schema.selfReferences at h
  cases hout : g.outgoing t with
  | error e =>
    rw [hout] at h
    cases h
  | ok out =>
    rw [hout] at h
    cases h
    obtain ⟨hr, hself⟩ := List.mem_filter.1 hr
    exact ⟨out, rfl, hr, hself⟩

theorem ensures_selfPart {rs : List Reference} (hrs : s.schema.selfReferences t = .ok rs)
    (hr : r ∈ rs) : (s.selfPart t r).Ensures fun ms ns bs => ∀ b ∈ bs, s.StepOf t ms ns b := by
  unfold selfPart
  rw [Draft.ensures_bind, ensures_classify]
  intro kind hkind
  dsimp only
  split
  · rename_i hcomp
    subst hcomp
    have hplan (ns : List String) (hcut : r.nullable = true ∨ ∃ r, cycleNote r ∈ ns) :
        s.StepOf t [t] ns (.selfParts ⟨r.childColumn, r.nullable, t⟩) := by
      refine ⟨by simp [Block.callees], rfl, fun captured => ?_⟩
      refine .selfParts (fun hg => ?_) (classifies_of_eq hkind) (by simp) hcut
      obtain ⟨out, hout, hmem, hself⟩ := mem_selfReferences hrs hr
      obtain ⟨fk, hfk, hres, hchild⟩ := hg.of_mem_outgoing hout hmem
      refine (Schema.link_of_resolve hfk hres).congr hchild (by simp) ?_
      exact TableName.same_trans (TableName.same_symm hself) hchild
    split
    · rename_i hnull
      rw [Draft.ensures_bind, Draft.ensures_mention]
      simpa using hplan [] (Or.inl hnull)
    · rw [Draft.ensures_bind, Draft.ensures_note, Draft.ensures_bind, Draft.ensures_mention]
      simpa using hplan [cycleNote r] (Or.inr ⟨r, by simp⟩)
  · simp

/-- A child that does not share its key with its parent is cascaded to. -/
theorem ensures_child {fk : ForeignKey} {i : Incoming} (hfk : fk ∈ s.schema.foreignKeysTo t)
    (hi : s.schema.enter fk = .ok (some i)) (hkey : ¬ i.reference.childIsKey = true) :
    (s.child t i.reference).Ensures fun ms ns bs => ∀ b ∈ bs, s.StepOf t ms ns b := by
  obtain ⟨hmem, htarget⟩ := Schema.mem_foreignKeysTo.1 hfk
  obtain ⟨hres, hself, -⟩ := Schema.enter_eq_ok_some hi
  have hparent : i.reference.parent.same t = true := by
    obtain ⟨c, p, d, e, -, -, -, heq⟩ := Schema.resolve_eq_ok.1 hres
    rw [heq]
    exact htarget
  have hlink : s.schema.Link i.reference.child i.reference.childColumn t :=
    (Schema.link_of_resolve hmem hres).congr (by simp) (by simp) hparent
  have hother : i.reference.child.same t = false := by
    rw [← TableName.same_congr_right hparent]
    exact hself
  have hnull : i.reference.nullable =
      s.schema.isNullable i.reference.child i.reference.childColumn := by
    obtain ⟨c, p, d, e, -, hd, -, heq⟩ := Schema.resolve_eq_ok.1 hres
    simp [heq, Schema.isNullable, hd]
  unfold child
  rw [Draft.ensures_bind, ensures_classify]
  intro kind hkind
  dsimp only
  split
  · rename_i howning
    have hlast (ms : List TableName) (ns : List String) (ownerCheck : Option (List Owner))
        (hshared : ∀ owners, ownerCheck = some owners → kind = .aggregation ∧
          i.reference.nullable = true ∧ (s.ownerCheck i.reference.child).outcome = .ok owners)
        (hunshared : ownerCheck = none → kind = .aggregation → i.reference.nullable = false) :
        (do
          let childKey ← Draft.ask i.reference.child (s.schema.keyColumn i.reference.child)
          let callee ← Draft.mention i.reference.child
          pure [Block.childCascade ⟨i.reference.child, childKey, i.reference.childColumn,
            decide (kind = .aggregation ∧ i.reference.nullable = true), ownerCheck, callee⟩] :
            Draft (List (Block TableName))).Ensures
          fun ms' ns' bs => ∀ b ∈ bs, s.StepOf t (ms ++ ms') (ns ++ ns') b := by
      rw [Draft.ensures_bind, Draft.ensures_ask]
      intro childKey hchild
      have hk : s.schema.key? i.reference.child = some childKey := Schema.keyColumn_eq_ok.1 hchild
      rw [Draft.ensures_bind, Draft.ensures_mention, Draft.ensures_pure]
      intro b hb
      obtain rfl := List.mem_singleton.1 hb
      refine ⟨by simp [Block.callees], rfl, fun captured => ?_⟩
      refine .childCascade hlink hother hk ?_ (classifies_of_eq hkind) howning (by simp) ?_ ?_
        ⟨fk, hfk, i, hi, rfl, rfl⟩ fun hchecked => ?_
      · refine Bool.eq_false_iff.2 fun hsame => hkey ?_
        exact (Schema.childIsKey_of_resolve hres).2 ⟨childKey, hk, hsame⟩
      · intro owners howners
        obtain ⟨hagg, hnullable, hcheck⟩ := hshared owners howners
        exact ⟨hagg, by simp [hagg, hnullable], hcheck⟩
      · intro hnone hagg
        rw [← hnull]
        exact hunshared hnone hagg
      · obtain ⟨owners, howners⟩ := Option.ne_none_iff_exists'.1 hchecked
        exact hnull ▸ (hshared owners howners).2.1
    split
    · rename_i hshares
      rw [Draft.ensures_bind]
      refine (ensures_ownerCheckFor s kind i.reference.child).mono fun ms ns check hcheck => ?_
      refine hlast ms ns check (fun owners howners => ?_) (fun hnone => ?_)
      · subst howners
        exact ⟨hcheck.1, hshares.2, hcheck.2⟩
      · subst hnone
        exact absurd hshares.1 hcheck
    · rename_i hshares
      rw [Draft.ensures_bind, Draft.ensures_pure]
      refine hlast [] [] none (fun owners howners => by cases howners) fun _ hagg => ?_
      exact Bool.eq_false_iff.2 fun hnullable => hshares ⟨hagg, hnullable⟩
  · simp

theorem ensures_bridge {b : Bridge} (hb : s.schema.IsBridge t b) :
    (s.bridge t b).Ensures fun ms ns bs => ∀ b ∈ bs, s.StepOf t ms ns b := by
  unfold bridge
  rw [Draft.ensures_bind, ensures_classifyBridge]
  intro kind hkind
  rw [Draft.ensures_bind]
  refine (ensures_ownerCheckFor s kind b.farTable).mono fun ms ns check hcheck => ?_
  dsimp only
  split
  · rename_i howning
    rw [Draft.ensures_bind, Draft.ensures_map, Draft.ensures_mention, Draft.ensures_pure]
    intro block hblock
    obtain rfl := List.mem_singleton.1 hblock
    refine ⟨by simp [Block.callees], rfl, fun captured => ?_⟩
    exact .bridgeCascade hb rfl rfl rfl rfl rfl (classifies_of_eq hkind) hcheck
      (fun _ => ⟨b.farTable, rfl, by simp⟩) fun hnot => by rw [howning] at hnot; cases hnot
  · rename_i howning
    rw [Draft.ensures_bind, Draft.ensures_pure, Draft.ensures_pure]
    intro block hblock
    obtain rfl := List.mem_singleton.1 hblock
    refine ⟨by simp [Block.callees], rfl, fun captured => ?_⟩
    exact .bridgeCascade hb rfl rfl rfl rfl rfl (classifies_of_eq hkind) hcheck
      (fun hyes => absurd hyes howning) fun _ => rfl

/-- Each reference that enters a table is dealt with by its shape. -/
theorem ensures_entering {is : List Incoming} (his : s.schema.incoming t = .ok is) {i : Incoming}
    (hi : i ∈ is) : (s.entering t i).Ensures fun ms ns bs => ∀ b ∈ bs, s.StepOf t ms ns b := by
  obtain ⟨fk, hfk, henter⟩ := Schema.of_mem_incoming his hi
  unfold entering
  split
  · simp
  · rename_i hkey
    split
    · rename_i b hshape
      exact ensures_bridge ⟨fk, hfk, i, henter, hshape⟩
    · rw [Draft.ensures_bind, Draft.ensures_note]
      refine (ensures_child hfk henter hkey).mono fun ms ns bs hbs b hb => ?_
      exact (hbs b hb).mono (by simp) (by simp)
    · exact ensures_child hfk henter hkey

/-! ## Subtypes -/

theorem mem_foldl_addTable {is : List Incoming} {ts : List TableName}
    (h : u ∈ is.foldl (fun ts i => addTable ts i.reference.child) ts) :
    u ∈ ts ∨ ∃ i ∈ is, u = i.reference.child := by
  induction is generalizing ts with
  | nil => exact Or.inl h
  | cons i is ih =>
    rcases ih h with h | ⟨j, hj, rfl⟩
    · simp only [addTable] at h
      split at h
      · exact Or.inl h
      · rcases List.mem_append.1 h with h | h
        · exact Or.inl h
        · exact Or.inr ⟨i, by simp, by simpa using h⟩
    · exact Or.inr ⟨j, by simp [hj], rfl⟩

/-- **The tables that share their key with a table are its subtypes.** -/
theorem isSubtype_of_mem_keyChildren {is : List Incoming} (his : s.schema.incoming t = .ok is)
    (hu : u ∈ keyChildren is) : s.schema.IsSubtype u t := by
  rcases mem_foldl_addTable hu with hu | ⟨i, hi, rfl⟩
  · cases hu
  · obtain ⟨hi, hkey⟩ := List.mem_filter.1 hi
    obtain ⟨fk, hfk, henter⟩ := Schema.of_mem_incoming his hi
    obtain ⟨hmem, htarget⟩ := Schema.mem_foreignKeysTo.1 hfk
    obtain ⟨hres, hself, -⟩ := Schema.enter_eq_ok_some henter
    obtain ⟨c, p, d, e, -, -, -, heq⟩ := Schema.resolve_eq_ok.1 hres
    refine (Schema.isSubtype_of_resolve hmem hres hkey hself).congr (by simp) ?_
    rw [heq]
    exact htarget

/-- Mentioning tables in turn mentions just these. -/
theorem ensures_mentions (ts : List TableName) :
    (Draft.gather (fun u => List.singleton <$> Draft.mention u) ts).Ensures
      fun ms _ _ => ms = ts := by
  induction ts with
  | nil => simp [Draft.gather]
  | cons u ts ih =>
    unfold Draft.gather
    rw [Draft.ensures_bind, Draft.ensures_map, Draft.ensures_mention, Draft.ensures_bind]
    refine ih.mono fun ms ns _ hms => ?_
    rw [Draft.ensures_pure, hms]
    simp

theorem callees_dispatch {classes : Schema.ClassMap} {subtypes : List TableName}
    {d : Option Discriminator} :
    (Block.subtypeDispatch ⟨d, typedCases classes subtypes, untyped classes subtypes⟩).callees ⊆
      subtypes := by
  intro u hu
  rcases List.mem_append.1 hu with hu | hu
  · obtain ⟨case, hcase, rfl⟩ := List.mem_map.1 hu
    obtain ⟨v, hv, hsome⟩ := List.mem_filterMap.1 hcase
    split at hsome
    · cases hsome
    · cases hsome
      exact hv
  · exact (List.mem_filter.1 hu).1

theorem ensures_dispatch {subtypes : List TableName}
    (hsub : ∀ u ∈ subtypes, s.schema.IsSubtype u t) :
    (s.dispatch t subtypes).Ensures fun ms ns bs => ∀ b ∈ bs, s.StepOf t ms ns b := by
  unfold dispatch
  split
  · simp
  · rw [Draft.ensures_bind, Draft.ensures_ask]
    intro classes _
    rw [Draft.ensures_bind]
    refine (ensures_mentions subtypes).mono fun ms ns _ hms => ?_
    have hstep (d : Option Discriminator) (ms' : List TableName) (ns' : List String) :
        s.StepOf t (ms ++ ms') ns'
          (.subtypeDispatch ⟨d, typedCases classes subtypes, untyped classes subtypes⟩) := by
      refine ⟨List.Subset.trans callees_dispatch (by simp [hms]), rfl, fun captured => ?_⟩
      exact .subtypeDispatch fun c hc => hsub c (callees_dispatch hc)
    dsimp only
    split
    · rw [Draft.ensures_bind, Draft.ensures_pure, Draft.ensures_pure]
      intro b hb
      obtain rfl := List.mem_singleton.1 hb
      exact hstep _ _ _
    · rw [Draft.ensures_bind, Draft.ensures_map]
      intro d _
      rw [Draft.ensures_pure]
      intro b hb
      obtain rfl := List.mem_singleton.1 hb
      exact hstep _ _ _

/-! ## What the rows point at -/

/-- A reference to something owned that is cleaned up after, with the
owners to look for. -/
def Target (s : Setting) (t : TableName) (rs : List Reference) (ms : List TableName)
    (target : Reference × Option (List Owner)) : Prop :=
  target.1 ∈ rs ∧ target.1.parent ∈ ms ∧
    ∃ kind, s.Classifies target.1.parent t target.1.childColumn kind ∧ kind.isOwning = true ∧
      s.ChecksOwners kind target.1.parent target.2

theorem ensures_ownedTarget {rs : List Reference} (hr : r ∈ rs) :
    (s.ownedTarget t r).Ensures fun ms _ out =>
      (∀ target ∈ out, s.Target t rs ms target) ∧
        ((∀ kind, s.Classifies r.parent t r.childColumn kind → kind.isOwning = true) →
          ∃ check, (r, check) ∈ out) := by
  unfold ownedTarget
  rw [Draft.ensures_bind, ensures_classify]
  intro kind hkind
  split
  · rename_i howning
    rw [Draft.ensures_bind]
    refine (ensures_ownerCheckFor s kind r.parent).mono fun ms ns check hcheck => ?_
    rw [Draft.ensures_bind, Draft.ensures_mention, Draft.ensures_pure]
    refine ⟨fun target htarget => ?_, fun _ => ⟨check, by simp⟩⟩
    obtain rfl := List.mem_singleton.1 htarget
    exact ⟨hr, by simp, kind, classifies_of_eq hkind, howning, hcheck⟩
  · rename_i howning
    rw [Draft.ensures_pure]
    exact ⟨by simp, fun hall => absurd (hall kind (classifies_of_eq hkind)) howning⟩

/-- What is gathered is owned, and everything that is owned is gathered. -/
theorem ensures_targets (rs : List Reference) :
    (Draft.gather (s.ownedTarget t) rs).Ensures fun ms _ out =>
      (∀ target ∈ out, s.Target t rs ms target) ∧
        ∀ r ∈ rs, (∀ kind, s.Classifies r.parent t r.childColumn kind → kind.isOwning = true) →
          ∃ check, (r, check) ∈ out := by
  intro out hout
  refine ⟨?_, fun r hr hall => ?_⟩
  · refine Draft.ensures_gather (P := fun ms _ target => s.Target t rs ms target) ?_ ?_ out hout
    · rintro ms ms' ns ns' target hms - ⟨hmem, hparent, hkind⟩
      exact ⟨hmem, hms hparent, hkind⟩
    · exact fun r hr => (ensures_ownedTarget hr).mono fun ms ns out h => h.1
  · obtain ⟨found, hfound, hsub⟩ := Draft.outcome_of_gather hout hr
    obtain ⟨check, hcheck⟩ := (ensures_ownedTarget hr found hfound).2 hall
    exact ⟨check, hsub hcheck⟩

/-- The blocks that clean up, by the slots of their columns. -/
theorem mem_cleanups {targets : List (Reference × Option (List Owner))} {b : Block TableName} :
    b ∈ cleanups targets ↔ ∃ i r check, targets[i]? = some (r, check) ∧
      b = .referencedCleanup ⟨r.childColumn, i, r.parent, r.parentColumn, check, r.parent⟩ := by
  unfold cleanups
  rw [List.mem_mapIdx]
  constructor
  · rintro ⟨i, hi, rfl⟩
    exact ⟨i, targets[i].1, targets[i].2, by simp [hi], rfl⟩
  · rintro ⟨i, r, check, hi, rfl⟩
    obtain ⟨hlt, hget⟩ := List.getElem?_eq_some_iff.1 hi
    exact ⟨i, hlt, by rw [hget]⟩

/-- A reference that is cleaned up after leads to another table by a column
that is not the key. -/
theorem plans_cleanup (ns : List String) {rs : List Reference}
    (hrs : s.schema.referenced t = .ok rs)
    {targets : List (Reference × Option (List Owner))} {ms : List TableName}
    (htargets : ∀ target ∈ targets, s.Target t rs ms target) {b : Block TableName}
    (hb : b ∈ cleanups targets) :
    s.Plans t id ns (targets.map (·.1.childColumn)) b ∧ b.callees ⊆ ms := by
  obtain ⟨i, r, check, hi, rfl⟩ := mem_cleanups.1 hb
  obtain ⟨hmem, hparent, kind, hkind, howning, hcheck⟩ :=
    htargets _ (List.mem_of_getElem? hi)
  have hplain (hg : s.schema.Regular) : ∃ fk ∈ s.schema.foreignKeys, s.schema.resolve fk = .ok r ∧
      r.child.same t = true ∧ r.isSelf = false ∧ r.childIsKey = false := by
    obtain ⟨out, hout, hr, hself, hkey⟩ := (hg.mem_referenced hrs).1 hmem
    obtain ⟨fk, hfk, hres, hchild⟩ := hg.of_mem_outgoing hout hr
    exact ⟨fk, hfk, hres, hchild, hself, hkey⟩
  refine ⟨?_, by simpa [Block.callees] using hparent⟩
  refine .referencedCleanup (by simp [hi]) (fun hg => ?_) (fun hg => ?_) (fun hg k hk => ?_) hkind
    howning (fun hg => ?_) hcheck (by simp)
  · obtain ⟨fk, hfk, hres, hchild, -⟩ := hplain hg
    exact (Schema.link_of_resolve hfk hres).congr hchild (by simp) (by simp)
  · obtain ⟨fk, hfk, hres, hchild, hself, -⟩ := hplain hg
    rw [← TableName.same_congr_left hchild]
    exact hself
  · obtain ⟨fk, hfk, hres, hchild, -, hkey⟩ := hplain hg
    refine Bool.eq_false_iff.2 fun hsame => ?_
    have hyes := (Schema.childIsKey_of_resolve hres).2
      ⟨k, by rw [Schema.key?_congr hchild, hk], hsame⟩
    rw [hkey] at hyes
    cases hyes
  · obtain ⟨fk, hfk, hres, -⟩ := hplain hg
    obtain ⟨c, p, k, hcols, hk, hkp⟩ := hg.columns? hfk
    obtain ⟨c', p', d, e, hcols', -, -, heq⟩ := Schema.resolve_eq_ok.1 hres
    rw [hcols] at hcols'
    cases hcols'
    exact ⟨k, by rw [heq, hk], by rw [heq]; exact hkp⟩

/-- A link to another table by a column that is not the key is a plain
reference. -/
theorem mem_referenced_of_link (hg : s.schema.Regular) {rs : List Reference}
    (hrs : s.schema.referenced t = .ok rs) {c : String} (hlink : s.schema.Link t c u)
    (hne : t.same u = false) (hkey : ∀ k, s.schema.key? t = some k → sameName k c = false) :
    ∃ r ∈ rs, sameName r.childColumn c ∧ r.parent.same u := by
  cases hout : s.schema.outgoing t with
  | error e =>
    unfold Schema.referenced at hrs
    rw [hout] at hrs
    cases hrs
  | ok out =>
    obtain ⟨r, hr, hchild, hcol, hparent⟩ := hg.exists_mem_outgoing hout hlink
    obtain ⟨fk, hfk, hres, -⟩ := hg.of_mem_outgoing hout hr
    refine ⟨r, (hg.mem_referenced hrs).2 ⟨out, hout, hr, ?_, ?_⟩, hcol, hparent⟩
    · rw [Reference.isSelf, TableName.same_congr_left hchild, TableName.same_congr_right hparent, hne]
    · refine Bool.eq_false_iff.2 fun hyes => ?_
      obtain ⟨k, hk, hsame⟩ := (Schema.childIsKey_of_resolve hres).1 hyes
      rw [Schema.key?_congr hchild] at hk
      rw [sameName_congr_right hcol, hkey k hk] at hsame
      cases hsame

/-! ## The supertype -/

theorem ensures_parentBlock (s : Setting) (t : TableName) :
    (s.parentBlock t).Ensures fun ms _ bs =>
      (∀ b ∈ bs, b.callees ⊆ ms ∧ ∃ callee, b = .parentCascade callee ∧
        (s.schema.Regular → s.schema.IsSubtype t callee)) ∧
      (s.schema.Regular → ∀ u, s.schema.IsSubtype t u → ∃ callee, .parentCascade callee ∈ bs) := by
  unfold parentBlock
  rw [Draft.ensures_bind, Draft.ensures_ask]
  intro link hlink
  cases link with
  | none =>
    dsimp only
    rw [Draft.ensures_pure]
    exact ⟨by simp, fun hg u hu => absurd hu (hg.not_isSubtype_of_parentLink hlink)⟩
  | some r =>
    dsimp only
    rw [Draft.ensures_bind, Draft.ensures_mention, Draft.ensures_pure]
    refine ⟨fun b hb => ?_, fun _ _ _ => ⟨r.parent, by simp⟩⟩
    obtain rfl := List.mem_singleton.1 hb
    exact ⟨by simp [Block.callees], r.parent, rfl, fun hg => hg.isSubtype_of_parentLink hlink⟩

/-! ## The whole body -/

/-- **A drafted body has the shape of a body**, and calls only tables that
were mentioned. -/
theorem ensures_body (s : Setting) (t : TableName) :
    (s.body t).Ensures fun ms ns blocks => ∃ captured front back,
      blocks = front ++ .localDelete captured :: back ∧ s.IsBody t id ns captured front back ∧
        ∀ b ∈ blocks, b.callees ⊆ ms := by
  unfold body
  rw [Draft.ensures_bind, Draft.ensures_ask]
  intro selfs hselfs
  rw [Draft.ensures_bind]
  refine (Draft.ensures_gather (P := s.StepOf t) StepOf.mono fun r hr =>
    ensures_selfPart hselfs hr).mono fun ms₁ ns₁ parts hparts => ?_
  rw [Draft.ensures_bind, Draft.ensures_ask]
  intro is his
  rw [Draft.ensures_bind]
  refine (Draft.ensures_gather (P := s.StepOf t) StepOf.mono fun i hi =>
    ensures_entering his hi).mono fun ms₂ ns₂ children hchildren => ?_
  rw [Draft.ensures_bind]
  refine (ensures_dispatch fun u hu => isSubtype_of_mem_keyChildren his hu).mono
    fun ms₃ ns₃ subtypes hsubtypes => ?_
  rw [Draft.ensures_bind, Draft.ensures_ask]
  intro rs hrs
  rw [Draft.ensures_bind]
  refine (ensures_targets rs).mono fun ms₄ ns₄ targets htargets => ?_
  rw [Draft.ensures_bind]
  refine (ensures_parentBlock s t).mono fun ms₅ ns₅ parent hparent => ?_
  rw [Draft.ensures_pure]
  simp only [List.nil_append, List.append_nil]
  generalize hms : ms₁ ++ (ms₂ ++ (ms₃ ++ (ms₄ ++ ms₅))) = ms
  generalize hns : ns₁ ++ (ns₂ ++ (ns₃ ++ (ns₄ ++ ns₅))) = ns
  have hmsub : ms₁ ⊆ ms ∧ ms₂ ⊆ ms ∧ ms₃ ⊆ ms ∧ ms₄ ⊆ ms ∧ ms₅ ⊆ ms := by
    refine ⟨?_, ?_, ?_, ?_, ?_⟩ <;> intro x hx <;> simp [← hms, hx]
  have hnsub : ns₁ ⊆ ns ∧ ns₂ ⊆ ns ∧ ns₃ ⊆ ns := by
    refine ⟨?_, ?_, ?_⟩ <;> intro x hx <;> simp [← hns, hx]
  have hfront : ∀ b ∈ parts ++ children ++ subtypes, s.StepOf t ms ns b := by
    intro b hb
    rcases List.mem_append.1 hb with hb | hb
    · rcases List.mem_append.1 hb with hb | hb
      · exact (hparts b hb).mono hmsub.1 hnsub.1
      · exact (hchildren b hb).mono hmsub.2.1 hnsub.2.1
    · exact (hsubtypes b hb).mono hmsub.2.2.1 hnsub.2.2
  have hcleanups : ∀ b ∈ cleanups targets,
      s.Plans t id ns (targets.map (·.1.childColumn)) b ∧ b.callees ⊆ ms := by
    intro b hb
    obtain ⟨hplan, hsub⟩ := plans_cleanup ns hrs htargets.1 hb
    exact ⟨hplan, List.Subset.trans hsub hmsub.2.2.2.1⟩
  refine ⟨targets.map (·.1.childColumn), parts ++ children ++ subtypes, cleanups targets ++ parent,
    by simp, ⟨?_, fun b hb => (hfront b hb).2.1, ?_, ?_, ?_⟩, ?_⟩
  · intro b hb
    rcases List.mem_append.1 hb with hb | hb
    · exact (hfront b hb).2.2 _
    · rcases List.mem_cons.1 hb with rfl | hb
      · exact .localDelete
      · rcases List.mem_append.1 hb with hb | hb
        · exact (hcleanups b hb).1
        · obtain ⟨-, callee, rfl, hsuper⟩ := hparent.1 b hb
          exact .parentCascade hsuper
  · intro b hb
    rcases List.mem_append.1 hb with hb | hb
    · obtain ⟨i, r, check, -, rfl⟩ := mem_cleanups.1 hb
      exact Or.inl ⟨_, rfl⟩
    · obtain ⟨-, callee, rfl, -⟩ := hparent.1 b hb
      exact Or.inr ⟨callee, rfl⟩
  · intro hg c u hlink hne hkey hall
    obtain ⟨r, hr, hcol, hparent⟩ := mem_referenced_of_link hg hrs hlink hne hkey
    obtain ⟨check, hmem⟩ := htargets.2 r hr fun kind hkind =>
      hall kind (hkind.congr hparent (by simp) hcol)
    obtain ⟨i, hi⟩ := List.mem_iff_getElem?.1 hmem
    exact ⟨_, List.mem_append_left _ (mem_cleanups.2 ⟨i, r, check, hi, rfl⟩), hcol, hparent⟩
  · intro hg u hu
    obtain ⟨callee, hcallee⟩ := hparent.2 hg u hu
    exact ⟨callee, by simp [hcallee]⟩
  · intro b hb
    simp only [List.mem_append, List.mem_singleton] at hb
    rcases hb with (((((hb | hb) | hb) | rfl) | hb) | hb)
    · exact (hfront b (by simp [hb])).1
    · exact (hfront b (by simp [hb])).1
    · exact (hfront b (by simp [hb])).1
    · simp [Block.callees]
    · exact (hcleanups b hb).2
    · exact List.Subset.trans (hparent.1 b hb).1 hmsub.2.2.2.2

/-- **A drafted function** has the key of its table and the shape of a body. -/
theorem isBody_of_draft {k : String} {blocks : List (Block TableName)}
    (h : (s.draft t).outcome = .ok (k, blocks)) :
    s.schema.key? t = some k ∧ (∀ b ∈ blocks, b.callees ⊆ (s.draft t).mentions) ∧
      ∃ captured front back, blocks = front ++ .localDelete captured :: back ∧
        s.IsBody t id (s.draft t).notes captured front back := by
  have hdraft : (s.draft t).Ensures fun ms ns result =>
      s.schema.key? t = some result.1 ∧ (∀ b ∈ result.2, b.callees ⊆ ms) ∧
        ∃ captured front back, result.2 = front ++ .localDelete captured :: back ∧
          s.IsBody t id ns captured front back := by
    unfold draft
    rw [Draft.ensures_bind, Draft.ensures_ask]
    intro k hk
    rw [Draft.ensures_bind]
    refine (ensures_body s t).mono fun ms ns blocks hblocks => ?_
    obtain ⟨captured, front, back, heq, hbody, hcallees⟩ := hblocks
    rw [Draft.ensures_pure]
    simp only [List.nil_append, List.append_nil]
    exact ⟨Schema.keyColumn_eq_ok.1 hk, hcallees, captured, front, back, heq, hbody⟩
  exact hdraft _ h

end Setting

end DeleteCascade
