import DeleteCascade.Proofs.Synthesis.Body
/-!
# Owners — the ways in which a row can be owned

Before a shared row is deleted, all the ways in which it can still be owned
are asked. `OwnedVia` says which ways the schema and the classifier give,
and an owner check that was drafted lists these and no others:
`ownedVia_of_mem` and, for a table whose links are clear, `exists_owner`.
-/

namespace DeleteCascade

/-- Two ways to be owned that differ in spelling only. -/
def Owner.Like : Owner → Owner → Prop
  | .ownColumn c, .ownColumn c' => sameName c c'
  | .referencing t c, .referencing t' c' => t.same t' ∧ sameName c c'
  | _, _ => False

theorem Owner.Like.refl (o : Owner) : o.Like o := by
  cases o <;> simp [Owner.Like]

theorem Owner.Like.trans {o o' o'' : Owner} (h : o.Like o') (h' : o'.Like o'') : o.Like o'' := by
  cases o <;> cases o' <;> cases o'' <;> simp only [Owner.Like] at h h' ⊢
  · exact sameName_trans h h'
  · exact ⟨TableName.same_trans h.1 h'.1, sameName_trans h.2 h'.2⟩

theorem Owner.like_of_same {o o' : Owner} (h : o.same o') : o.Like o' := by
  cases o <;> cases o' <;> simp_all [Owner.same, Owner.Like]

namespace Schema

variable {g : Schema} {t u : TableName} {c : String}

/-- A column by which a bridge links to `t`. -/
def LinksBy (g : Schema) (t u : TableName) (c : String) : Prop :=
  ∃ b, g.IsBridge t b ∧ b.table.same u ∧ sameName b.nearColumn c

theorem LinksBy.congr {t' : TableName} (h : g.LinksBy t u c) (ht : t.same t') : g.LinksBy t' u c := by
  obtain ⟨b, hb, hrest⟩ := h
  exact ⟨b, hb.congr ht, hrest⟩

/-- A reference through such a column has the shape of a bridge. -/
theorem LinksBy.shape {fk : ForeignKey} {i : Incoming} (h : g.LinksBy t u c)
    (hone : g.OneKeyPerColumn) (hfk : fk ∈ g.foreignKeys) (hi : g.enter fk = .ok (some i))
    (hu : i.reference.child.same u) (hc : sameName i.reference.childColumn c) :
    ∃ b, i.shape = .bridge b := by
  obtain ⟨b, ⟨fk', hfk', i', hi', hshape⟩, hb, hnear⟩ := h
  obtain ⟨hres, -, -⟩ := enter_eq_ok_some hi
  obtain ⟨hres', -, hof⟩ := enter_eq_ok_some hi'
  rw [hshape] at hof
  obtain ⟨-, d, -, hbridge⟩ := shapeOf_eq_bridge hof
  obtain ⟨htable, hcolumn⟩ := ends_of_bridge? hbridge
  obtain ⟨a, p, d₁, e₁, hcols, -, -, heq⟩ := resolve_eq_ok.1 hres
  obtain ⟨a', p', d₂, e₂, hcols', -, -, heq'⟩ := resolve_eq_ok.1 hres'
  rw [htable, heq'] at hb
  rw [hcolumn, heq'] at hnear
  rw [heq] at hu hc
  have hsame : fk = fk' := hone fk hfk fk' (mem_foreignKeysTo.1 hfk').1 a p a' p' hcols hcols'
    (TableName.same_trans hu (TableName.same_symm hb)) (sameName_trans hc (sameName_symm hnear))
  rw [hsame, hi'] at hi
  cases hi
  exact ⟨b, hshape⟩

end Schema

namespace Setting

variable {σ : Setting} {n t u : TableName} {c : String} {r : Reference} {owners : List Owner}
variable {o : Owner}

/-- **The ways in which rows of a table are owned**: through a column of
their own, by rows that point at them, and through a bridge. -/
inductive OwnedVia (σ : Setting) (n : TableName) : Owner → Prop
  | column {o : TableName} {c : String} (link : σ.schema.Link n c o)
      (owns : σ.MayOwn n o c) : OwnedVia σ n (.ownColumn c)
  | reference {u : TableName} {c : String} (link : σ.schema.Link u c n)
      (other : u.same n = false) (plain : ¬ σ.schema.LinksBy n u c) (owns : σ.MayOwn n u c) :
      OwnedVia σ n (.referencing u c)
  | bridge {b : Bridge} (isBridge : σ.schema.IsBridge n b)
      (owns : σ.MayOwn n b.farTable b.table.name) :
      OwnedVia σ n (.referencing b.table b.nearColumn)

/-- **The ways in which an owner check asks for owners**: those in which rows
are owned, leaving out what ties the rows of one object together. -/
inductive Asks (σ : Setting) (n : TableName) : Owner → Prop
  | column {o : TableName} {c : String} (link : σ.schema.Link n c o)
      (plain : n.same o = false → ∀ k, σ.schema.key? n = some k → sameName k c = false)
      (owns : σ.MayOwn n o c) : Asks σ n (.ownColumn c)
  | reference {u : TableName} {c : String} (link : σ.schema.Link u c n)
      (other : u.same n = false) (plain : ∀ k, σ.schema.key? u = some k → sameName k c = false)
      (unlinked : ¬ σ.schema.LinksBy n u c) (owns : σ.MayOwn n u c) :
      Asks σ n (.referencing u c)
  | bridge {b : Bridge} (isBridge : σ.schema.IsBridge n b)
      (owns : σ.MayOwn n b.farTable b.table.name) : Asks σ n (.referencing b.table b.nearColumn)

theorem Asks.ownedVia (h : σ.Asks n o) : σ.OwnedVia n o := by
  cases h with
  | column link _ owns => exact .column link owns
  | reference link other _ unlinked owns => exact .reference link other unlinked owns
  | bridge isBridge owns => exact .bridge isBridge owns

/-- **The rows of a table are shared**: the table is neither a subtype nor a
supertype, and whatever may own its rows does so by aggregation. Its own
columns that say so take NULL, and rows that own by pointing have a key. -/
structure IsShared (σ : Setting) (n : TableName) : Prop where
  noSupertype : ∀ u, ¬ σ.schema.IsSubtype n u
  noSubtype : ∀ u, ¬ σ.schema.IsSubtype u n
  column : ∀ c o, σ.schema.Link n c o → σ.MayOwn n o c →
    σ.Means n o c .aggregation ∧ σ.schema.isNullable n c
  reference : ∀ u c, σ.schema.Link u c n → u.same n = false → ¬ σ.schema.LinksBy n u c →
    σ.MayOwn n u c → σ.Means n u c .aggregation ∧ (σ.schema.key? u).isSome
  bridge : ∀ b, σ.schema.IsBridge n b → σ.MayOwn n b.farTable b.table.name →
    σ.Means n b.farTable b.table.name .aggregation

/-! ## What an owner check lists -/

/-- What a drafted owner check is put together from. -/
theorem ownerCheck_eq_ok (h : (σ.ownerCheck u).outcome = .ok owners) :
    ∃ rs ss own is more, σ.schema.referenced u = .ok rs ∧ σ.schema.selfReferences u = .ok ss ∧
      (Draft.gather (σ.ownColumn u) (rs ++ ss)).outcome = .ok own ∧
      σ.schema.incoming u = .ok is ∧
      (Draft.gather (σ.referencingOwner u) is).outcome = .ok more ∧
      owners = more.foldl addOwner own := by
  unfold ownerCheck at h
  simp only [Draft.outcome_bind_eq_ok, Draft.outcome_ask, Draft.mapError_eq_ok] at h
  obtain ⟨rs, hrs, ss, hss, own, hown, is, his, more, hmore, h⟩ := h
  rw [Draft.outcome_pure, Except.ok.injEq] at h
  exact ⟨rs, ss, own, is, more, hrs, hss, hown, his, hmore, h.symm⟩

/-- Owners that are added are there in the end, in some spelling. -/
theorem foldl_addOwner (more own : List Owner) :
    more.foldl addOwner own ⊆ own ++ more ∧
      ∀ o ∈ own ++ more, ∃ o' ∈ more.foldl addOwner own, o'.Like o := by
  induction more generalizing own with
  | nil => exact ⟨by simp, fun o ho => ⟨o, by simpa using ho, .refl o⟩⟩
  | cons a more ih =>
    rw [List.foldl_cons]
    obtain ⟨hsub, hall⟩ := ih (addOwner own a)
    have hadd : addOwner own a ⊆ own ++ [a] := by
      unfold addOwner
      split
      · exact List.subset_append_left _ _
      · exact fun _ ho => ho
    refine ⟨fun o ho => ?_, fun o ho => ?_⟩
    · rcases List.mem_append.1 (hsub ho) with ho | ho
      · rcases List.mem_append.1 (hadd ho) with ho | ho
        · exact List.mem_append_left _ ho
        · exact List.mem_append_right _ (by simp_all)
      · exact List.mem_append_right _ (List.mem_cons_of_mem _ ho)
    · by_cases hany : own.any (·.same a) = true
      · rw [addOwner, if_pos hany] at hall ⊢
        rcases List.mem_append.1 ho with ho | ho
        · exact hall o (List.mem_append_left _ ho)
        · rcases List.mem_cons.1 ho with rfl | ho
          · -- the way is listed in another spelling
            obtain ⟨o', ho', hsame⟩ := List.any_eq_true.1 hany
            obtain ⟨o'', ho'', hlike⟩ := hall o' (List.mem_append_left _ ho')
            exact ⟨o'', ho'', hlike.trans (Owner.like_of_same hsame)⟩
          · exact hall o (List.mem_append_right _ ho)
      · rw [addOwner, if_neg hany] at hall ⊢
        refine hall o ?_
        simpa using ho

theorem ownColumn_eq_ok {bs : List Owner} (h : (σ.ownColumn u r).outcome = .ok bs) :
    ∃ kind, σ.classifier u r.parent (some r.childColumn) = .ok kind ∧
      bs = if kind.isOwning then [.ownColumn r.childColumn] else [] := by
  unfold ownColumn classify at h
  simp only [Draft.outcome_bind_eq_ok, Draft.ofExcept, Draft.mapError_eq_ok] at h
  obtain ⟨kind, hkind, h⟩ := h
  rw [Draft.outcome_pure, Except.ok.injEq] at h
  exact ⟨kind, hkind, h.symm⟩

/-- A reference that owns through the column is listed as such, unless it
comes from a bridge. -/
theorem referencingOwner_plain {i : Incoming} {bs : List Owner}
    (hkey : i.reference.childIsKey = false) (hshape : ∀ b, i.shape ≠ .bridge b)
    (h : (σ.referencingOwner u i).outcome = .ok bs) :
    ∃ kind, σ.classifier u i.reference.child (some i.reference.childColumn) = .ok kind ∧
      bs = if kind.isOwning then
        [.referencing i.reference.child i.reference.childColumn] else [] := by
  unfold referencingOwner at h
  rw [if_neg (by simp [hkey])] at h
  split at h
  · rename_i b hb
    exact absurd hb (hshape b)
  · simp only [classify, Draft.outcome_bind_eq_ok, Draft.ofExcept, Draft.mapError_eq_ok] at h
    obtain ⟨kind, hkind, h⟩ := h
    rw [Draft.outcome_pure, Except.ok.injEq] at h
    exact ⟨kind, hkind, h.symm⟩

theorem referencingOwner_bridge {i : Incoming} {b : Bridge} {bs : List Owner}
    (hkey : i.reference.childIsKey = false) (hshape : i.shape = .bridge b)
    (h : (σ.referencingOwner u i).outcome = .ok bs) :
    ∃ kind, σ.classifier u b.farTable (some b.table.name) = .ok kind ∧
      bs = if kind.isOwning then [.referencing b.table b.nearColumn] else [] := by
  unfold referencingOwner at h
  rw [if_neg (by simp [hkey]), hshape] at h
  simp only [classifyBridge, Draft.outcome_bind_eq_ok, Draft.ofExcept, Draft.mapError_eq_ok] at h
  obtain ⟨kind, hkind, h⟩ := h
  rw [Draft.outcome_pure, Except.ok.injEq] at h
  exact ⟨kind, hkind, h.symm⟩

/-- **An owner check lists only what it asks for.** -/
theorem asks_of_mem (hg : σ.schema.Regular) (hone : σ.schema.OneKeyPerColumn)
    (h : (σ.ownerCheck u).outcome = .ok owners) (ho : o ∈ owners) : σ.Asks u o := by
  obtain ⟨rs, ss, own, is, more, hrs, hss, hown, his, hmore, rfl⟩ := ownerCheck_eq_ok h
  -- a reference that is no key does not tie its table to a supertype
  have hplain {fk : ForeignKey} {r : Reference} {t : TableName} (hres : σ.schema.resolve fk = .ok r)
      (hchild : r.child.same t) (hkey : r.childIsKey = false) (k : String)
      (hk : σ.schema.key? t = some k) : sameName k r.childColumn = false := by
    refine Bool.eq_false_iff.2 fun hsame => ?_
    rw [(Schema.childIsKey_of_resolve hres).2 ⟨k, by rw [Schema.key?_congr hchild, hk], hsame⟩] at hkey
    cases hkey
  rcases List.mem_append.1 ((foldl_addOwner more own).1 ho) with ho | ho
  · obtain ⟨r, hr, bs, hbs, hob⟩ := Draft.mem_of_gather hown ho
    obtain ⟨kind, hkind, rfl⟩ := ownColumn_eq_ok hbs
    split at hob
    · rename_i howning
      obtain rfl := List.mem_singleton.1 hob
      have hout : ∃ out, σ.schema.outgoing u = .ok out ∧ r ∈ out ∧
          (r.isSelf = true ∨ r.childIsKey = false) := by
        rcases List.mem_append.1 hr with hr | hr
        · obtain ⟨out, hout, hmem, -, hkey⟩ := (hg.mem_referenced hrs).1 hr
          exact ⟨out, hout, hmem, Or.inr hkey⟩
        · obtain ⟨out, hout, hmem, hself⟩ := mem_selfReferences hss hr
          exact ⟨out, hout, hmem, Or.inl hself⟩
      obtain ⟨out, hout, hmem, hwhy⟩ := hout
      obtain ⟨fk, hfk, hres, hchild⟩ := hg.of_mem_outgoing hout hmem
      refine .column ((Schema.link_of_resolve hfk hres).congr hchild (by simp) (by simp))
        (fun hother => ?_) ((classifies_of_eq hkind).mayOwn howning)
      rcases hwhy with hself | hkey
      · rw [Reference.isSelf, TableName.same_congr_left hchild, hother] at hself
        cases hself
      · exact hplain hres hchild hkey
    · cases hob
  · obtain ⟨i, hi, bs, hbs, hob⟩ := Draft.mem_of_gather hmore ho
    obtain ⟨fk, hfk, henter⟩ := Schema.of_mem_incoming his hi
    obtain ⟨hmem, htarget⟩ := Schema.mem_foreignKeysTo.1 hfk
    obtain ⟨hres, hself, -⟩ := Schema.enter_eq_ok_some henter
    cases hkey : i.reference.childIsKey with
    | true =>
      simp only [referencingOwner, hkey, if_true, Draft.outcome_pure, Except.ok.injEq] at hbs
      rw [← hbs] at hob
      cases hob
    | false =>
      have hparent : i.reference.parent.same u = true := by
        obtain ⟨c, p, d, e, -, -, -, heq⟩ := Schema.resolve_eq_ok.1 hres
        rw [heq]
        exact htarget
      by_cases hshape : ∃ b, i.shape = .bridge b
      · obtain ⟨b, hb⟩ := hshape
        obtain ⟨kind, hkind, rfl⟩ := referencingOwner_bridge hkey hb hbs
        split at hob
        · rename_i howning
          obtain rfl := List.mem_singleton.1 hob
          exact .bridge ⟨fk, hfk, i, henter, hb⟩ ((classifies_of_eq hkind).mayOwn howning)
        · cases hob
      · obtain ⟨kind, hkind, rfl⟩ :=
          referencingOwner_plain hkey (fun b hb => hshape ⟨b, hb⟩) hbs
        split at hob
        · rename_i howning
          obtain rfl := List.mem_singleton.1 hob
          refine .reference ((Schema.link_of_resolve hmem hres).congr (by simp) (by simp) hparent) ?_
            (hplain hres (by simp) hkey)
            (fun hlinks => hshape (hlinks.shape hone hmem henter (by simp) (by simp)))
            ((classifies_of_eq hkind).mayOwn howning)
          rw [← TableName.same_congr_right hparent]
          exact hself
        · cases hob

/-- **An owner check lists only ways to be owned.** -/
theorem ownedVia_of_mem (hg : σ.schema.Regular) (hone : σ.schema.OneKeyPerColumn)
    (h : (σ.ownerCheck u).outcome = .ok owners) (ho : o ∈ owners) : σ.OwnedVia u o :=
  (asks_of_mem hg hone h ho).ownedVia

section Listed

variable {o w : TableName}

/-- Owners that were gathered are listed, in some spelling. -/
theorem exists_listed {own more : List Owner} {o o' : Owner} (h : o' ∈ own ++ more) (hlike : o'.Like o) :
    ∃ o'' ∈ more.foldl addOwner own, o''.Like o := by
  obtain ⟨o'', ho'', hlike'⟩ := (foldl_addOwner more own).2 o' h
  exact ⟨o'', ho'', hlike'.trans hlike⟩

/-- **A column of the table that owns is listed**, unless it leads to the
supertype. -/
theorem exists_ownColumn (hg : σ.schema.Regular) (hu : u.same n)
    (h : (σ.ownerCheck u).outcome = .ok owners) (link : σ.schema.Link n c o)
    (plain : n.same o = false → ∀ k, σ.schema.key? n = some k → sameName k c = false)
    (owns : ∀ kind, σ.Classifies n o c kind → kind.isOwning = true) :
    ∃ o' ∈ owners, o'.Like (.ownColumn c) := by
  obtain ⟨rs, ss, own, is, more, hrs, hss, hown, -, -, rfl⟩ := ownerCheck_eq_ok h
  have hlink : σ.schema.Link u c o := link.congr (TableName.same_symm hu) (by simp) (by simp)
  have hr : ∃ r ∈ rs ++ ss, sameName r.childColumn c ∧ r.parent.same o := by
    by_cases hself : u.same o = true
    · cases hout : σ.schema.outgoing u with
      | error e =>
        rw [Schema.selfReferences, hout] at hss
        cases hss
      | ok out =>
        obtain ⟨r, hr, hchild, hcol, hparent⟩ := hg.exists_mem_outgoing hout hlink
        rw [Schema.selfReferences, hout] at hss
        cases hss
        refine ⟨r, List.mem_append_right _ (List.mem_filter.2 ⟨hr, ?_⟩), hcol, hparent⟩
        exact TableName.same_trans hchild
          (TableName.same_trans hself (TableName.same_symm hparent))
    · obtain ⟨r, hr, hrest⟩ := mem_referenced_of_link hg hrs hlink (by simpa using hself)
        fun k hk => plain (by rw [← TableName.same_congr_left hu]; simpa using hself) k
          (by rw [← Schema.key?_congr hu, hk])
      exact ⟨r, List.mem_append_left _ hr, hrest⟩
  obtain ⟨r, hr, hcol, hparent⟩ := hr
  obtain ⟨bs, hbs, hsub⟩ := Draft.outcome_of_gather hown hr
  obtain ⟨kind, hkind, rfl⟩ := ownColumn_eq_ok hbs
  rw [if_pos (owns kind ((classifies_of_eq hkind).congr hu hparent hcol))] at hsub
  have hlike : Owner.Like (.ownColumn r.childColumn) (.ownColumn c) := hcol
  exact exists_listed (List.mem_append_left _ (hsub (by simp))) hlike

/-- **A column of another table that owns is listed**, unless it leads from a
subtype or is that of a bridge. -/
theorem exists_referencing (hg : σ.schema.Regular) (hu : u.same n)
    (h : (σ.ownerCheck u).outcome = .ok owners) (link : σ.schema.Link w c n)
    (other : w.same n = false) (plain : ∀ k, σ.schema.key? w = some k → sameName k c = false)
    (unlinked : ¬ σ.schema.LinksBy n w c)
    (owns : ∀ kind, σ.Classifies n w c kind → kind.isOwning = true) :
    ∃ o' ∈ owners, o'.Like (.referencing w c) := by
  obtain ⟨-, -, own, is, more, -, -, -, his, hmore, rfl⟩ := ownerCheck_eq_ok h
  have hlink : σ.schema.Link w c u := link.congr (by simp) (by simp) (TableName.same_symm hu)
  obtain ⟨fk, hfk, i, henter, hchild, hcol, hparent⟩ :=
    hg.exists_enter his hlink (by rw [TableName.same_congr_right hu, other])
  obtain ⟨hres, hself, hof⟩ := Schema.enter_eq_ok_some henter
  have hkey : i.reference.childIsKey = false := Schema.childIsKey_eq_false hres hchild hcol plain
  have hshape (b : Bridge) : i.shape ≠ .bridge b := by
    intro hb
    rw [hb] at hof
    obtain ⟨-, d, -, hbridge⟩ := Schema.shapeOf_eq_bridge hof
    obtain ⟨htable, hcolumn⟩ := Schema.ends_of_bridge? hbridge
    refine unlinked (Schema.LinksBy.congr ⟨b, ⟨fk, hfk, i, henter, hb⟩, ?_, ?_⟩ hu)
    · rw [htable, hchild]
    · rw [hcolumn, hcol]
  obtain ⟨bs, hbs, hsub⟩ := Draft.outcome_of_gather hmore (Schema.mem_incoming his hfk henter)
  obtain ⟨kind, hkind, rfl⟩ := referencingOwner_plain hkey hshape hbs
  rw [if_pos (owns kind ((classifies_of_eq hkind).congr hu hchild hcol))] at hsub
  have hlike : Owner.Like (.referencing i.reference.child i.reference.childColumn)
    (.referencing w c) := ⟨hchild, hcol⟩
  exact exists_listed (List.mem_append_right _ (hsub (by simp))) hlike

/-- **A bridge that owns is listed.** -/
theorem exists_bridge (hu : u.same n) (h : (σ.ownerCheck u).outcome = .ok owners) {b : Bridge}
    (isBridge : σ.schema.IsBridge n b)
    (owns : ∀ kind, σ.Classifies n b.farTable b.table.name kind → kind.isOwning = true) :
    ∃ o' ∈ owners, o'.Like (.referencing b.table b.nearColumn) := by
  obtain ⟨-, -, own, is, more, -, -, -, his, hmore, rfl⟩ := ownerCheck_eq_ok h
  obtain ⟨fk, hfk, i, henter, hshape⟩ := isBridge.congr (TableName.same_symm hu)
  obtain ⟨-, -, hof⟩ := Schema.enter_eq_ok_some henter
  rw [hshape] at hof
  obtain ⟨hkey, -⟩ := Schema.shapeOf_eq_bridge hof
  obtain ⟨bs, hbs, hsub⟩ := Draft.outcome_of_gather hmore (Schema.mem_incoming his hfk henter)
  obtain ⟨kind, hkind, rfl⟩ := referencingOwner_bridge hkey hshape hbs
  rw [if_pos (owns kind ((classifies_of_eq hkind).congr hu (by simp) (by simp)))] at hsub
  exact exists_listed (List.mem_append_right _ (hsub (by simp))) (.refl _)

end Listed

/-- **An owner check of a shared table lists all ways to be owned.** -/
theorem IsShared.exists_owner (hn : σ.IsShared n) (hg : σ.schema.Regular) (hu : u.same n)
    (h : (σ.ownerCheck u).outcome = .ok owners) (hvia : σ.OwnedVia n o) :
    ∃ o' ∈ owners, o'.Like o := by
  have howns {owner : TableName} {link : String} (hmeans : σ.Means n owner link .aggregation)
      (kind : Relation) (hkind : σ.Classifies n owner link kind) : kind.isOwning = true := by
    rw [hkind.eq_of_means hmeans]
    rfl
  cases hvia with
  | @column w c link owns =>
    refine exists_ownColumn hg hu h link (fun hother k hk => ?_) (howns (hn.column c w link owns).1)
    refine Bool.eq_false_iff.2 fun hkey => hn.noSupertype w ⟨k, hk, ?_, hother⟩
    exact link.congr (by simp) (sameName_symm hkey) (by simp)
  | @reference w c link other unlinked owns =>
    refine exists_referencing hg hu h link other (fun k hk => ?_) unlinked
      (howns (hn.reference w c link other unlinked owns).1)
    refine Bool.eq_false_iff.2 fun hkey => hn.noSubtype w ⟨k, hk, ?_, other⟩
    exact link.congr (by simp) (sameName_symm hkey) (by simp)
  | @bridge b isBridge owns => exact exists_bridge hu h isBridge (howns (hn.bridge b isBridge owns))

end Setting

end DeleteCascade
