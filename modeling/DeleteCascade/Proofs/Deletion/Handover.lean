import DeleteCascade.Proofs.Deletion.Foresight
/-!
# Deletion — the next visit

A visit leads to those of the calls that its function makes. Here each of
them is seen to expect its call: the rows that are called for come in the
ways that the visit tells, their mates are called for as well, and what is
to be gone by then is. `Expects.toOwned` and `Expects.toSubtype` are about
the calls before the rows go, `Expects.toTarget` and `Expects.toSupertype`
about those after, when the function has left its bonds to the calls that
follow (`Expects.honors_pending`).
-/

namespace DeleteCascade

variable {σ : Setting} {st s s' : Store} {t u w : TableName} {c k link : String} {x y v : Int}
variable {batch ids : List Int} {V : Visit} {l : Front} {before after done : List Front}

/-- **Rows that other owners were asked about are released.** -/
theorem Setting.released_of_unowned (hg : σ.schema.Strict) {owners : List Owner}
    (hcheck : (σ.ownerCheck t).outcome = .ok owners) (htu : t.same u) :
    σ.Released s u (s.unowned w k (some owners) ids) := by
  intro v hv n c hlink hother hnotKey hplain hall q hq hqv
  obtain ⟨rs, ss, own, is, more, -, -, -, his, hmore, rfl⟩ := Setting.ownerCheck_eq_ok hcheck
  have hut := TableName.same_symm htu
  -- the reference is listed by what enters the table
  obtain ⟨fk, hfk, i, henter, hchild, hcol, -⟩ := hg.regular.exists_enter his
    (hlink.congr (TableName.same_refl n) (sameName_refl c) hut)
    (by rw [TableName.same_congr_right htu, hother])
  obtain ⟨hres, -, hof⟩ := Schema.enter_eq_ok_some henter
  have hkey := Schema.childIsKey_eq_false hres hchild hcol hnotKey
  have hshape (b : Bridge) : i.shape ≠ .bridge b := by
    intro hb
    rw [hb] at hof
    obtain ⟨-, d, -, hbridge⟩ := Schema.shapeOf_eq_bridge hof
    obtain ⟨htable, hcolumn⟩ := Schema.ends_of_bridge? hbridge
    refine hplain (Schema.LinksBy.congr ⟨b, ⟨fk, hfk, i, henter, hb⟩, ?_, ?_⟩ htu)
    · rw [htable, hchild]
    · rw [hcolumn, hcol]
  obtain ⟨bs, hbs, hsub⟩ := Draft.outcome_of_gather hmore (Schema.mem_incoming his hfk henter)
  obtain ⟨kind, hkind, rfl⟩ := Setting.referencingOwner_plain hkey hshape hbs
  rw [if_pos (hall kind ((Setting.classifies_of_eq hkind).congr htu hchild hcol))] at hsub
  obtain ⟨o, ho, hlike⟩ := (Setting.foldl_addOwner more own).2 _
    (List.mem_append_right _ (hsub (List.mem_singleton_self _)))
  -- and holds the row
  have hheld : s.isOwned w k v o = true := by
    cases o with
    | ownColumn => cases hlike
    | referencing table column =>
      obtain ⟨htable, hcolumn⟩ := hlike
      refine Store.hasValue_iff.2 ⟨q, ?_, ?_⟩
      · rwa [Store.rows_congr s (TableName.same_trans htable hchild)]
      · rwa [Row.get?_congr q (sameName_trans hcolumn hcol)]
  have hfree := (List.mem_filter.1 hv).2
  rw [List.any_eq_true.2 ⟨o, ho, hheld⟩] at hfree
  cases hfree

namespace Visit.Expects

/-- It does not matter how a batch is listed. -/
theorem of_mem_iff (h : V.Expects σ st s batch) (hmem : ∀ v, v ∈ ids ↔ v ∈ batch) :
    V.Expects σ st s ids where
  orderly := h.orderly
  spelling := h.spelling
  arrival v hv hrow := by
    obtain ⟨a, ha, harrived⟩ := h.arrival v ((hmem v).1 hv) hrow
    exact ⟨a, ha, harrived.gone, fun y hy hrow => (hmem y).2 (harrived.mates y hy hrow)⟩
  honors := h.honors.mono fun u y hy => hy.imp id fun hy => ⟨hy.1, (hmem y).2 hy.2⟩
  shared hshared v hv := h.shared hshared v ((hmem v).1 hv)

/-! ## Before the rows go -/

/-- The batch is busy, also for later stores. -/
theorem of_busy_add (h : V.Expects σ st s batch) (hw : s'.Within s)
    (hhonors : s'.Honors st σ.Composes ((V.busy.add V.table batch).add u ids)) :
    s'.Honors st σ.Composes (V.busy.add u ids) := by
  refine hhonors.of_doom fun n y hgoing => ?_
  rcases hgoing with hgone | (hbusy | ⟨hsame, hy⟩) | howned
  · exact Or.inl hgone
  · exact Or.inr (Or.inl hbusy)
  · exact ((h.going_of_batch hsame hy).of_within hw).add u ids
  · exact Or.inr (Or.inr howned)

/-- **Cutting off rows honors the bonds**, if those that go anyway are among
the owned ones. -/
theorem honors_of_takes (h : V.Expects σ st s batch) (hkept : σ.WellKept st)
    (hlink : σ.schema.Link u c V.table) (hk : σ.schema.key? u = some k) {test : Row → Bool}
    (htest : ∀ r, test r = true → pointsInto batch c r = true)
    (hkey : ∀ r ∈ s.rows u, test r = true → sameName c k = false) {detach : Bool} {rows : List Row}
    (hids : σ.Binds u V.table c → rows.filterMap (·.get? k) ⊆ ids)
    (htake : s.Takes u c test detach rows s') : s'.Honors st σ.Composes (V.busy.add u ids) := by
  have hschema := hkept.schema_eq h.orderly.intact
  refine h.of_busy_add htake.within ((h.honors_busy.mono fun _ _ => ?_).takes (by rw [hschema, hk])
    hkey (fun F n y hb hhit hreads => ?_) htake)
  · exact fun hbusy => Or.inl (Or.inl hbusy)
  · rw [htake.rows] at hids
    exact hb.going_of_cut hkept.strict hschema hlink hk htest hkey hids hhit hreads

/-- **Removing links honors the bonds**, if what is behind them is among the
owned rows where it is composed. -/
theorem honors_of_unlink (h : V.Expects σ st s batch) (hkept : σ.WellKept st) {b : Bridge}
    (hbridge : σ.schema.IsBridge V.table b) {links : List Row}
    (hids : σ.Means b.farTable V.table b.table.name .composition →
      links.filterMap (·.get? b.farColumn) ⊆ ids)
    (hdelete : s.deleteWhere b.table (pointsInto batch b.nearColumn) = .ok (links, s')) :
    s'.Honors st σ.Composes (V.busy.add b.farTable ids) := by
  have hschema := hkept.schema_eq h.orderly.intact
  obtain ⟨rfl, rfl⟩ := Store.deleteWhere_of_restricts (hschema ▸ hkept.strict.restricts) hdelete
  refine h.of_busy_add (Store.within_removeRows s _ _)
    (Store.Honors.removeRows (h.honors_busy.mono fun _ _ => ?_) fun F n y hb hhit => ?_)
  · exact fun hbusy => Or.inl (Or.inl hbusy)
  · exact (hb.going_of_unlink hkept.strict hschema hbridge hids hhit).of_within
      (Store.within_removeRows s _ _)

/-- **What is owned at a front is expected**: rows that are tied to the
batch, all of them if they are composed. -/
theorem toOwned (h : V.Expects σ st s batch) (hkept : σ.WellKept st)
    (hls : σ.schema.fronts V.table = .ok (before ++ l :: after))
    (hsettled : ∀ l ∈ before, σ.Needs V.table l → V.Settled σ s batch l)
    (howned : l.owned? = some (u, link)) (hs' : σ.Orderly st s') (hw : s'.Within s)
    (hids : ∀ x ∈ ids, s'.HasRow u x → ∃ v ∈ batch, σ.Tied s V.table V.caller l v u x)
    (hall : σ.Means u V.table link .composition → ∀ v ∈ batch, ∀ x,
      σ.Tied s V.table V.caller l v u x → ¬ V.busy u x → x ∈ ids)
    (hhonors : s'.Honors st σ.Composes (V.busy.add u ids))
    (hshared : l.isChecked = true → σ.Means u V.table link .aggregation → σ.Released s' u ids) :
    (V.toOwned σ st before l u link).Expects σ st s' ids where
  orderly := hs'
  spelling _ _ _ hsame hbusy := h.busy_congr hsame hbusy
  arrival x hx hrow := by
    have hl : l ∈ before ++ l :: after := by simp
    obtain ⟨v, hv, htied⟩ := hids x hx hrow
    obtain ⟨a, ha, harrived⟩ := h.arrival v hv
      (hkept.hasRow_of_tied h.orderly.intact hls hl htied (hrow.of_within hw))
    have hgone (n : TableName) (y : Int) (hy : V.swept σ st before a n y) : ¬ s'.HasRow n y :=
      fun hrow => h.not_hasRow_of_swept hkept harrived hls (List.subset_append_left _ _) hsettled hy
        (hrow.of_within hw)
    refine ⟨_, ⟨fun hy => hgone u x hy hrow, v, a, ha,
      htied.of_intact hkept h.orderly.intact hls hl, rfl⟩, hgone, fun y hy hrow => ?_⟩
    rcases hy with rfl | ⟨hmeans, hfree, m, hm, hmate⟩
    · exact hx
    · -- a mate that is still there is tied to the batch as well
      have hrow := Store.HasRow.of_within hrow hw
      have hnow := h.tied_of_hasRow hkept hls hl (fun o link' ho => by
        rw [howned] at ho
        cases ho
        exact hmeans) hmate hrow hfree
      exact hall hmeans m (harrived.mates m hm
        (hkept.hasRow_of_tied h.orderly.intact hls hl hnow hrow)) y hnow hfree
  honors := hhonors
  shared := fun ⟨hchecked, hmeans⟩ => hshared hchecked hmeans

/-- **Subtypes are expected** for rows of the batch, and for all of them if
they store no classes. -/
theorem toSubtype (h : V.Expects σ st s batch) (hkept : σ.WellKept st)
    (hls : σ.schema.fronts V.table = .ok (before ++ .subtypes :: after))
    (hsettled : ∀ l ∈ before, σ.Needs V.table l → V.Settled σ s batch l)
    (hsub : σ.schema.IsSubtype u V.table) (hids : ids ⊆ batch)
    (hall : ¬ σ.Typed V.table u → batch ⊆ ids) :
    (V.toSubtype σ st before u).Expects σ st s ids where
  orderly := h.orderly
  spelling _ _ _ hsame hbusy := h.busy_congr hsame hbusy
  arrival v hv hrow := by
    obtain ⟨a, ha, harrived⟩ := h.arrival v (hids hv)
      (hkept.hasRow_of_subtype h.orderly.intact hsub hrow)
    have hgone (n : TableName) (y : Int) (hy : V.swept σ st before a n y) : ¬ s.HasRow n y :=
      h.not_hasRow_of_swept hkept harrived hls (List.subset_append_left _ _) hsettled hy
    refine ⟨_, ⟨fun hy => hgone u v hy hrow, a, ha, rfl⟩, hgone, fun y hy hrow => ?_⟩
    rcases hy with rfl | ⟨huntyped, hmate⟩
    · exact hv
    · exact hall huntyped (harrived.mates y hmate
        (hkept.hasRow_of_subtype h.orderly.intact hsub hrow))
  honors := h.honors_busy.mono fun _ _ => Or.inl
  shared := False.elim

/-! ## When the rows are gone -/

/-- What is pending is so in every spelling. -/
theorem pending_congr (h : V.Expects σ st s batch) (hsame : u.same w) (hu : V.pending σ st u y) :
    V.pending σ st w y := by
  refine hu.imp (h.spelling u w y hsame) fun ⟨v, a, ha, hwhy⟩ => ⟨v, a, ha, ?_⟩
  refine hwhy.imp (fun ⟨c, hlink, hother, hkind, hcell⟩ => ⟨c, ?_, ?_, ?_, hcell⟩)
    fun ⟨hsub, heq⟩ => ⟨hsub.congr (TableName.same_refl _) hsame, heq⟩
  · exact hlink.congr (TableName.same_refl _) (sameName_refl _) hsame
  · rw [← TableName.same_congr_right hsame, hother]
  · exact hkind.congr hsame (TableName.same_refl _) (sameName_refl _)

/-- **What the rows were bound to is pending** when they are gone. -/
theorem honors_pending (h : V.Expects σ st s batch) (hkept : σ.WellKept st)
    (hk : σ.schema.key? V.table = some k) {f : DeleteFunction} (htable : V.table.same f.table)
    {removed : List Row} (hdelete : s.deleteWhere f.table (pointsInto batch k) = .ok (removed, s')) :
    s'.Honors st σ.Composes (V.pending σ st) := by
  have hschema := hkept.schema_eq h.orderly.intact
  have hkf : s.schema.key? f.table = some k := by rw [hschema, ← Schema.key?_congr htable, hk]
  have hgone : ∀ v ∈ batch, ¬ s'.HasRow f.table v :=
    fun v hv => Program.not_hasRow_of_deleteWhere hkf hdelete hv
  obtain ⟨-, rfl⟩ := Store.deleteWhere_of_restricts (hschema ▸ hkept.strict.restricts) hdelete
  -- a row that is hit came with the batch
  have hrow {n : TableName} {l : String} {q : Row} {x : Int} (hsame : f.table.same n)
      (hl : s.schema.key? n = some l) (hq : q ∈ s.rows n) (htest : pointsInto batch k q = true)
      (hx : q.get? l = some x) : V.table.same n ∧ x ∈ batch ∧ ∃ a, V.rows x a := by
    rw [← Schema.key?_congr hsame, hkf] at hl
    cases hl
    obtain ⟨y, hy, hqy⟩ := pointsInto_iff.1 htest
    rw [hx] at hqy
    cases hqy
    have hVn := TableName.same_trans htable hsame
    obtain ⟨a, ha, -⟩ := h.arrival x hy
      ⟨k, by rw [hschema, hk], q, by rwa [Store.rows_congr s hVn], hx⟩
    exact ⟨hVn, hy, a, ha⟩
  refine Store.Honors.of_add ?_ hgone
  refine Store.Honors.removeRows (h.honors.mono fun u v hD => ?_) fun F u y hb hhit => ?_
  · exact hD.imp Or.inl fun ⟨hsame, hv⟩ =>
      ⟨TableName.same_trans (TableName.same_symm htable) hsame, hv⟩
  cases hb with
  | @part n _ x _ c link means =>
    obtain ⟨hsame, l, hl, q, hq, htest, hx, -⟩ := hhit
    obtain ⟨-, hmem, -⟩ := hrow hsame hl hq htest hx
    exact Store.going_add hsame hmem
  | @target n _ x _ c link other means =>
    obtain ⟨hsame, l, hl, q, hq, htest, hx, hy⟩ := hhit
    obtain ⟨hVn, hmem, a, ha⟩ := hrow hsame hl hq htest hx
    have hnV := TableName.same_symm hVn
    refine Or.inr (Or.inl (Or.inr ⟨x, a, ha, Or.inl ⟨c, ?_, ?_, ?_, ?_⟩⟩))
    · exact link.congr hnV (sameName_refl _) (TableName.same_refl _)
    · rw [TableName.same_congr_left hVn, other]
    · exact ⟨u, n, c, by simp, hnV, by simp,
        means _ _ _ (by simp) (by simp) (by simp)⟩
    · exact h.orderly.intact.within.holds
        ⟨l, by rw [Schema.key?_congr hVn, hl], q, by rwa [Store.rows_congr s hVn], hx, hy⟩
  | @supertype n _ x l isSubtype key =>
    obtain ⟨hsame, l', hl', q, hq, htest, hx, -⟩ := hhit
    obtain ⟨hVn, hmem, a, ha⟩ := hrow hsame hl' hq htest hx
    refine Or.inr (Or.inl (Or.inr ⟨_, a, ha, Or.inr ⟨?_, rfl⟩⟩))
    exact isSubtype.congr (TableName.same_symm hVn) (TableName.same_refl _)
  | far bridge =>
    obtain ⟨hsame, -⟩ := hhit
    rw [Schema.key?_congr hsame, hschema, bridge.key?_eq_none] at hkf
    cases hkf

/-- What is to be gone when the rows are, is. -/
theorem not_hasRow_of_after (h : V.Expects σ st s batch) (hkept : σ.WellKept st) {a : Arrival}
    (ha : V.Arrived a s batch) (hls : σ.schema.fronts V.table = .ok done)
    (hsettled : ∀ l ∈ done, σ.Needs V.table l → V.Settled σ s batch l) (hw : s'.Within s)
    (hgone : ∀ v ∈ batch, ¬ s'.HasRow V.table v) (hy : V.after σ st done a u y) :
    ¬ s'.HasRow u y := by
  intro hrow
  rcases hy with hswept | ⟨hsame, hmate⟩
  · exact h.not_hasRow_of_swept hkept ha hls (fun _ hl => hl) hsettled hswept (hrow.of_within hw)
  · have hrow := (Store.hasRow_congr hsame).2 hrow
    exact hgone y (ha.mates y hmate (hrow.of_within hw)) hrow

/-- **What the rows pointed at and owned is expected**, all of it if it is
composed. -/
theorem toTarget (h : V.Expects σ st s batch) (hkept : σ.WellKept st)
    (hls : σ.schema.fronts V.table = .ok done)
    (hsettled : ∀ l ∈ done, σ.Needs V.table l → V.Settled σ s batch l)
    (hlink : σ.schema.Link V.table c u) (hother : V.table.same u = false)
    (hs' : σ.Orderly st s') (hw : s'.Within s) (hgone : ∀ v ∈ batch, ¬ s'.HasRow V.table v)
    (hhonors : s'.Honors st σ.Composes (V.pending σ st))
    (hids : ∀ x ∈ ids, ∃ v ∈ batch, (Fact.cell V.table v c x).Holds s)
    (hall : σ.Means u V.table c .composition → ∀ v ∈ batch, ∀ x,
      (Fact.cell V.table v c x).Holds s → x ∈ ids)
    (hshared : σ.Means u V.table c .aggregation → σ.Released s' u ids) :
    (V.toTarget σ st done u c).Expects σ st s' ids where
  orderly := hs'
  spelling _ _ _ hsame hpending := h.pending_congr hsame hpending
  arrival x hx hrow := by
    obtain ⟨v, hv, hcell⟩ := hids x hx
    obtain ⟨a, ha, harrived⟩ := h.arrival v hv (Fact.hasRow_of_cell hcell)
    have hafter (n : TableName) (y : Int) (hy : V.after σ st done a n y) : ¬ s'.HasRow n y :=
      h.not_hasRow_of_after hkept harrived hls hsettled hw hgone hy
    refine ⟨_, ⟨fun hy => hafter u x hy hrow, v, a, ha, h.orderly.intact.within.holds hcell, rfl⟩,
      hafter, fun y hy hrow => ?_⟩
    rcases hy with rfl | ⟨hmeans, hfree, m, hm, hmate⟩
    · exact hx
    · -- a mate that is still there was pointed at by a row of the batch
      rcases h.honors _ _ _ (.target hlink hother hmeans) hmate with hnow | hleft | hdoomed | ⟨hsame, -⟩
      · exact hall hmeans m (harrived.mates m hm (Fact.hasRow_of_cell hnow)) y hnow
      · exact absurd (Store.HasRow.of_within hrow hw) hleft
      · exact absurd hdoomed hfree
      · rw [hother] at hsame
        cases hsame
  honors := hhonors.mono fun _ _ => Or.inl
  shared := hshared

/-- **The supertype is expected** for the rows that went. -/
theorem toSupertype (h : V.Expects σ st s batch) (hkept : σ.WellKept st)
    (hls : σ.schema.fronts V.table = .ok done)
    (hsettled : ∀ l ∈ done, σ.Needs V.table l → V.Settled σ s batch l)
    (hsub : σ.schema.IsSubtype V.table u) (hs' : σ.Orderly st s') (hw : s'.Within s)
    (hgone : ∀ v ∈ batch, ¬ s'.HasRow V.table v)
    (hhonors : s'.Honors st σ.Composes (V.pending σ st))
    (hids : ∀ v ∈ ids, ∃ a, V.rows v a ∧ V.Arrived a s batch)
    (hall : ∀ v ∈ batch, s.HasRow V.table v → v ∈ ids) :
    (V.toSupertype σ st done u).Expects σ st s' ids where
  orderly := hs'
  spelling _ _ _ hsame hpending := h.pending_congr hsame hpending
  arrival v hv hrow := by
    obtain ⟨a, ha, harrived⟩ := hids v hv
    have hafter (n : TableName) (y : Int) (hy : V.after σ st done a n y) : ¬ s'.HasRow n y :=
      h.not_hasRow_of_after hkept harrived hls hsettled hw hgone hy
    refine ⟨_, ⟨fun hy => hafter u v hy hrow, a, ha, rfl⟩, hafter, fun y hy hrow => ?_⟩
    rcases hy with rfl | ⟨hmate, hfree, k, hk, q, hq, hqy⟩
    · exact hv
    · -- a mate whose row of the supertype is there had its own row till the end
      rcases h.honors _ _ _ (.supertype hsub (hkept.schema ▸ hk)) ⟨k, hk, q, hq, hqy, hqy⟩ with
        hnow | hleft | hdoomed | ⟨hsame, -⟩
      · have hrow := Fact.hasRow_of_cell hnow
        exact hall y (harrived.mates y hmate hrow) hrow
      · exact absurd (Store.HasRow.of_within hrow hw) hleft
      · exact absurd hdoomed hfree
      · obtain ⟨-, -, -, hother⟩ := hsub
        rw [hother] at hsame
        cases hsame
  honors := hhonors.mono fun _ _ => Or.inl
  shared := False.elim

end Visit.Expects

end DeleteCascade
