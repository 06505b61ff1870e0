import DeleteCascade.Proofs.Deletion.Composition
import DeleteCascade.Proofs.Synthesis.Owners
/-!
# Deletion — shared rows go with their last owner

A row that is only ever owned by aggregation is left after a deletion
exactly if one of its owners is (`delete_keeps_shared`). What ties it to its
owners is in several places: in its own columns, in rows that point at it,
in bridges (`Ties`). A run has to get two things right, and `KeepsTies` is both:
a tie is cut only if the owner is going, and a row that loses a tie has
another one left or is going itself. The first rests on owner checks that
miss no tie (`isOwned_of_linked`), the second on owner checks that see none
that is not there (`linked_of_isOwned`).
-/

namespace DeleteCascade

namespace Setting

variable {σ : Setting} {st s s' : Store} {n t u w : TableName} {batch ids : List Int}
variable {D D' E E' : Doom} {c key : String} {v x : Int} {F : Fact} {f : DeleteFunction}
variable {notes captured : List String} {k : Option Int}

/-! ## Ties -/

/-- **What ties a row of a shared table to a row that owns it.** The tied
row is given by its key, if its table has one. -/
inductive Ties (σ : Setting) (n : TableName) : Fact → Option Int → TableName → Int → Prop
  | column {o : TableName} {c : String} {x v : Int} (link : σ.schema.Link n c o)
      (owns : σ.MayOwn n o c) : Ties σ n (.cell n x c v) (some x) o v
  | keyless {o : TableName} {c : String} {r : Row} {v : Int} (noKey : σ.schema.key? n = none)
      (link : σ.schema.Link n c o) (owns : σ.MayOwn n o c) (value : r.get? c = some v) :
      Ties σ n (.row n r) none o v
  | reference {u : TableName} {c : String} {x v : Int} (link : σ.schema.Link u c n)
      (other : u.same n = false) (plain : ¬ σ.schema.LinksBy n u c) (owns : σ.MayOwn n u c) :
      Ties σ n (.cell u v c x) (some x) u v
  | bridge {b : Bridge} {q : Row} {x v : Int} (isBridge : σ.schema.IsBridge n b)
      (owns : σ.MayOwn n b.farTable b.table.name) (near : q.get? b.nearColumn = some x)
      (far : q.get? b.farColumn = some v) : Ties σ n (.row b.table q) (some x) b.farTable v

/-- A row with this key has an owner. -/
def Linked (σ : Setting) (n : TableName) (s : Store) (x : Int) : Prop :=
  ∃ F w v, σ.Ties n F (some x) w v ∧ F.Holds s

/-- No table is linked to `n` by being its bridge. -/
def NoBridge (σ : Setting) (n : TableName) : Prop :=
  ∀ t b, σ.schema.IsBridge t b → b.table.same n = false

/-- A table with a key of one column is no bridge. -/
theorem noBridge_of_key? {k : String} (hk : σ.schema.key? n = some k) :
    σ.NoBridge n := by
  intro t b hb
  refine Bool.eq_false_iff.2 fun hsame => ?_
  rw [← Schema.key?_congr hsame, hb.key?_eq_none] at hk
  cases hk

/-- What ties a row is not made by a run. -/
theorem Ties.holds_of_intact (h : σ.Ties n F k w v)
    (hschema : s.schema = σ.schema) (hs : Store.Intact s s') (hF : F.Holds s') : F.Holds s := by
  cases h with
  | column => exact hs.within.holds hF
  | keyless noKey => exact hs.frozen n (by rw [hs.within.schema, hschema, noKey]) _ hF
  | reference => exact hs.within.holds hF
  | bridge isBridge =>
    have hnone := isBridge.key?_eq_none
    exact hs.frozen _ (by rw [hs.within.schema, hschema, hnone]) _ hF

theorem Linked.of_intact (h : σ.Linked n s' x)
    (hschema : s.schema = σ.schema) (hs : Store.Intact s s') : σ.Linked n s x := by
  obtain ⟨F, w, v, htie, hF⟩ := h
  exact ⟨F, w, v, htie, htie.holds_of_intact hschema hs hF⟩

/-! ## Owner checks -/

theorem OwnedVia.congr {o : Owner} (h : σ.OwnedVia u o) (hu : u.same n) : σ.OwnedVia n o := by
  have howns {owner : TableName} {link : String} (h : σ.MayOwn u owner link) :
      σ.MayOwn n owner link := by
    obtain ⟨kind, hkind, howning⟩ := h
    exact ⟨kind, hkind.congr hu (by simp) (by simp), howning⟩
  cases h with
  | column link owns => exact .column (link.congr hu (by simp) (by simp)) (howns owns)
  | reference link other plain owns =>
    refine .reference (link.congr (by simp) (by simp) hu) ?_ (fun hlinks => plain ?_) (howns owns)
    · rw [← TableName.same_congr_right hu, other]
    · exact hlinks.congr (TableName.same_symm hu)
  | bridge isBridge owns => exact .bridge (isBridge.congr hu) (howns owns)

/-- **An owner that is found owns the row.** -/
theorem IsShared.linked_of_isOwned (hn : σ.IsShared n) (hg : σ.schema.Strict)
    (hst : st.schema = σ.schema) (hkeys : st.KeysGiven) (hs : Store.Intact st s) (hu : u.same n)
    {l : String} (hl : σ.schema.key? n = some l) (hlk : sameName l key) {owners : List Owner}
    (hcheck : (σ.ownerCheck u).outcome = .ok owners)
    (h : owners.any (s.isOwned u key x) = true) : σ.Linked n s x := by
  have hschema : s.schema = σ.schema := hs.within.schema.trans hst
  obtain ⟨o, ho, howned⟩ := List.any_eq_true.1 h
  cases (ownedVia_of_mem hg.regular hg.oneKey hcheck ho).congr hu with
  | @column o c link owns =>
    obtain ⟨r, hr, htest⟩ := List.any_eq_true.1 howned
    simp only [Bool.and_eq_true, beq_iff_eq, Option.isSome_iff_exists] at htest
    obtain ⟨hx, v, hv⟩ := htest
    refine ⟨_, o, v, .column link owns, l, by rw [hschema, hl], r, ?_, ?_, hv⟩
    · rwa [← Store.rows_congr s hu]
    · rw [Row.get?_congr r hlk, hx]
  | @reference w c link other plain owns =>
    obtain ⟨r, hr, hx⟩ := Store.hasValue_iff.1 howned
    obtain ⟨m, hm⟩ := Option.isSome_iff_exists.1 (hn.reference w c link other plain owns).2
    obtain ⟨v, hv⟩ := hs.key hkeys (by rw [hschema, hm]) hr
    exact ⟨_, w, v, .reference link other plain owns, m, by rw [hschema, hm], r, hr, hv, hx⟩
  | @bridge b isBridge owns =>
    obtain ⟨q, hq, hx⟩ := Store.hasValue_iff.1 howned
    -- the columns of a bridge are those of its key
    obtain ⟨d, k, k', hd, hpk, hpair⟩ := (isBridge.spec hg.regular).pair
    have hqst := hs.frozen b.table (by rw [hschema, isBridge.key?_eq_none]) q hq
    have hvalue := hkeys b.table d (by rw [hst, hd]) q hqst
    rw [hpk] at hvalue
    have hfar : ∃ v, q.get? b.farColumn = some v := by
      rcases hpair with ⟨-, hk'⟩ | ⟨hk, -⟩
      · obtain ⟨v, hv⟩ := hvalue k' (by simp)
        exact ⟨v, by rw [← Row.get?_congr q hk', hv]⟩
      · obtain ⟨v, hv⟩ := hvalue k (by simp)
        exact ⟨v, by rw [← Row.get?_congr q hk, hv]⟩
    obtain ⟨v, hv⟩ := hfar
    exact ⟨_, b.farTable, v, .bridge isBridge owns hx hv, hq⟩

/-- **An owner of the row is found.** -/
theorem IsShared.isOwned_of_linked (hn : σ.IsShared n) (hg : σ.schema.Strict)
    (hschema : s.schema = σ.schema) (hu : u.same n) {l : String} (hl : σ.schema.key? n = some l)
    (hlk : sameName l key) {owners : List Owner} (hcheck : (σ.ownerCheck u).outcome = .ok owners)
    (h : σ.Linked n s x) : owners.any (s.isOwned u key x) = true := by
  have hfound {o : Owner} (hvia : σ.OwnedVia n o) (hlike : ∀ o', o'.Like o → s.isOwned u key x o') :
      owners.any (s.isOwned u key x) = true := by
    obtain ⟨o', ho', hlike'⟩ := hn.exists_owner hg.regular hu hcheck hvia
    exact List.any_eq_true.2 ⟨o', ho', hlike o' hlike'⟩
  -- where rows point at the row, in any spelling
  have hreferencing {w : TableName} {c : String} {r : Row} (hr : r ∈ s.rows w)
      (hx : r.get? c = some x) (o' : Owner) (hlike : o'.Like (.referencing w c)) :
      s.isOwned u key x o' = true := by
    cases o' with
    | ownColumn c' => cases hlike
    | referencing w' c' =>
      refine Store.hasValue_iff.2 ⟨r, ?_, ?_⟩
      · rwa [Store.rows_congr s hlike.1]
      · rw [Row.get?_congr r hlike.2, hx]
  obtain ⟨F, w, v, htie, hF⟩ := h
  cases htie with
  | @column _ c _ _ link owns =>
    obtain ⟨l', hl', r, hr, hx, hv⟩ := hF
    rw [hschema, hl] at hl'
    cases hl'
    refine hfound (.column link owns) fun o' hlike => ?_
    cases o' with
    | ownColumn c' =>
      have hc : sameName c' c := hlike
      refine List.any_eq_true.2 ⟨r, by rwa [Store.rows_congr s hu], ?_⟩
      rw [← Row.get?_congr r hlk, hx, Row.get?_congr r hc, hv]
      simp
    | referencing => cases hlike
  | reference link other plain owns =>
    obtain ⟨l', hl', r, hr, hv, hx⟩ := hF
    exact hfound (.reference link other plain owns) (hreferencing hr hx)
  | bridge isBridge owns near far =>
    exact hfound (.bridge isBridge owns) (hreferencing hF near)

/-- What is owned through a bridge is shared, from whichever side the bridge
is seen. -/
theorem IsShared.bridge_far (hn : σ.IsShared n) (hg : σ.schema.Strict) {br : Bridge}
    (hbr : σ.schema.IsBridge t br) (hfar : br.farTable.same n)
    (howns : σ.MayOwn n t br.table.name) : σ.Means n t br.table.name .aggregation := by
  obtain ⟨b, hb, htable, ht, -⟩ := hbr.flip hg.regular hg.oneKey
  have hname := TableName.sameName_of_same htable
  obtain ⟨kind, hkind, howning⟩ := howns
  have hmeans := hn.bridge b (hb.congr hfar)
    ⟨kind, hkind.congr (by simp) (TableName.same_symm ht) (sameName_symm hname), howning⟩
  exact hmeans.congr (by simp) ht hname

/-! ## Ties that are cut -/

/-- The rows of a batch are not owned, if they are rows of `n`. -/
def Unlinked (σ : Setting) (n : TableName) (s : Store) (t : TableName) (ids : List Int) : Prop :=
  t.same n → ∀ x ∈ ids, ¬ σ.Linked n s x

/-- **Cutting rows off** cuts only ties of shared rows through their own
columns. -/
theorem Ties.of_cut (htie : σ.Ties n F k w v) (hg : σ.schema.Strict) (hs : s.schema = σ.schema)
    (hlink : σ.schema.Link u c t) {l : String} (hl : σ.schema.key? u = some l) {test : Row → Bool}
    (htest : ∀ r, test r = true → pointsInto batch c r = true) (hunlinked : σ.Unlinked n s t batch)
    (hhit : F.Hit s u test) (hreads : F.Reads c) :
    u.same n ∧ σ.MayOwn n t c ∧ t.same w ∧ v ∈ batch ∧
      ∃ x, k = some x ∧ x ∈ ((s.rows u).filter test).filterMap (·.get? l) := by
  cases htie with
  | @column o c' x v link owns =>
    obtain ⟨hsame, l', hl', r, hr, hin, hx, hv⟩ := hhit
    have ht : t.same w := hlink.target_unique hg.oneKey
      (link.congr (TableName.same_symm hsame) (sameName_symm hreads) (by simp))
    obtain ⟨kind, hkind, howning⟩ := owns
    obtain ⟨y, hy, hry⟩ := pointsInto_iff.1 (htest r hin)
    rw [Row.get?_congr r hreads, hv] at hry
    cases hry
    rw [hs, ← Schema.key?_congr hsame, hl] at hl'
    cases hl'
    rw [← Store.rows_congr s hsame] at hr
    refine ⟨hsame, ⟨kind, hkind.congr (by simp) (TableName.same_symm ht) (sameName_symm hreads),
      howning⟩, ht, hy, x, rfl, ?_⟩
    exact List.mem_filterMap.2 ⟨r, List.mem_filter.2 ⟨hr, hin⟩, hx⟩
  | keyless noKey =>
    obtain ⟨hsame, -⟩ := hhit
    rw [Schema.key?_congr hsame, noKey] at hl
    cases hl
  | @reference u' c' x v link other plain owns =>
    obtain ⟨hsame, l', hl', r, hr, hin, hv, hx⟩ := hhit
    have ht : t.same n := hlink.target_unique hg.oneKey
      (link.congr (TableName.same_symm hsame) (sameName_symm hreads) (by simp))
    obtain ⟨y, hy, hry⟩ := pointsInto_iff.1 (htest r hin)
    rw [Row.get?_congr r hreads, hx] at hry
    cases hry
    exact absurd ⟨_, w, v, .reference link other plain owns, l', hl', r, hr, hv, hx⟩
      (hunlinked ht x hy)
  | bridge isBridge =>
    obtain ⟨hsame, -⟩ := hhit
    rw [Schema.key?_congr hsame, isBridge.key?_eq_none] at hl
    cases hl

/-- **Removing links** cuts only ties of shared rows to the batch. -/
theorem Ties.of_unlink (htie : σ.Ties n F k w v) (hg : σ.schema.Strict) (hs : s.schema = σ.schema)
    (hnb : σ.NoBridge n) {br : Bridge} (hbr : σ.schema.IsBridge t br)
    (hunlinked : σ.Unlinked n s t batch)
    (hhit : F.Hit s br.table (pointsInto batch br.nearColumn)) :
    br.farTable.same n ∧ σ.MayOwn n t br.table.name ∧ t.same w ∧ v ∈ batch ∧
      ∃ x, k = some x ∧ x ∈ ((s.rows br.table).filter
        (pointsInto batch br.nearColumn)).filterMap (·.get? br.farColumn) := by
  have hcell {u : TableName} {l : String} (hsame : br.table.same u) (hl : s.schema.key? u = some l) :
      False := by
    rw [hs, ← Schema.key?_congr hsame, hbr.key?_eq_none] at hl
    cases hl
  cases htie with
  | column =>
    obtain ⟨hsame, l, hl, -⟩ := hhit
    exact (hcell hsame hl).elim
  | keyless =>
    obtain ⟨hsame, -⟩ := hhit
    rw [hnb t br hbr] at hsame
    cases hsame
  | reference =>
    obtain ⟨hsame, l, hl, -⟩ := hhit
    exact (hcell hsame hl).elim
  | @bridge b q x v isBridge owns near far =>
    obtain ⟨hsame, hq, hin⟩ := hhit
    obtain ⟨y, hy, hqy⟩ := pointsInto_iff.1 hin
    rcases hbr.two_sides hg.regular hg.oneKey isBridge (TableName.same_symm hsame) with
      ⟨hnear, hfar, ht, hfarTable⟩ | ⟨hnear, hfar, ht, hfarTable⟩
    · -- the batch would be tied by the bridge
      rw [← Row.get?_congr q hnear, near] at hqy
      cases hqy
      exact absurd ⟨_, _, v, .bridge isBridge owns near far, hq⟩
        (hunlinked (TableName.same_symm ht) x hy)
    · rw [← Row.get?_congr q hfar, far] at hqy
      cases hqy
      obtain ⟨kind, hkind, howning⟩ := owns
      rw [← Store.rows_congr s hsame] at hq
      refine ⟨TableName.same_symm ht, ⟨kind, hkind.congr (by simp) hfarTable
        (TableName.sameName_of_same (TableName.same_symm hsame)), howning⟩,
        TableName.same_symm hfarTable, hy, x, rfl, ?_⟩
      exact List.mem_filterMap.2 ⟨q, List.mem_filter.2 ⟨hq, hin⟩, by
        rw [← Row.get?_congr q hnear, near]⟩

/-- **Deleting a batch** cuts only ties of shared rows that it points at. -/
theorem Ties.of_delete (htie : σ.Ties n F k w v)
    (hs : s.schema = σ.schema) {l : String} (hl : σ.schema.key? t = some l)
    (hunlinked : σ.Unlinked n s t batch) (hhit : F.Hit s t (pointsInto batch l)) :
    t.same w ∧ v ∈ batch ∧ ∃ c x, σ.schema.Link t c n ∧ t.same n = false ∧
      ¬ σ.schema.LinksBy n t c ∧ σ.MayOwn n t c ∧ k = some x ∧
      x ∈ ((s.rows t).filter (pointsInto batch l)).filterMap (·.get? c) := by
  cases htie with
  | @column o c x v link owns =>
    obtain ⟨hsame, l', hl', r, hr, hin, hx, hv⟩ := hhit
    have hkey := hl'
    rw [hs, ← Schema.key?_congr hsame, hl] at hkey
    cases hkey
    obtain ⟨y, hy, hry⟩ := pointsInto_iff.1 hin
    rw [hx] at hry
    cases hry
    exact absurd ⟨_, w, v, .column link owns, l, hl', r, hr, hx, hv⟩ (hunlinked hsame x hy)
  | keyless noKey =>
    obtain ⟨hsame, -⟩ := hhit
    rw [Schema.key?_congr hsame, noKey] at hl
    cases hl
  | @reference u c x v link other plain owns =>
    obtain ⟨hsame, l', hl', r, hr, hin, hv, hx⟩ := hhit
    rw [hs, ← Schema.key?_congr hsame, hl] at hl'
    cases hl'
    obtain ⟨y, hy, hry⟩ := pointsInto_iff.1 hin
    rw [hv] at hry
    cases hry
    obtain ⟨kind, hkind, howning⟩ := owns
    rw [← Store.rows_congr s hsame] at hr
    refine ⟨hsame, hy, c, x, link.congr (TableName.same_symm hsame) (by simp) (by simp), ?_, ?_,
      ⟨kind, hkind.congr (by simp) (TableName.same_symm hsame) (by simp), howning⟩, rfl, ?_⟩
    · rw [TableName.same_congr_left hsame, other]
    · rintro ⟨b, hb, htable, hnear⟩
      exact plain ⟨b, hb, TableName.same_trans htable hsame, hnear⟩
    · exact List.mem_filterMap.2 ⟨r, List.mem_filter.2 ⟨hr, hin⟩, hx⟩
  | bridge isBridge =>
    obtain ⟨hsame, -⟩ := hhit
    rw [Schema.key?_congr hsame, isBridge.key?_eq_none] at hl
    cases hl

/-! ## What a run keeps -/

/-- What ties shared rows binds their owners. -/
def OwnerBonds (σ : Setting) (n : TableName) : Bonds := fun F w v => ∃ k, σ.Ties n F k w v

/-- **What is kept of shared rows**: a tie is missing only if the owner is
going, and a row that was owned still is, or is going. -/
structure KeepsTies (σ : Setting) (n : TableName) (st s : Store) (D E : Doom) : Prop where
  honors : s.Honors st (σ.OwnerBonds n) D
  linked : ∀ x, σ.Linked n st x → σ.Linked n s x ∨ s.Going E n x

namespace KeepsTies

theorem refl (σ : Setting) (n : TableName) (st : Store) (D E : Doom) : σ.KeepsTies n st st D E :=
  ⟨.refl st _ D, fun _ h => Or.inl h⟩

theorem mono (h : σ.KeepsTies n st s D E) (hD : ∀ t v, D t v → D' t v) (hE : ∀ t v, E t v → E' t v) :
    σ.KeepsTies n st s D' E' :=
  ⟨h.honors.mono hD, fun x hx => (h.linked x hx).imp id fun hgoing => hgoing.mono hE⟩

/-- A doomed batch that is gone need not be doomed. -/
theorem of_add (h : σ.KeepsTies n st s (D.add t ids) E) (hgone : ∀ id ∈ ids, ¬ s.HasRow t id) :
    σ.KeepsTies n st s D E :=
  ⟨h.honors.of_add hgone, h.linked⟩

theorem of_pending (h : σ.KeepsTies n st s D (E.add t ids)) (hgone : ∀ id ∈ ids, ¬ s.HasRow t id) :
    σ.KeepsTies n st s D E :=
  ⟨h.honors, fun x hx => (h.linked x hx).imp id fun hgoing => hgoing.of_add hgone⟩

/-- Ties that are hit by a statement are looked at one by one. -/
theorem removeRows (h : σ.KeepsTies n st s D E) {test : Row → Bool}
    (hhit : ∀ F k w v, σ.Ties n F k w v → F.Hit s t test →
      (s.removeRows t test).Going D w v ∧ ∀ x, k = some x → (s.removeRows t test).Going E n x) :
    σ.KeepsTies n st (s.removeRows t test) D E := by
  refine ⟨h.honors.removeRows fun F w v ⟨k, htie⟩ hF => (hhit F k w v htie hF).1, fun x hx => ?_⟩
  rcases h.linked x hx with ⟨F, w, v, htie, hF⟩ | hgoing
  · rcases Fact.holds_removeRows hF with hF' | hF'
    · exact Or.inl ⟨F, w, v, htie, hF'⟩
    · exact Or.inr ((hhit F _ w v htie hF').2 x rfl)
  · exact Or.inr (hgoing.of_within (Store.within_removeRows s t test))

theorem takes (h : σ.KeepsTies n st s D E) {l : String} {test : Row → Bool} {detach : Bool}
    {rows : List Row} (hl : s.schema.key? t = some l)
    (hkey : ∀ r ∈ s.rows t, test r = true → sameName c l = false)
    (hhit : ∀ F k w v, σ.Ties n F k w v → F.Hit s t test → F.Reads c →
      s.Going D w v ∧ ∀ x, k = some x → s.Going E n x)
    (htake : s.Takes t c test detach rows s') : σ.KeepsTies n st s' D E := by
  have hwithin := htake.within
  refine ⟨h.honors.takes hl hkey (fun F w v ⟨k, htie⟩ hF hreads =>
    (hhit F k w v htie hF hreads).1) htake, fun x hx => ?_⟩
  rcases h.linked x hx with ⟨F, w, v, htie, hF⟩ | hgoing
  · rw [htake.store] at hwithin ⊢
    split
    · rename_i hdetach
      rw [if_pos hdetach] at hwithin
      rcases Fact.holds_clearWhere hl hkey hF with hF' | ⟨hF', hreads⟩
      · exact Or.inl ⟨F, w, v, htie, hF'⟩
      · exact Or.inr (((hhit F _ w v htie hF' hreads).2 x rfl).of_within hwithin)
    · exact Or.inl ⟨F, w, v, htie, hF⟩
  · exact Or.inr (hgoing.of_within hwithin)

end KeepsTies

/-! ## Calls -/

/-- **A call that keeps what ties shared rows**, provided that the rows it
is to delete are not owned. -/
def SharingCall (σ : Setting) (n : TableName) (st : Store) (t : TableName) (keys : List Int)
    (s s' : Store) : Prop :=
  Store.Intact st s → σ.Unlinked n s t keys →
    Store.Intact st s' ∧ (∀ v ∈ keys, ¬ s'.HasRow t v) ∧
      ∀ D E : Doom, σ.KeepsTies n st s D E → σ.KeepsTies n st s' D E

theorem SharingCall.congr (h : σ.SharingCall n st t ids s s') (ht : t.same u) :
    σ.SharingCall n st u ids s s' := by
  intro hs hunlinked
  obtain ⟨hs', hgone, hkeeps⟩ := h hs fun hn => hunlinked
    (TableName.same_trans (TableName.same_symm ht) hn)
  exact ⟨hs', fun v hv hrow => hgone v hv ((Store.hasRow_congr ht).2 hrow), hkeeps⟩

section Runs

variable {C : Calls} {caller : Caller} {frame frame' : Frame} {deleted : List Int}
variable {callee : Callee} {owners : List Owner}

/-- Rows that are not owned are deleted in the end. -/
theorem KeepsTies.of_deletesOwned
    (hC : ∀ {keys caller s deleted s'}, C callee.function keys caller s deleted s' →
      σ.SharingCall n st callee.table keys s s')
    (hcall : DeletesOwned C callee ids s deleted s') (hs : Store.Intact st s)
    (hcallee : callee.table.same n) (hunlinked : ∀ x ∈ ids, ¬ σ.Linked n s x)
    (h : σ.KeepsTies n st s D (E.add n ids)) : σ.KeepsTies n st s' D E := by
  cases hcall with
  | idle => exact h.of_pending fun id hid => absurd hid (by simp)
  | call run =>
    obtain ⟨-, hgone, hkeeps⟩ := hC run hs fun _ => hunlinked
    refine (hkeeps _ _ h).of_pending fun id hid hrow => ?_
    exact hgone id hid ((Store.hasRow_congr hcallee).2 hrow)

/-- Rows of other tables may be deleted anyway. -/
theorem KeepsTies.of_other
    (hC : ∀ {keys caller s deleted s'}, C callee.function keys caller s deleted s' →
      σ.SharingCall n st callee.table keys s s')
    (hcall : DeletesOwned C callee ids s deleted s') (hs : Store.Intact st s)
    (hcallee : callee.table.same n = false) (h : σ.KeepsTies n st s D E) : σ.KeepsTies n st s' D E := by
  cases hcall with
  | idle => exact h
  | call run =>
    obtain ⟨-, -, hkeeps⟩ := hC run hs fun hn => by
      rw [hcallee] at hn
      cases hn
    exact hkeeps _ _ h

/-- **Rows that lost a tie are checked**, and those that are not owned any
more are deleted. -/
theorem KeepsTies.of_check (hn : σ.IsShared n) (hg : σ.schema.Strict) (hst : st.schema = σ.schema)
    (hgiven : st.KeysGiven)
    (hC : ∀ {keys caller s deleted s'}, C callee.function keys caller s deleted s' →
      σ.SharingCall n st callee.table keys s s')
    (hu : u.same n) {l : String} (hl : σ.schema.key? n = some l) (hlk : sameName l key)
    (hcheck : (σ.ownerCheck u).outcome = .ok owners)
    (hcall : DeletesOwned C callee (s.unowned u key (some owners) ids) s deleted s')
    (hs : Store.Intact st s) (hcallee : callee.table.same u)
    (h : σ.KeepsTies n st s D (E.add n ids)) : σ.KeepsTies n st s' D E := by
  have hschema : s.schema = σ.schema := hs.within.schema.trans hst
  refine .of_deletesOwned hC hcall hs (TableName.same_trans hcallee hu) (fun x hx hlinked => ?_)
    ⟨h.honors, fun x hx => ?_⟩
  · have hunowned := (List.mem_filter.1 hx).2
    rw [hn.isOwned_of_linked hg hschema hu hl hlk hcheck hlinked] at hunowned
    cases hunowned
  · rcases h.linked x hx with hlinked | hgone | hE | ⟨hsame, hid⟩
    · exact Or.inl hlinked
    · exact Or.inr (Or.inl hgone)
    · exact Or.inr (Or.inr (Or.inl hE))
    · by_cases howned : owners.any (s.isOwned u key x) = true
      · exact Or.inl (hn.linked_of_isOwned hg hst hgiven hs hu hl hlk hcheck howned)
      · refine Or.inr (Or.inr (Or.inr ⟨hsame, List.mem_filter.2 ⟨hid, ?_⟩⟩))
        simp [howned]

/-- Subtypes have no shared rows. -/
theorem keeps_dispatches (hn : σ.IsShared n) {callees : List Callee} {noted noted' : List Int}
    (hsub : ∀ c ∈ callees, ∃ t, σ.schema.IsSubtype c.table t)
    (hC : ∀ {c keys caller s deleted s'}, c ∈ callees → C c.function keys caller s deleted s' →
      σ.SharingCall n st c.table keys s s')
    (hcalls : Dispatches C callees batch noted s noted' s') (hs : Store.Intact st s)
    (h : σ.KeepsTies n st s D E) : σ.KeepsTies n st s' D E := by
  induction hcalls with
  | done => exact h
  | call callee ids_subset run _ _ ih =>
    obtain ⟨t, ht⟩ := hsub _ callee
    obtain ⟨hs₁, -, hkeeps⟩ := hC callee run hs fun hsame =>
      absurd (ht.congr hsame (by simp)) (hn.noSupertype t)
    exact ih hs₁ (hkeeps _ _ h)

/-- **The blocks before the rows go keep what ties shared rows**, the batch
being doomed. -/
theorem keeps_early (hn : σ.IsShared n) (hnb : σ.NoBridge n) (hg : σ.schema.Strict)
    (hst : st.schema = σ.schema) (hgiven : st.KeysGiven)
    (hkey : σ.schema.key? f.table = some f.keyColumn) {b : Block Callee}
    (hplan : σ.Plans f.table (·.table) notes captured b) (hearly : b.kind.isEarly = true)
    (hC : ∀ {c keys caller s deleted s'}, c ∈ b.callees → C c.function keys caller s deleted s' →
      σ.SharingCall n st c.table keys s s')
    (hrun : b.Runs C f batch caller frame s frame' s') (hs : Store.Intact st s)
    (hunlinked : σ.Unlinked n s f.table batch)
    (h : σ.KeepsTies n st s (D.add f.table batch) E) : σ.KeepsTies n st s' (D.add f.table batch) E := by
  have hschema : s.schema = σ.schema := hs.within.schema.trans hst
  have hregular : s.schema.Regular := hschema ▸ hg.regular
  have hrestricts : s.schema.Restricts := hschema ▸ hg.restricts
  cases hrun with
  | @selfParts b _ _ s₁ _ parts deleted take call =>
    cases hplan with
    | selfParts link classified callee cut =>
      -- a shared row is no part of rows of its own table
      have hother : f.table.same n = false := by
        refine Bool.eq_false_iff.2 fun hsame => ?_
        have hagg := (hn.column b.column n ((link hg.regular).congr hsame (by simp) hsame)
          ⟨_, classified.congr hsame hsame (by simp), rfl⟩).1
        cases (classified.congr hsame hsame (by simp)).eq_of_means hagg
      have hpart (r : Row) (hr : f.isPart batch b.column r = true) :
          pointsInto batch b.column r = true := by
        simp only [DeleteFunction.isPart, Bool.and_eq_true] at hr
        exact hr.1
      have hnotKey : ∀ r ∈ s.rows f.table, f.isPart batch b.column r = true →
          sameName b.column f.keyColumn = false := fun r _ hr => f.isPart_key hr
      have hkeys : s.schema.key? f.table = some f.keyColumn := by rw [hschema, hkey]
      refine .of_other (hC (by simp [Block.callees])) call
        (take.intact hs hregular hkeys hnotKey) ?_
        (h.takes hkeys hnotKey (fun F k w v htie hhit hreads => ?_) take)
      · rw [TableName.same_congr_left callee, hother]
      · obtain ⟨hsame, -⟩ := htie.of_cut hg hschema (link hg.regular) hkey hpart hunlinked hhit hreads
        rw [hother] at hsame
        cases hsame
  | @childCascade b _ _ s₁ _ children deleted take call =>
    cases hplan with
    | @childCascade _ kind link other key notKey classified owning callee shared unshared =>
      have hnotKey : ∀ r ∈ s.rows b.child, pointsInto batch b.column r = true →
          sameName b.column b.childKey = false := fun _ _ _ => by rw [sameName_comm, notKey]
      have hkeys : s.schema.key? b.child = some b.childKey := by rw [hschema, key]
      have hs₁ := take.intact hs hregular hkeys hnotKey
      have hcut {F : Fact} {k : Option Int} {w : TableName} {v : Int} (htie : σ.Ties n F k w v) :=
        htie.of_cut hg hschema link key (fun _ hr => hr) hunlinked
      by_cases hchild : b.child.same n = true
      · obtain ⟨hmeans, hnullable⟩ := hn.column b.column f.table
          (link.congr hchild (by simp) (by simp))
          ⟨kind, classified.congr hchild (by simp) (by simp), owning⟩
        have hkind := (classified.congr hchild (by simp) (by simp)).eq_of_means hmeans
        cases hcheck : b.ownerCheck with
        | none =>
          have hnot := unshared hcheck hkind
          rw [Schema.isNullable, Schema.table?_congr _ hchild] at hnot
          rw [Schema.isNullable, hnot] at hnullable
          cases hnullable
        | some owners =>
          obtain ⟨-, -, hlist⟩ := shared owners hcheck
          rw [hcheck] at call
          refine .of_check hn hg hst hgiven (hC (by simp [Block.callees])) hchild
            (by rw [← Schema.key?_congr hchild, key]) (by simp) hlist call hs₁ callee ?_
          refine (h.mono (fun _ _ => id) fun _ _ => Or.inl).takes hkeys hnotKey
            (fun F k w v htie hhit hreads => ?_) take
          obtain ⟨-, -, ht, hv, x, rfl, hx⟩ := hcut htie hhit hreads
          refine ⟨Store.going_add ht hv, fun y hy => ?_⟩
          cases hy
          rw [take.rows]
          exact Store.going_add (by simp) hx
      · rw [Bool.not_eq_true] at hchild
        refine .of_other (hC (by simp [Block.callees])) call hs₁ ?_
          (h.takes hkeys hnotKey (fun F k w v htie hhit hreads => ?_) take)
        · rw [TableName.same_congr_left callee, hchild]
        · obtain ⟨hsame, -⟩ := hcut htie hhit hreads
          rw [hchild] at hsame
          cases hsame
  | bridgeOnly remove hnone =>
    cases hplan with
    | @bridgeCascade _ br kind isBridge table near far target targetKey classified check owned
        unowned =>
      rw [table, near] at remove
      obtain ⟨-, rfl⟩ := Store.deleteWhere_of_restricts hrestricts remove
      refine h.removeRows fun F k w v htie hhit => ?_
      obtain ⟨hfar, ⟨kind', hkind', howning⟩, -⟩ :=
        htie.of_unlink hg hschema hnb isBridge hunlinked hhit
      have hmeans := hn.bridge_far hg isBridge hfar ⟨kind', hkind', howning⟩
      have heq := (classified.congr hfar (by simp) (by simp)).eq_of_means hmeans
      obtain ⟨c, hc, -⟩ := owned (by rw [heq]; rfl)
      rw [hnone] at hc
      cases hc
  | @bridgeCascade b _ _ s₁ _ links deleted callee remove hsome call =>
    cases hplan with
    | @bridgeCascade _ br kind isBridge table near far target targetKey classified check owned
        unowned =>
      have hs₁ := hs.deleteWhere hrestricts remove
      rw [table, near] at remove
      have howning : kind.isOwning = true := by
        by_contra hnot
        rw [unowned (by simpa using hnot)] at hsome
        cases hsome
      obtain ⟨c, hc, hsame⟩ := owned howning
      rw [hsome, Option.some.injEq] at hc
      subst hc
      obtain ⟨hlinks, heq⟩ := Store.deleteWhere_of_restricts hrestricts remove
      have hcut {F : Fact} {k : Option Int} {w : TableName} {v : Int} (htie : σ.Ties n F k w v) :=
        htie.of_unlink hg hschema hnb isBridge hunlinked
      by_cases hfar : br.farTable.same n = true
      · have hmeans := hn.bridge_far hg isBridge hfar
          ⟨kind, classified.congr hfar (by simp) (by simp), howning⟩
        have hkind := (classified.congr hfar (by simp) (by simp)).eq_of_means hmeans
        obtain ⟨l, hl, hlk⟩ := (isBridge.spec hg.regular).farKey
        cases hcheck : b.ownerCheck with
        | none =>
          rw [hcheck] at check
          exact absurd hkind check
        | some owners =>
          rw [hcheck] at check call
          rw [target, targetKey] at call
          refine .of_check hn hg hst hgiven (hC (by simp [Block.callees, hsome])) hfar
            (by rw [← Schema.key?_congr hfar, hl]) hlk check.2 call hs₁ hsame ?_
          rw [heq]
          refine (h.mono (fun _ _ => id) fun _ _ => Or.inl).removeRows
            fun F k w v htie hhit => ?_
          obtain ⟨-, -, ht, hv, x, rfl, hx⟩ := hcut htie hhit
          refine ⟨Store.going_add ht hv, fun y hy => ?_⟩
          cases hy
          rw [hlinks, far]
          exact Store.going_add (by simp) hx
      · rw [Bool.not_eq_true] at hfar
        refine .of_other (hC (by simp [Block.callees, hsome])) call hs₁ ?_ ?_
        · rw [TableName.same_congr_left hsame, hfar]
        · rw [heq]
          refine h.removeRows fun F k w v htie hhit => ?_
          obtain ⟨hyes, -⟩ := hcut htie hhit
          rw [hfar] at hyes
          cases hyes
  | subtypeDispatch calls =>
    cases hplan with
    | subtypeDispatch subtypes =>
      exact keeps_dispatches hn (fun c hc => ⟨f.table, subtypes c hc⟩) hC calls hs h
  | localDelete => cases hearly
  | referencedCleanup => cases hearly
  | noParent => cases hearly
  | parentCascade => cases hearly

theorem keeps_front (hn : σ.IsShared n) (hnb : σ.NoBridge n) (hg : σ.schema.Strict)
    (hst : st.schema = σ.schema) (hgiven : st.KeysGiven)
    (hkey : σ.schema.key? f.table = some f.keyColumn) {bs : List (Block Callee)}
    (hplans : ∀ b ∈ bs, σ.Plans f.table (·.table) notes captured b)
    (hearly : ∀ b ∈ bs, b.kind.isEarly = true)
    (hI : ∀ {a n keys caller s deleted s'}, a.schema = σ.schema →
      C n keys caller s deleted s' → Store.Intact a s → Store.Intact a s')
    (hC : ∀ {c keys caller s deleted s'}, c ∈ bs.flatMap (·.callees) →
      C c.function keys caller s deleted s' → σ.SharingCall n st c.table keys s s')
    (hrun : Block.RunsAll C f batch caller bs frame s frame' s') (hs : Store.Intact st s)
    (hunlinked : σ.Unlinked n s f.table batch)
    (h : σ.KeepsTies n st s (D.add f.table batch) E) :
    Store.Intact st s' ∧ σ.Unlinked n s' f.table batch ∧
      σ.KeepsTies n st s' (D.add f.table batch) E := by
  induction hrun with
  | nil => exact ⟨hs, hunlinked, h⟩
  | @cons b rest frame frame₁ _ s s₁ _ first _ ih =>
    have hschema : s.schema = σ.schema := hs.within.schema.trans hst
    have hs₁ := first.intact hg.regular hg.restricts hst hkey (hplans b (by simp)) (hI hst) hs
    have hsince := first.intact hg.regular hg.restricts hschema hkey (hplans b (by simp))
      (hI hschema) hs.restart
    have hunlinked₁ : σ.Unlinked n s₁ f.table batch := fun hsame x hx hlinked =>
      hunlinked hsame x hx (hlinked.of_intact hschema hsince)
    refine ih (fun b' hb' => hplans b' (by simp [hb'])) (fun b' hb' => hearly b' (by simp [hb']))
      (fun hc hcall => hC (by
        rw [List.flatMap_cons]
        exact List.mem_append_right _ hc) hcall) hs₁ hunlinked₁ ?_
    exact keeps_early hn hnb hg hst hgiven hkey (hplans b (by simp)) (hearly b (by simp))
      (fun hc hcall => hC (by simp [hc]) hcall) first hs hunlinked h

/-- What the deleted rows pointed at, as far as it is still to be looked at. -/
def Pointed (frame : Frame) (bs : List (Block Callee)) : Doom := fun u v =>
  ∃ b, .referencedCleanup b ∈ bs ∧ b.target.same u ∧ v ∈ (frame.captured[b.slot]?).getD []

/-- **Deleting the batch keeps what ties shared rows**, those that it
pointed at being looked at later. -/
theorem keeps_delete (hn : σ.IsShared n) (hg : σ.schema.Strict) (hs : s.schema = σ.schema)
    (hkey : σ.schema.key? f.table = some f.keyColumn) {front back : List (Block Callee)}
    (hbody : σ.IsBody f.table (·.table) notes captured front back) {rows : List Row}
    (hdelete : s.deleteWhere f.table (pointsInto batch f.keyColumn) = .ok (rows, s'))
    (hcaptured : frame.captured =
      captured.map fun column => ascending (rows.filterMap (·.get? column)))
    (hunlinked : σ.Unlinked n s f.table batch)
    (h : σ.KeepsTies n st s (D.add f.table batch) E) :
    σ.KeepsTies n st s' D fun u v => E u v ∨ Pointed frame back u v := by
  have hgone : ∀ id ∈ batch, _ := fun id hid =>
    Program.not_hasRow_of_deleteWhere (by rw [hs, hkey]) hdelete hid
  obtain ⟨hrows, heq⟩ := Store.deleteWhere_of_restricts (hs ▸ hg.restricts) hdelete
  refine KeepsTies.of_add ?_ hgone
  rw [heq]
  refine (h.mono (fun _ _ => id) fun _ _ => Or.inl).removeRows fun F k w v htie hhit => ?_
  obtain ⟨ht, hv, c, x, hlink, hother, hplain, ⟨kind, hkind, howning⟩, rfl, hx⟩ :=
    htie.of_delete hs hkey hunlinked hhit
  refine ⟨Store.going_add ht hv, fun y hy => ?_⟩
  cases hy
  have hnotKey (l : String) (hl : σ.schema.key? f.table = some l) : sameName l c = false := by
    refine Bool.eq_false_iff.2 fun hsame => hn.noSubtype f.table ⟨l, hl, ?_, hother⟩
    exact hlink.congr (by simp) (sameName_symm hsame) (by simp)
  have hmeans := (hn.reference f.table c hlink hother hplain ⟨kind, hkind, howning⟩).1
  obtain ⟨b, hblock, hcol, htarget⟩ := hbody.targets hg.regular c n hlink hother hnotKey
    fun kind hkind => by
      rw [hkind.eq_of_means hmeans]
      rfl
  have hplan := hbody.plans (.referencedCleanup b) (by simp [hblock])
  cases hplan with
  | referencedCleanup slot =>
    refine Or.inr (Or.inr ⟨b, hblock, htarget, ?_⟩)
    simp only [hcaptured, List.getElem?_map, slot, Option.map_some, Option.getD_some, mem_ascending,
      List.mem_filterMap]
    obtain ⟨r, hr, hrx⟩ := List.mem_filterMap.1 hx
    exact ⟨r, by rwa [hrows], by rw [Row.get?_congr r hcol, hrx]⟩

/-- **The blocks after the rows are gone look at what these pointed at.** -/
theorem keeps_late (hn : σ.IsShared n) (hg : σ.schema.Strict) (hst : st.schema = σ.schema)
    (hgiven : st.KeysGiven) (hkey : σ.schema.key? f.table = some f.keyColumn)
    {b : Block Callee} {rest : List (Block Callee)}
    (hplan : σ.Plans f.table (·.table) notes captured b)
    (hlate : (∃ c, b = .referencedCleanup c) ∨ ∃ callee, b = .parentCascade callee)
    (hC : ∀ {c keys caller s deleted s'}, c ∈ b.callees → C c.function keys caller s deleted s' →
      σ.SharingCall n st c.table keys s s')
    (hrun : b.Runs C f batch caller frame s frame' s') (hs : Store.Intact st s)
    (h : σ.KeepsTies n st s D fun u v => E u v ∨ Pointed frame (b :: rest) u v) :
    σ.KeepsTies n st s' D fun u v => E u v ∨ Pointed frame' rest u v := by
  cases hrun with
  | @referencedCleanup b _ _ _ deleted call =>
    cases hplan with
    | @referencedCleanup _ kind slot link other notKey classified owning key check callee =>
      have hsplit (u : TableName) (v : Int) (hE : E u v ∨ Pointed frame (.referencedCleanup b :: rest) u v) :
          (E u v ∨ Pointed frame rest u v) ∨
            (b.target.same u ∧ v ∈ (frame.captured[b.slot]?).getD []) := by
        rcases hE with hE | ⟨b', hb', htarget, hv⟩
        · exact Or.inl (Or.inl hE)
        · rcases List.mem_cons.1 hb' with heq | hrest
          · cases heq
            exact Or.inr ⟨htarget, hv⟩
          · exact Or.inl (Or.inr ⟨b', hrest, htarget, hv⟩)
      by_cases htarget : b.target.same n = true
      · have hlink : σ.schema.Link f.table b.column n :=
          (link hg.regular).congr (by simp) (by simp) htarget
        have hother : f.table.same n = false := by
          rw [← TableName.same_congr_right htarget, other hg.regular]
        have hplain : ¬ σ.schema.LinksBy n f.table b.column := by
          rintro ⟨br, hbr, htable, -⟩
          rw [← Schema.key?_congr htable, hbr.key?_eq_none] at hkey
          cases hkey
        have hclass : σ.Classifies n f.table b.column kind :=
          classified.congr htarget (by simp) (by simp)
        have hkind := hclass.eq_of_means
          (hn.reference f.table b.column hlink hother hplain ⟨kind, hclass, owning⟩).1
        obtain ⟨l, hl, hlk⟩ := key hg.regular
        cases hcheck : b.ownerCheck with
        | none =>
          rw [hcheck] at check
          exact absurd hkind check
        | some owners =>
          rw [hcheck] at check call
          refine .of_check hn hg hst hgiven (hC (by simp [Block.callees])) htarget
            (by rw [← Schema.key?_congr htarget, hl]) hlk check.2 call hs callee
            (h.mono (fun _ _ => id) fun u v hE => (hsplit u v hE).imp id fun ⟨hsame, hv⟩ => ?_)
          exact ⟨TableName.same_trans (TableName.same_symm htarget) hsame, hv⟩
      · rw [Bool.not_eq_true] at htarget
        refine .of_other (hC (by simp [Block.callees])) call hs ?_
          ⟨h.honors, fun x hx => (h.linked x hx).imp id fun hgoing => ?_⟩
        · rw [TableName.same_congr_left callee, htarget]
        · rcases hgoing with hgone | hE
          · exact Or.inl hgone
          · refine Or.inr ((hsplit n x hE).resolve_right ?_)
            rintro ⟨hsame, -⟩
            rw [htarget] at hsame
            cases hsame
  | @noParent callee _ _ idle =>
    refine h.mono (fun _ _ => id) fun u v hE => hE.imp id ?_
    rintro ⟨b', hb', howed⟩
    exact ⟨b', by simpa using hb', howed⟩
  | @parentCascade callee _ _ _ deleted calls run =>
    cases hplan with
    | parentCascade supertype =>
      obtain ⟨-, -, hkeeps⟩ := hC (by simp [Block.callees]) run hs fun hsame =>
        absurd ((supertype hg.regular).congr (by simp) hsame) (hn.noSubtype f.table)
      refine hkeeps _ _ (h.mono (fun _ _ => id) fun u v hE => hE.imp id ?_)
      rintro ⟨b', hb', howed⟩
      exact ⟨b', by simpa using hb', howed⟩
  | selfParts => rcases hlate with ⟨c, hc⟩ | ⟨c, hc⟩ <;> cases hc
  | childCascade => rcases hlate with ⟨c, hc⟩ | ⟨c, hc⟩ <;> cases hc
  | bridgeOnly => rcases hlate with ⟨c, hc⟩ | ⟨c, hc⟩ <;> cases hc
  | bridgeCascade => rcases hlate with ⟨c, hc⟩ | ⟨c, hc⟩ <;> cases hc
  | subtypeDispatch => rcases hlate with ⟨c, hc⟩ | ⟨c, hc⟩ <;> cases hc
  | localDelete => rcases hlate with ⟨c, hc⟩ | ⟨c, hc⟩ <;> cases hc

theorem keeps_back (hn : σ.IsShared n) (hg : σ.schema.Strict) (hst : st.schema = σ.schema)
    (hgiven : st.KeysGiven) (hkey : σ.schema.key? f.table = some f.keyColumn)
    {bs : List (Block Callee)} (hplans : ∀ b ∈ bs, σ.Plans f.table (·.table) notes captured b)
    (hlate : ∀ b ∈ bs, (∃ c, b = .referencedCleanup c) ∨ ∃ callee, b = .parentCascade callee)
    (hI : ∀ {n keys caller s deleted s'}, C n keys caller s deleted s' → Store.Intact st s →
      Store.Intact st s')
    (hC : ∀ {c keys caller s deleted s'}, c ∈ bs.flatMap (·.callees) →
      C c.function keys caller s deleted s' → σ.SharingCall n st c.table keys s s')
    (hrun : Block.RunsAll C f batch caller bs frame s frame' s') (hs : Store.Intact st s)
    (h : σ.KeepsTies n st s D fun u v => E u v ∨ Pointed frame bs u v) :
    σ.KeepsTies n st s' D E := by
  induction hrun with
  | nil =>
    refine h.mono (fun _ _ => id) fun u v hE => ?_
    rcases hE with hE | ⟨b, hb, -⟩
    · exact hE
    · cases hb
  | @cons b rest _ _ _ _ _ _ first _ ih =>
    have hs₁ := first.intact hg.regular hg.restricts hst hkey (hplans b (by simp)) hI hs
    refine ih (fun b' hb' => hplans b' (by simp [hb'])) (fun b' hb' => hlate b' (by simp [hb']))
      (fun hc hcall => hC (by
        rw [List.flatMap_cons]
        exact List.mem_append_right _ hc) hcall) hs₁ ?_
    exact keeps_late hn hg hst hgiven hkey (hplans b (by simp)) (hlate b (by simp))
      (fun hc hcall => hC (by simp [hc]) hcall) first hs h

/-- **A body keeps what ties shared rows.** -/
theorem keeps_body (hn : σ.IsShared n) (hnb : σ.NoBridge n) (hg : σ.schema.Strict)
    (hst : st.schema = σ.schema) (hgiven : st.KeysGiven)
    (hkey : σ.schema.key? f.table = some f.keyColumn) {front back : List (Block Callee)}
    (hbody : σ.IsBody f.table (·.table) notes captured front back)
    (hI : ∀ {a n keys caller s deleted s'}, a.schema = σ.schema →
      C n keys caller s deleted s' → Store.Intact a s → Store.Intact a s')
    (hC : ∀ {c keys caller s deleted s'},
      c ∈ (front ++ .localDelete captured :: back).flatMap (·.callees) →
      C c.function keys caller s deleted s' → σ.SharingCall n st c.table keys s s')
    (hrun : Block.RunsAll C f batch caller (front ++ .localDelete captured :: back) .empty s
      frame' s')
    (hs : Store.Intact st s) (hunlinked : σ.Unlinked n s f.table batch)
    (h : σ.KeepsTies n st s D E) : σ.KeepsTies n st s' D E := by
  obtain ⟨frame₁, s₁, hfront, hrest⟩ := hrun.append
  obtain ⟨hs₁, hunlinked₁, h₁⟩ := keeps_front hn hnb hg hst hgiven hkey
    (fun b hb => hbody.plans b (by simp [hb])) hbody.early hI (fun hc hcall => hC (by
      rw [List.flatMap_append]
      exact List.mem_append_left _ hc) hcall) hfront hs hunlinked
    (h.mono (fun _ _ => Or.inl) fun _ _ => id)
  cases hrest with
  | cons hlocal hback =>
    have hschema : s₁.schema = σ.schema := hs₁.within.schema.trans hst
    have hs₂ := hlocal.intact hg.regular hg.restricts hst hkey (hbody.plans _ (by simp)) (hI hst) hs₁
    refine keeps_back hn hg hst hgiven hkey (fun b hb => hbody.plans b (by simp [hb])) hbody.late
      (hI hst) (fun hc hcall => hC (by
        rw [List.flatMap_append, List.flatMap_cons]
        exact List.mem_append_right _ (List.mem_append_right _ hc)) hcall) hback hs₂ ?_
    cases hlocal with
    | localDelete remove => exact keeps_delete hn hg hschema hkey hbody remove rfl hunlinked₁ h₁

end Runs

/-- **Every call keeps what ties shared rows.** -/
theorem sharing_call {p : Program} {notes : List String} {name : String} {caller : Caller}
    {levels : Nat} {keys deleted : List Int} (hn : σ.IsShared n) (hnb : σ.NoBridge n)
    (hg : σ.schema.Strict) (hst : st.schema = σ.schema) (hgiven : st.KeysGiven)
    (hserves : ∀ {name f}, p.lookup name = some f → p.Serves σ notes f)
    (h : (p.call levels name keys caller).Yields s deleted s') :
    ∃ f, p.lookup name = some f ∧ σ.SharingCall n st f.table keys s s' := by
  refine p.call_induction (S := fun f keys _ s _ s' =>
    σ.SharingCall n st f.table keys s s') ?_ h
  intro deeper name f hf hcalls keys caller s deleted s' hrun hs hunlinked
  obtain ⟨hkey, ⟨captured, front, back, hblocks, hbody⟩, hcallees⟩ := hserves hf
  have hI {a : Store} {n keys caller s deleted s'} (ha : a.schema = σ.schema)
      (hcall : CallFunction.calls (p.call deeper) n keys caller s deleted s')
      (hs : Store.Intact a s) : Store.Intact a s' :=
    Program.call_intact hg.regular hg.restricts ha hserves hcall hs
  have hgone := Program.gone_of_runs (hserves hf) (hs.within.schema.trans hst) hrun
  cases hrun with
  | idle hempty => exact ⟨hs, hgone, fun D E h => h⟩
  | @body frame _ hrun =>
    rw [hblocks] at hrun
    refine ⟨hrun.intact hg.regular hg.restricts hst hkey hbody.plans (hI hst) hs, hgone,
      fun D E h => ?_⟩
    refine keeps_body hn hnb hg hst hgiven hkey hbody hI
      (fun {c keys caller s deleted s'} hc hcall => ?_) hrun hs
      (fun hsame x hx => hunlinked hsame x (mem_ascending.1 hx)) h
    obtain ⟨g, hlookup, hsharing⟩ := hcalls hcall
    refine hsharing.congr (hcallees c ?_ g hlookup)
    rw [DeleteFunction.callees, hblocks]
    exact hc

/-! ## Rows and their owners -/

/-- **The rows that own a row of a shared table**: those it points at,
those that point at it, and those behind its bridges. -/
inductive OwnerOf (σ : Setting) (st : Store) (n : TableName) (r : Row) : TableName → Row → Prop
  | column {o : TableName} {c : String} {p : Row} (row : p ∈ st.rows o)
      (points : st.schema.Points n r c o p) (owns : σ.MayOwn n o c) : OwnerOf σ st n r o p
  | reference {u : TableName} {c : String} {p : Row} (row : p ∈ st.rows u)
      (points : st.schema.Points u p c n r) (other : u.same n = false)
      (plain : ¬ st.schema.LinksBy n u c) (owns : σ.MayOwn n u c) : OwnerOf σ st n r u p
  | bridge {b : Bridge} {q p : Row} (isBridge : st.schema.IsBridge n b) (link : q ∈ st.rows b.table)
      (near : st.schema.Points b.table q b.nearColumn n r) (row : p ∈ st.rows b.farTable)
      (far : st.schema.Points b.table q b.farColumn b.farTable p)
      (owns : σ.MayOwn n b.farTable b.table.name) : OwnerOf σ st n r b.farTable p

section Owners

variable {r p : Row}

/-- **A row of which an owner is left is left.** -/
theorem OwnerOf.remains (howner : σ.OwnerOf st n r w p) (hn : σ.IsShared n) (hg : σ.schema.Strict)
    (hst : st.schema = σ.schema) (hgiven : st.KeysGiven) (hs : Store.Intact st s)
    (h : σ.KeepsTies n st s .nothing .nothing) (hr : r ∈ st.rows n) (hp : s.Remains w p) :
    s.Remains n r := by
  have hss : s.schema = st.schema := hs.within.schema
  have hregular : s.schema.Regular := by rw [hss, hst]; exact hg.regular
  have hholds {F : Fact} {k : Option Int} {w : TableName} {v : Int} (htie : σ.Ties n F k w v)
      (hF : F.Holds st) (hrow : s.HasRow w v) : F.Holds s :=
    (h.honors F w v ⟨k, htie⟩ hF).resolve_right fun hgoing => hgoing.elim (fun h => h hrow) id
  cases howner with
  | @column _ c _ row points owns =>
    obtain ⟨hlink, l, v, hl, hrv, hpv⟩ := points
    rw [Store.remains_iff (by rw [hss, hl]) hpv] at hp
    cases hk : st.schema.key? n with
    | none =>
      simp only [Store.Remains, hss, hk]
      exact hholds (.keyless (by rw [← hst, hk]) (hst ▸ hlink) owns hrv) hr hp
    | some k =>
      obtain ⟨x, hx⟩ := hgiven.value hk hr
      rw [Store.remains_iff (by rw [hss, hk]) hx]
      exact Fact.hasRow_of_cell
        (hholds (.column (hst ▸ hlink) owns) ⟨k, hk, r, hr, hx, hrv⟩ hp)
  | @reference _ c _ row points other plain owns =>
    obtain ⟨hlink, k, x, hk, hpx, hrx⟩ := points
    rw [hst] at hlink plain
    obtain ⟨l, hl⟩ := Option.isSome_iff_exists.1 (hn.reference w c hlink other plain owns).2
    rw [← hst] at hl
    obtain ⟨v, hv⟩ := hgiven.value hl row
    rw [Store.remains_iff (by rw [hss, hl]) hv] at hp
    rw [Store.remains_iff (by rw [hss, hk]) hrx]
    obtain ⟨-, -, p', hp', -, hp'x⟩ :=
      hholds (.reference hlink other plain owns) ⟨l, hl, p, row, hv, hpx⟩ hp
    exact hs.whole.hasRow hregular (by rw [hss, hst]; exact hlink) hp' hp'x
  | @bridge b q _ isBridge link near row far owns =>
    obtain ⟨hlink, k, x, hk, hqx, hrx⟩ := near
    obtain ⟨-, l, v, hl, hqv, hpv⟩ := far
    rw [Store.remains_iff (by rw [hss, hl]) hpv] at hp
    rw [Store.remains_iff (by rw [hss, hk]) hrx]
    have hq := hholds (.bridge (hst ▸ isBridge) owns hqx hqv) link hp
    exact hs.whole.hasRow hregular (by rw [hss]; exact hlink) hq hqx

/-- A tie that is left leads to an owner that is. -/
theorem Ties.exists_owner {x : Int} {k : String} (htie : σ.Ties n F (some x) w v)
    (hg : σ.schema.Strict) (hst : st.schema = σ.schema) (hunique : st.UniqueKeys)
    (hs : Store.Intact st s) (hk : st.schema.key? n = some k) (hr : r ∈ st.rows n)
    (hx : r.get? k = some x) (hF : F.Holds s) : ∃ p, σ.OwnerOf st n r w p ∧ s.Remains w p := by
  have hss : s.schema = st.schema := hs.within.schema
  have hregular : s.schema.Regular := by rw [hss, hst]; exact hg.regular
  have hbefore := htie.holds_of_intact hst hs hF
  have hremains {w : TableName} {v : Int} (hrow : s.HasRow w v) :
      ∃ l, st.schema.key? w = some l ∧ ∃ p ∈ st.rows w, p.get? l = some v ∧ s.Remains w p := by
    obtain ⟨l, hl, p, hp, hpv⟩ := hrow.of_within hs.within
    exact ⟨l, hl, p, hp, hpv, (Store.remains_iff (by rw [hss, hl]) hpv).2 hrow⟩
  cases htie with
  | @column _ c _ _ link owns =>
    rw [← hst] at link
    obtain ⟨-, -, r', hr', -, hr'v⟩ := hF
    obtain ⟨k', hk', r₀, hr₀, hr₀x, hr₀v⟩ := hbefore
    rw [hk] at hk'
    cases hk'
    obtain rfl := hunique.eq hk hr hr₀ hx hr₀x
    obtain ⟨l, hl, p, hp, hpv, hleft⟩ :=
      hremains (hs.whole.hasRow hregular (by rw [hss]; exact link) hr' hr'v)
    exact ⟨p, .column hp ⟨link, l, v, hl, hr₀v, hpv⟩ owns, hleft⟩
  | @reference _ c _ _ link other plain owns =>
    rw [← hst] at link plain
    obtain ⟨l, hl, p, hp, hpv, hpx⟩ := hbefore
    refine ⟨p, .reference hp ⟨link, k, x, hk, hpx, hx⟩ other plain owns, ?_⟩
    rw [Store.remains_iff (by rw [hss, hl]) hpv]
    exact Fact.hasRow_of_cell hF
  | @bridge b q _ _ isBridge owns near far =>
    rw [← hst] at isBridge
    have hspec := isBridge.spec (hst ▸ hg.regular)
    obtain ⟨l, hl, p, hp, hpv, hleft⟩ :=
      hremains (hs.whole.hasRow hregular (by rw [hss]; exact hspec.far) hF far)
    exact ⟨p, .bridge isBridge hbefore ⟨hspec.near, k, x, hk, near, hx⟩ hp
      ⟨hspec.far, l, v, hl, far, hpv⟩ owns, hleft⟩

/-- An owner ties its row. -/
theorem OwnerOf.linked {x : Int} {k : String} (howner : σ.OwnerOf st n r w p) (hn : σ.IsShared n)
    (hst : st.schema = σ.schema) (hgiven : st.KeysGiven) (hk : st.schema.key? n = some k)
    (hr : r ∈ st.rows n) (hx : r.get? k = some x) : σ.Linked n st x := by
  cases howner with
  | @column _ c _ row points owns =>
    obtain ⟨hlink, l, v, hl, hrv, hpv⟩ := points
    exact ⟨_, w, v, .column (hst ▸ hlink) owns, k, hk, r, hr, hx, hrv⟩
  | @reference _ c _ row points other plain owns =>
    obtain ⟨hlink, k', x', hk', hpx, hrx⟩ := points
    rw [hk] at hk'
    cases hk'
    rw [hx] at hrx
    cases hrx
    rw [hst] at hlink plain
    obtain ⟨l, hl⟩ := Option.isSome_iff_exists.1 (hn.reference w c hlink other plain owns).2
    rw [← hst] at hl
    obtain ⟨v, hv⟩ := hgiven.value hl row
    exact ⟨_, w, v, .reference hlink other plain owns, l, hl, p, row, hv, hpx⟩
  | @bridge b q _ isBridge link near row far owns =>
    obtain ⟨-, k', x', hk', hqx, hrx⟩ := near
    obtain ⟨-, l, v, hl, hqv, hpv⟩ := far
    rw [hk] at hk'
    cases hk'
    rw [hx] at hrx
    cases hrx
    exact ⟨_, b.farTable, v, .bridge (hst ▸ isBridge) owns hqx hqv, link⟩

/-- **A row that was owned is left only if one of its owners is.** -/
theorem exists_owner_of_remains (hn : σ.IsShared n) (hg : σ.schema.Strict)
    (hst : st.schema = σ.schema) (hunique : st.UniqueKeys) (hgiven : st.KeysGiven)
    (hs : Store.Intact st s) (h : σ.KeepsTies n st s .nothing .nothing) (hr : r ∈ st.rows n)
    (howned : ∃ w p, σ.OwnerOf st n r w p) (hleft : s.Remains n r) :
    ∃ w p, σ.OwnerOf st n r w p ∧ s.Remains w p := by
  obtain ⟨w, p, howner⟩ := howned
  cases hk : st.schema.key? n with
  | some k =>
    obtain ⟨x, hx⟩ := hgiven.value hk hr
    rw [Store.remains_iff (by rw [hs.within.schema, hk]) hx] at hleft
    rcases h.linked x (howner.linked hn hst hgiven hk hr hx) with ⟨F, w, v, htie, hF⟩ | hgoing
    · obtain ⟨p, hp⟩ := htie.exists_owner hg hst hunique hs hk hr hx hF
      exact ⟨w, p, hp⟩
    · exact (hgoing.elim (fun hgone => hgone hleft) id).elim
  | none =>
    simp only [Store.Remains, hs.within.schema, hk] at hleft
    cases id howner with
    | column row points owns =>
      obtain ⟨hlink, l, v, hl, hrv, hpv⟩ := points
      refine ⟨w, p, howner, ?_⟩
      rw [Store.remains_iff (by rw [hs.within.schema, hl]) hpv]
      refine hs.whole.hasRow ?_ (by rw [hs.within.schema]; exact hlink) hleft hrv
      rw [hs.within.schema, hst]
      exact hg.regular
    | reference row points =>
      obtain ⟨-, k, x, hk', -⟩ := points
      rw [hk] at hk'
      cases hk'
    | bridge isBridge link near =>
      obtain ⟨-, k, x, hk', -⟩ := near
      rw [hk] at hk'
      cases hk'

end Owners

/-- **Shared rows go with their last owner.** In a strict schema, let the
rows of `n`, which is no bridge, be shared. After a deletion from another
table that succeeds on a store with unique and given keys and whole
references, a row of `n` that had an owner is left exactly if one of its
owners is. -/
theorem delete_keeps_shared {namer : Namer} {start : TableName} {result : Synthesis} {depth : Nat}
    {name : String} {deleted : List Int} {r : Row} (hg : σ.schema.Strict)
    (hsynthesis : σ.synthesize namer start = .ok result) (hn : σ.IsShared n) (hnb : σ.NoBridge n)
    (hst : st.schema = σ.schema) (hunique : st.UniqueKeys) (hgiven : st.KeysGiven)
    (hwhole : st.NoDangling)
    (hf : (Program.mk result.registry.functions depth).lookup name = some f)
    (hother : f.table.same n = false)
    (h : ((Program.mk result.registry.functions depth).delete st name ids).result = .ok deleted)
    (hr : r ∈ st.rows n) (howned : ∃ w p, σ.OwnerOf st n r w p) :
    ((Program.mk result.registry.functions depth).delete st name ids).store.Remains n r ↔
      ∃ w p, σ.OwnerOf st n r w p ∧
        ((Program.mk result.registry.functions depth).delete st name ids).store.Remains w p := by
  have hyields := Program.yields_of_delete h
  obtain ⟨f', hf', hsharing⟩ := sharing_call hn hnb hg hst hgiven
    (fun hf => Program.serves_of_synthesize hsynthesis hf) hyields
  rw [hf] at hf'
  cases hf'
  obtain ⟨hs, -, hkeeps⟩ := hsharing (.refl hwhole) fun hsame => by
    rw [hother] at hsame
    cases hsame
  have hties := hkeeps .nothing .nothing (.refl σ n st _ _)
  constructor
  · exact exists_owner_of_remains hn hg hst hunique hgiven hs hties hr howned
  · rintro ⟨w, p, howner, hleft⟩
    exact howner.remains hn hg hst hgiven hs hties hr hleft

/-- A table of the city is shared if nothing points at it, and if all that
may own its rows does so by aggregation, over columns that take NULL. -/
theorem city_isShared (hin : ∀ fk ∈ city.schema.foreignKeys, fk.target.same n = false)
    (hout : ∀ fk ∈ city.schema.foreignKeys, fk.source.same n → ∀ cols ∈ fk.columns?,
      city.classifier n fk.target (some cols.1) = .ok .none ∨
        (city.classifier n fk.target (some cols.1) = .ok .aggregation ∧
          city.schema.isNullable n cols.1)) : city.IsShared n where
  noSupertype u := city_not_isSubtype n u
  noSubtype u := city_not_isSubtype u n
  column c o := by
    rintro ⟨fk, hfk, hsource, htarget, a, p, hcols, ha⟩ ⟨kind, hclass, howns⟩
    have hmeans {kind : Relation} (h : city.classifier n fk.target (some a) = .ok kind) :
        city.Means n o c kind := (means_of_ofRecords rfl h).congr (by simp) htarget ha
    rcases hout fk hfk hsource (a, p) hcols with hnone | ⟨hshared, hnull⟩
    · rw [hclass.eq_of_means (hmeans hnone)] at howns
      cases howns
    · refine ⟨hmeans hshared, ?_⟩
      simpa only [Schema.isNullable, Schema.isNullable_congr _ ha] using hnull
  reference u c := by
    rintro ⟨fk, hfk, -, htarget, -⟩
    rw [hin fk hfk] at htarget
    cases htarget
  bridge b := by
    rintro ⟨fk, hfk, -⟩
    obtain ⟨hfk, htarget⟩ := Schema.mem_foreignKeysTo.1 hfk
    rw [hin fk hfk] at htarget
    cases htarget

/-- The note is left exactly if the building is that it points at. -/
theorem delete_keeps_shared_city : ∃ result,
    city.synthesize (.new "del_" 63) ⟨"city", "building"⟩ = .ok result ∧
      ((cityDeletion result).store.Remains ⟨"city", "note"⟩ ⟨[("id", 3), ("building", 1)]⟩ ↔
        ∃ w p, city.OwnerOf cityStore ⟨"city", "note"⟩ ⟨[("id", 3), ("building", 1)]⟩ w p ∧
          (cityDeletion result).store.Remains w p) := by
  obtain ⟨result, f, hsyn, -, hf, htable, hrun, -⟩ := exists_cityDeletion
  have howner : city.OwnerOf cityStore ⟨"city", "note"⟩ ⟨[("id", 3), ("building", 1)]⟩
      ⟨"city", "building"⟩ ⟨[("id", 1), ("address", 7)]⟩ :=
    .column (c := "building") (by decide +kernel)
      ⟨by decide +kernel, "id", 1, by decide +kernel, by decide +kernel, by decide +kernel⟩
      ⟨.aggregation, Setting.classifies_of_eq (by decide +kernel), rfl⟩
  have hshared : city.IsShared ⟨"city", "note"⟩ :=
    city_isShared (by decide +kernel) (by decide +kernel)
  obtain ⟨hunique, hgiven, hwhole⟩ := cityStore_valid
  have hnobridge : city.NoBridge ⟨"city", "note"⟩ :=
    noBridge_of_key? (k := "id") (by decide +kernel)
  exact ⟨result, hsyn, delete_keeps_shared city_strict hsyn hshared hnobridge rfl hunique
    hgiven hwhole hf (by rw [htable]; decide +kernel) hrun (by decide +kernel) ⟨_, _, howner⟩⟩

/-- **Bridge rows are no such rows**: the theme link of the building goes
with it, and the source that shares it is left. -/
theorem not_delete_keeps_shared_link : ∃ result f,
    city.schema.Strict ∧ city.synthesize (.new "del_" 63) ⟨"city", "building"⟩ = .ok result ∧
      city.IsShared ⟨"city", "building_theme"⟩ ∧ cityStore.schema = city.schema ∧
      cityStore.UniqueKeys ∧ cityStore.KeysGiven ∧ cityStore.NoDangling ∧
      (Program.mk result.registry.functions 8).lookup "del_building" = some f ∧
      f.table.same ⟨"city", "building_theme"⟩ = false ∧ (cityDeletion result).result = .ok [1] ∧
      ∃ r ∈ cityStore.rows ⟨"city", "building_theme"⟩,
        (∃ w p, city.OwnerOf cityStore ⟨"city", "building_theme"⟩ r w p) ∧
        ¬ ((cityDeletion result).store.Remains ⟨"city", "building_theme"⟩ r ↔
          ∃ w p, city.OwnerOf cityStore ⟨"city", "building_theme"⟩ r w p ∧
            (cityDeletion result).store.Remains w p) := by
  obtain ⟨result, f, hsyn, -, hf, htable, hrun, hleft, -⟩ := exists_cityDeletion
  have howner : city.OwnerOf cityStore ⟨"city", "building_theme"⟩
      ⟨[("building", 1), ("theme", 6), ("source", 5)]⟩ ⟨"city", "source"⟩ ⟨[("id", 5)]⟩ :=
    .column (c := "source") (by decide +kernel)
      ⟨by decide +kernel, "id", 5, by decide +kernel, by decide +kernel, by decide +kernel⟩
      ⟨.aggregation, classifies_of_eq (by decide +kernel), rfl⟩
  obtain ⟨hunique, hgiven, hwhole⟩ := cityStore_valid
  have hshared : city.IsShared ⟨"city", "building_theme"⟩ :=
    city_isShared (by decide +kernel) (by decide +kernel)
  refine ⟨result, f, city_strict, hsyn, hshared, rfl, hunique, hgiven, hwhole, hf,
    by rw [htable]; decide +kernel, hrun, _, by decide +kernel, ⟨_, _, howner⟩, fun hiff => ?_⟩
  rw [hleft] at hiff
  have hsource : cityLeft.Remains ⟨"city", "source"⟩ ⟨[("id", 5)]⟩ := by
    rw [Store.remains_iff (k := "id") (v := 5) (by decide +kernel) (by decide +kernel)]
    exact ⟨"id", by decide +kernel, ⟨[("id", 5)]⟩, by decide +kernel, by decide +kernel⟩
  have hkey : cityLeft.schema.key? ⟨"city", "building_theme"⟩ = none := by decide +kernel
  have hgone := hiff.2 ⟨_, _, howner, hsource⟩
  simp only [Store.Remains, hkey] at hgone
  exact absurd hgone (by decide +kernel)

end Setting

end DeleteCascade
