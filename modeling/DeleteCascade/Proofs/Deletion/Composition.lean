import DeleteCascade.Proofs.Deletion.Bonds
import DeleteCascade.Proofs.Deletion.Ownership
/-!
# Deletion — everything composed goes

After a deletion nothing is left of what belongs to its batch by
composition (`delete_composes`). Rows that point at a row that is gone are
gone because no reference dangles, unless they were cut off; so what has to
be carried through a run are the bonds of `Composes`: a part is bound by the
value that ties it to its whole, and what a row owns elsewhere, its
supertype row and what is behind a bridge are bound by the row itself. When
the rows of a function's batch go, the blocks that come after owe what these
rows were bound to (`Owes`), and pay it block by block.
-/

namespace DeleteCascade

/-- **A strict schema** is regular, its foreign keys only restrict, and no
column carries two of them. -/
structure Schema.Strict (g : Schema) : Prop where
  regular : g.Regular
  restricts : g.Restricts
  oneKey : g.OneKeyPerColumn

instance (g : Schema) : Decidable g.Strict :=
  decidable_of_iff (g.Regular ∧ g.Restricts ∧ g.OneKeyPerColumn)
    ⟨fun ⟨hregular, hrestricts, hone⟩ => ⟨hregular, hrestricts, hone⟩,
      fun h => ⟨h.regular, h.restricts, h.oneKey⟩⟩

namespace Setting

variable {σ : Setting} {st s s' : Store} {t u w : TableName} {batch ids : List Int} {D : Doom}
variable {c k : String} {x v : Int} {F : Fact} {f : DeleteFunction} {notes captured : List String}

/-! ## The bonds of composition -/

/-- **Rows go with what they point at**, whoever else owns them: they are
parts, or they are shared and cannot be cut off. -/
def Binds (σ : Setting) (u t : TableName) (c : String) : Prop :=
  σ.Means u t c .composition ∨ (σ.Means u t c .aggregation ∧ σ.schema.isNullable u c = false)

theorem Binds.congr {u' t' : TableName} {c' : String} (h : σ.Binds u t c) (hu : u.same u')
    (ht : t.same t') (hc : sameName c c') : σ.Binds u' t' c' := by
  refine h.imp (fun hmeans => hmeans.congr hu ht hc) fun ⟨hmeans, hnull⟩ =>
    ⟨hmeans.congr hu ht hc, ?_⟩
  simpa only [Schema.isNullable, ← Schema.table?_congr _ hu, ← Schema.isNullable_congr _ hc]
    using hnull

/-- Nothing else is asked about children that go anyway. -/
theorem ownerCheck_eq_none_of_binds {κ : Type} {tab : κ → TableName} {b : ChildCascade κ}
    (hplan : σ.Plans t tab notes captured (.childCascade b)) (h : σ.Binds b.child t b.column) :
    b.ownerCheck = none := by
  cases hplan with
  | childCascade link other key notKey classified owning callee shared unshared entered shareable =>
    by_contra hchecked
    rcases h with hmeans | ⟨-, hnull⟩
    · obtain ⟨owners, howners⟩ := Option.ne_none_iff_exists'.1 hchecked
      obtain ⟨hagg, -⟩ := shared owners howners
      rw [classified.eq_of_means hmeans] at hagg
      cases hagg
    · rw [shareable hchecked] at hnull
      cases hnull

/-- **What ties rows together by composition.** -/
inductive Composes (σ : Setting) : Bonds
  /-- A part and what makes it one. -/
  | part {u t : TableName} {x v : Int} {c : String} (link : σ.schema.Link u c t)
      (binds : σ.Binds u t c) : Composes σ (.cell u x c v) u x
  /-- A row and what it points at and owns. -/
  | target {t u : TableName} {x v : Int} {c : String} (link : σ.schema.Link t c u)
      (other : t.same u = false) (means : σ.Means u t c .composition) :
      Composes σ (.cell t x c v) u v
  /-- A row and that of its supertype. -/
  | supertype {t u : TableName} {x : Int} {k : String} (isSubtype : σ.schema.IsSubtype t u)
      (key : σ.schema.key? t = some k) : Composes σ (.cell t x k x) u x
  /-- A bridge row and what is behind it. -/
  | far {t : TableName} {b : Bridge} {q : Row} {v : Int} (bridge : σ.schema.IsBridge t b)
      (means : σ.Means b.farTable t b.table.name .composition)
      (value : q.get? b.farColumn = some v) : Composes σ (.row b.table q) b.farTable v

/-- A block that asks the classifier about composed rows looks for no other
owners. -/
theorem ChecksOwners.eq_none {check : Option (List Owner)} {kind : Relation}
    (h : σ.ChecksOwners kind t check) (hkind : kind = .composition) : check = none := by
  cases check with
  | none => rfl
  | some owners =>
    obtain ⟨hagg, -⟩ := h
    rw [hkind] at hagg
    cases hagg

/-- **Cutting off rows honors the bonds** if what they are cut off from is
doomed, and so are they if they are parts of it. -/
theorem Composes.going_of_cut (hg : σ.schema.Strict) (hs : s.schema = σ.schema)
    (hlink : σ.schema.Link u c t) (hk : σ.schema.key? u = some k) {test : Row → Bool}
    (htest : ∀ r, test r = true → pointsInto batch c r = true)
    (hkey : ∀ r ∈ s.rows u, test r = true → sameName c k = false)
    (hids : σ.Binds u t c → ((s.rows u).filter test).filterMap (·.get? k) ⊆ ids)
    (hb : σ.Composes F w v) (hhit : F.Hit s u test) (hreads : F.Reads c) :
    s.Going ((D.add t batch).add u ids) w v := by
  cases hb with
  | @part u' t' x v' c' link binds =>
    obtain ⟨hsame, l, hl, r, hr, hin, hx, hv⟩ := hhit
    have hu := TableName.same_symm hsame
    have hc := sameName_symm hreads
    have ht := (link.congr hu hc (TableName.same_refl _)).target_unique hg.oneKey hlink
    rw [hs, ← Schema.key?_congr hsame, hk] at hl
    cases hl
    refine Store.going_add hsame (hids (binds.congr hu ht hc) ?_)
    rw [← Store.rows_congr s hsame] at hr
    exact List.mem_filterMap.2 ⟨r, List.mem_filter.2 ⟨hr, hin⟩, hx⟩
  | @target u' w x v c' link other means =>
    obtain ⟨hsame, l, hl, r, hr, hin, hx, hv⟩ := hhit
    have ht := hlink.target_unique hg.oneKey
      (link.congr (TableName.same_symm hsame) (sameName_symm hreads) (TableName.same_refl _))
    obtain ⟨y, hy, hry⟩ := pointsInto_iff.1 (htest r hin)
    rw [Row.get?_congr r hreads, hv] at hry
    cases hry
    exact (Store.going_add ht hy).add u ids
  | @supertype u' w x l isSubtype key =>
    obtain ⟨hsame, l', hl', r, hr, hin, hx, hv⟩ := hhit
    rw [← Schema.key?_congr hsame, hk] at key
    cases key
    have hne := hkey r (by rwa [Store.rows_congr s hsame]) hin
    rw [hreads] at hne
    cases hne
  | far bridge =>
    obtain ⟨hsame, -⟩ := hhit
    rw [Schema.key?_congr hsame, bridge.key?_eq_none] at hk
    cases hk

/-- **Removing links honors the bonds** if the batch they link to is
doomed, and so is what is behind them if it is composed. -/
theorem Composes.going_of_unlink (hg : σ.schema.Strict) (hs : s.schema = σ.schema) {br : Bridge}
    (hbr : σ.schema.IsBridge t br)
    (hids : σ.Means br.farTable t br.table.name .composition →
      ((s.rows br.table).filter (pointsInto batch br.nearColumn)).filterMap
        (·.get? br.farColumn) ⊆ ids)
    (hb : σ.Composes F w v) (hhit : F.Hit s br.table (pointsInto batch br.nearColumn)) :
    s.Going ((D.add t batch).add br.farTable ids) w v := by
  have hcell {u : TableName} {l : String} (hsame : br.table.same u) (hl : s.schema.key? u = some l) :
      False := by
    rw [hs, ← Schema.key?_congr hsame, hbr.key?_eq_none] at hl
    cases hl
  cases hb with
  | part =>
    obtain ⟨hsame, l, hl, -⟩ := hhit
    exact (hcell hsame hl).elim
  | target =>
    obtain ⟨hsame, l, hl, -⟩ := hhit
    exact (hcell hsame hl).elim
  | supertype =>
    obtain ⟨hsame, l, hl, -⟩ := hhit
    exact (hcell hsame hl).elim
  | @far t' b q v bridge means value =>
    obtain ⟨hsame, hq, hin⟩ := hhit
    obtain ⟨y, hy, hqy⟩ := pointsInto_iff.1 hin
    rcases hbr.two_sides hg.regular hg.oneKey bridge (TableName.same_symm hsame) with
      ⟨hnear, hfar, ht, hfarTable⟩ | ⟨hnear, hfar, ht, hfarTable⟩
    · -- the bond is seen from the side of the batch
      refine Store.going_add (TableName.same_symm hfarTable) (hids ?_ ?_)
      · exact means.congr hfarTable ht (TableName.sameName_of_same (TableName.same_symm hsame))
      · rw [← Store.rows_congr s hsame] at hq
        refine List.mem_filterMap.2 ⟨q, List.mem_filter.2 ⟨hq, hin⟩, ?_⟩
        rw [← Row.get?_congr q hfar, value]
    · -- the batch itself is behind the bridge
      rw [← Row.get?_congr q hfar, value] at hqy
      cases hqy
      exact (Store.going_add (TableName.same_symm hfarTable) hy).add _ _

/-! ## What blocks owe after the rows are gone -/

/-- **What the blocks still owe**: the composed rows that the captured
columns named, and the rows of the supertype, unless the caller sees to
those. -/
def Owes (caller : Caller) (frame : Frame) (bs : List (Block Callee)) : Doom := fun u v =>
  (∃ b, .referencedCleanup b ∈ bs ∧ b.ownerCheck = none ∧ b.target.same u ∧
    v ∈ (frame.captured[b.slot]?).getD []) ∨
  (∃ callee, .parentCascade callee ∈ bs ∧ caller.skipsParent = false ∧ callee.table.same u ∧
    v ∈ frame.deleted)

/-- The row of the supertype is owed, unless the caller sees to it. -/
theorem going_of_supertype (hg : σ.schema.Strict) {front back : List (Block Callee)}
    (hbody : σ.IsBody t (·.table) notes captured front back) {caller : Caller} {frame : Frame}
    (hparent : caller = .fromParent → ∀ u, σ.schema.IsSubtype t u → ∀ v ∈ batch, D u v)
    (hsub : σ.schema.IsSubtype t w) (hx : x ∈ batch) (hdeleted : x ∈ frame.deleted) :
    s.Going (fun u v => D u v ∨ Owes caller frame back u v) w x := by
  obtain ⟨callee, hcallee⟩ := hbody.parent hg.regular w hsub
  by_cases hskip : caller.skipsParent = true
  · have hcaller : caller = .fromParent := by
      cases caller <;> first | rfl | cases hskip
    exact Or.inr (Or.inl (hparent hcaller w hsub x hx))
  · have hplan := hbody.plans (.parentCascade callee) (by simp [hcallee])
    cases hplan with
    | parentCascade supertype =>
      refine Or.inr (Or.inr (Or.inr ⟨callee, hcallee, by simpa using hskip, ?_, hdeleted⟩))
      exact (supertype hg.regular).unique hg.oneKey hsub

/-- **Deleting the rows honors the bonds** if the blocks that follow pay
what they owe. -/
theorem Composes.going_of_delete (hg : σ.schema.Strict) (hs : s.schema = σ.schema)
    (hkey : σ.schema.key? f.table = some f.keyColumn) {front back : List (Block Callee)}
    (hbody : σ.IsBody f.table (·.table) notes captured front back) {caller : Caller}
    {frame : Frame} {rows : List Row}
    (hdelete : s.deleteWhere f.table (pointsInto batch f.keyColumn) = .ok (rows, s'))
    (hparent : caller = .fromParent → ∀ u, σ.schema.IsSubtype f.table u → ∀ v ∈ batch, D u v)
    (hdeleted : rows.filterMap (·.get? f.keyColumn) ⊆ frame.deleted)
    (hcaptured : frame.captured =
      captured.map fun column => ascending (rows.filterMap (·.get? column)))
    (hb : σ.Composes F w v) (hhit : F.Hit s f.table (pointsInto batch f.keyColumn)) :
    s'.Going (fun u v => D u v ∨ Owes caller frame back u v) w v := by
  have hrestricts : s.schema.Restricts := hs ▸ hg.restricts
  obtain ⟨hrows, -⟩ := Store.deleteWhere_of_restricts hrestricts hdelete
  -- a row that is hit is deleted, by a key of the batch
  have hrow {u : TableName} {l : String} {r : Row} {x : Int} (hsame : f.table.same u)
      (hl : s.schema.key? u = some l) (hr : r ∈ s.rows u)
      (hin : pointsInto batch f.keyColumn r = true) (hx : r.get? l = some x) :
      l = f.keyColumn ∧ r ∈ rows ∧ x ∈ batch ∧ x ∈ frame.deleted := by
    rw [hs, ← Schema.key?_congr hsame, hkey] at hl
    cases hl
    rw [← Store.rows_congr s hsame] at hr
    obtain ⟨y, hy, hry⟩ := pointsInto_iff.1 hin
    rw [hx] at hry
    cases hry
    have hmem : r ∈ rows := by
      rw [hrows]
      exact List.mem_filter.2 ⟨hr, hin⟩
    exact ⟨rfl, hmem, hy, hdeleted (List.mem_filterMap.2 ⟨r, hmem, hx⟩)⟩
  cases hb with
  | @part u t x v c link binds =>
    obtain ⟨hsame, l, hl, r, hr, hin, hx, hv⟩ := hhit
    obtain ⟨-, -, hbatch, -⟩ := hrow hsame hl hr hin hx
    refine Or.inl fun hleft => ?_
    exact Program.not_hasRow_of_deleteWhere (by rw [hs, hkey]) hdelete hbatch
      ((Store.hasRow_congr hsame).2 hleft)
  | @target u w x v c link other means =>
    obtain ⟨hsame, l, hl, r, hr, hin, hx, hv⟩ := hhit
    obtain ⟨rfl, hmem, hbatch, hframe⟩ := hrow hsame hl hr hin hx
    have hlink := link.congr (TableName.same_symm hsame) (sameName_refl c) (TableName.same_refl w)
    have hother : f.table.same w = false := by rw [TableName.same_congr_left hsame, other]
    by_cases hc : sameName f.keyColumn c = true
    · -- the column is the key, and what it points at is the supertype
      rw [← Row.get?_congr r hc, hx] at hv
      cases hv
      exact going_of_supertype hg hbody hparent
        ⟨f.keyColumn, hkey, hlink.congr (by simp) (sameName_symm hc) (by simp), hother⟩ hbatch hframe
    · obtain ⟨b, hblock, hcol, htarget⟩ := hbody.targets hg.regular c w hlink hother
        (fun k hk => by
          rw [hkey] at hk
          cases hk
          simpa using hc)
        fun kind hkind => by
          rw [hkind.eq_of_means (means.congr (by simp) (TableName.same_symm hsame) (by simp))]
          rfl
      have hplan := hbody.plans (.referencedCleanup b) (by simp [hblock])
      cases hplan with
      | @referencedCleanup _ kind slot link' other' notKey classified owning key check callee =>
        have hkind : kind = .composition := classified.eq_of_means
          (means.congr (TableName.same_symm htarget) (TableName.same_symm hsame)
            (sameName_symm hcol))
        refine Or.inr (Or.inr (Or.inl ⟨b, hblock, check.eq_none hkind, htarget, ?_⟩))
        simp only [hcaptured, List.getElem?_map, slot, Option.map_some, Option.getD_some,
          mem_ascending, List.mem_filterMap]
        exact ⟨r, hmem, by rw [Row.get?_congr r hcol, hv]⟩
  | @supertype u w x l isSubtype key =>
    obtain ⟨hsame, l', hl', r, hr, hin, hx, hv⟩ := hhit
    obtain ⟨-, -, hbatch, hframe⟩ := hrow hsame hl' hr hin hx
    exact going_of_supertype hg hbody hparent
      (isSubtype.congr (TableName.same_symm hsame) (by simp)) hbatch hframe
  | far bridge =>
    obtain ⟨hsame, -⟩ := hhit
    rw [Schema.key?_congr hsame, bridge.key?_eq_none] at hkey
    cases hkey

/-! ## Runs -/

/-- **A call that honors the bonds of composition** leaves the store intact
and no row of its batch, whatever else is doomed. A caller for whom the
supertype is left alone has to doom the rows there. -/
def HonoringCall (σ : Setting) (st : Store) (t : TableName) (keys : List Int) (caller : Caller)
    (s s' : Store) : Prop :=
  Store.Intact st s → Store.Intact st s' ∧ (∀ v ∈ keys, ¬ s'.HasRow t v) ∧
    ∀ D : Doom, s.Honors st σ.Composes D →
      (caller = .fromParent → ∀ u, σ.schema.IsSubtype t u → ∀ v ∈ keys, D u v) →
      s'.Honors st σ.Composes D

section Runs

variable {C : Calls} {caller : Caller} {frame frame' : Frame} {deleted : List Int}

theorem HonoringCall.congr (h : σ.HonoringCall st t ids caller s s') (hsame : t.same u) :
    σ.HonoringCall st u ids caller s s' := by
  intro hs
  obtain ⟨hs', hgone, hkeeps⟩ := h hs
  refine ⟨hs', fun v hv hrow => hgone v hv ((Store.hasRow_congr hsame).2 hrow),
    fun D hhonors hparent => hkeeps D hhonors fun hcaller w hw => ?_⟩
  exact hparent hcaller w (hw.congr hsame (by simp))

/-- Deleting doomed rows leaves them gone. -/
theorem honors_of_deletesOwned {callee : Callee} (hcallee : callee.table.same u)
    (hC : ∀ {keys caller s deleted s'}, C callee.function keys caller s deleted s' →
      σ.HonoringCall st callee.table keys caller s s')
    (h : DeletesOwned C callee ids s deleted s') (hs : Store.Intact st s)
    (hhonors : s.Honors st σ.Composes (D.add u ids)) : s'.Honors st σ.Composes D := by
  cases h with
  | idle => exact hhonors.of_add fun id hid => absurd hid (by simp)
  | call run =>
    obtain ⟨-, hgone, hkeeps⟩ := hC run hs
    refine (hkeeps _ hhonors fun hcaller => by cases hcaller).of_add fun id hid hrow => ?_
    exact hgone id hid ((Store.hasRow_congr hcallee).2 hrow)

/-- Subtypes may leave the batch to the function that calls them. -/
theorem honors_of_dispatches (hg : σ.schema.Strict) {callees : List Callee}
    {noted noted' : List Int} (hsub : ∀ c ∈ callees, σ.schema.IsSubtype c.table t)
    (hC : ∀ {c keys caller s deleted s'}, c ∈ callees → C c.function keys caller s deleted s' →
      σ.HonoringCall st c.table keys caller s s')
    (h : Dispatches C callees batch noted s noted' s') (hs : Store.Intact st s)
    (hhonors : s.Honors st σ.Composes (D.add t batch)) :
    s'.Honors st σ.Composes (D.add t batch) := by
  induction h with
  | done => exact hhonors
  | call callee ids_subset run _ _ ih =>
    obtain ⟨hs₁, -, hkeeps⟩ := hC callee run hs
    refine ih hs₁ (hkeeps _ hhonors fun _ w hw v hv => ?_)
    exact Or.inr ⟨(hsub _ callee).unique hg.oneKey hw, ids_subset hv⟩

/-- **The blocks before the rows go honor the bonds**, the batch being
doomed. -/
theorem honors_early (hg : σ.schema.Strict) (hst : st.schema = σ.schema)
    (hkey : σ.schema.key? f.table = some f.keyColumn) {b : Block Callee}
    (hplan : σ.Plans f.table (·.table) notes captured b) (hearly : b.kind.isEarly = true)
    (hC : ∀ {c keys caller s deleted s'}, c ∈ b.callees → C c.function keys caller s deleted s' →
      σ.HonoringCall st c.table keys caller s s')
    (hrun : b.Runs C f batch caller frame s frame' s') (hs : Store.Intact st s)
    (hhonors : s.Honors st σ.Composes (D.add f.table batch)) :
    s'.Honors st σ.Composes (D.add f.table batch) := by
  have hschema : s.schema = σ.schema := hs.within.schema.trans hst
  have hregular : s.schema.Regular := hschema ▸ hg.regular
  have hrestricts : s.schema.Restricts := hschema ▸ hg.restricts
  cases hrun with
  | @selfParts b _ _ s₁ _ parts deleted take call =>
    cases hplan with
    | selfParts link classified callee cut =>
      have hpart (r : Row) (hr : f.isPart batch b.column r = true) :
          pointsInto batch b.column r = true := by
        simp only [DeleteFunction.isPart, Bool.and_eq_true] at hr
        exact hr.1
      have hnotKey : ∀ r ∈ s.rows f.table, f.isPart batch b.column r = true →
          sameName b.column f.keyColumn = false := fun r _ hr => f.isPart_key hr
      have hkeys : s.schema.key? f.table = some f.keyColumn := by rw [hschema, hkey]
      refine honors_of_deletesOwned callee (hC (by simp [Block.callees])) call
        (take.intact hs hregular hkeys hnotKey) ?_
      refine (hhonors.mono fun _ _ => Or.inl).takes hkeys hnotKey (fun F w v hb hhit hreads => ?_)
        take
      refine hb.going_of_cut hg hschema (link hg.regular) hkey hpart hnotKey (fun _ => ?_) hhit
        hreads
      rw [take.rows]
      exact fun _ hx => hx
  | @childCascade b _ _ s₁ _ children deleted take call =>
    cases id hplan with
    | childCascade link other key notKey classified owning callee =>
      have hnotKey : ∀ r ∈ s.rows b.child, pointsInto batch b.column r = true →
          sameName b.column b.childKey = false := fun _ _ _ => by rw [sameName_comm, notKey]
      have hkeys : s.schema.key? b.child = some b.childKey := by rw [hschema, key]
      refine honors_of_deletesOwned callee (hC (by simp [Block.callees])) call
        (take.intact hs hregular hkeys hnotKey) ?_
      refine (hhonors.mono fun _ _ => Or.inl).takes hkeys hnotKey (fun F w v hb hhit hreads => ?_)
        take
      refine hb.going_of_cut hg hschema link key (fun _ hr => hr) hnotKey (fun hbinds => ?_) hhit
        hreads
      have hnone := ownerCheck_eq_none_of_binds hplan hbinds
      rw [hnone, Store.unowned, take.rows]
      exact fun _ hx => hx
  | bridgeOnly remove hnone =>
    cases hplan with
    | @bridgeCascade _ br kind isBridge table near far target targetKey classified check owned
        unowned =>
      rw [table, near] at remove
      obtain ⟨-, rfl⟩ := Store.deleteWhere_of_restricts hrestricts remove
      have hnothing (hmeans : σ.Means br.farTable f.table br.table.name .composition) :
          ((s.rows br.table).filter (pointsInto batch br.nearColumn)).filterMap
            (·.get? br.farColumn) ⊆ [] := by
        obtain ⟨c, hc, -⟩ := owned (by rw [classified.eq_of_means hmeans]; rfl)
        rw [hnone] at hc
        cases hc
      refine hhonors.removeRows fun F w v hb hhit => ?_
      exact ((hb.going_of_unlink hg hschema isBridge hnothing hhit).of_within
        (Store.within_removeRows _ _ _)).of_add fun id hid => absurd hid (by simp)
  | @bridgeCascade b _ _ s₁ _ links deleted callee remove hsome call =>
    cases hplan with
    | @bridgeCascade _ br kind isBridge table near far target targetKey classified check owned
        unowned =>
      have hs₁ := hs.deleteWhere hrestricts remove
      rw [table, near] at remove
      have howning : kind.isOwning = true := by
        by_contra hnot
        rw [unowned (by simpa using hnot)] at hsome
        cases hsome
      obtain ⟨c, hc, hsame⟩ := owned howning
      rw [hsome, Option.some.injEq] at hc
      subst hc
      refine honors_of_deletesOwned hsame (hC (by simp [Block.callees, hsome])) call hs₁ ?_
      obtain ⟨rfl, rfl⟩ := Store.deleteWhere_of_restricts hrestricts remove
      refine (hhonors.mono fun _ _ => Or.inl).removeRows fun F w v hb hhit => ?_
      refine (hb.going_of_unlink hg hschema isBridge (fun hmeans => ?_) hhit).of_within
        (Store.within_removeRows _ _ _)
      rw [check.eq_none (classified.eq_of_means hmeans), Store.unowned, far]
      exact fun _ hx => hx
  | subtypeDispatch calls =>
    cases hplan with
    | subtypeDispatch subtypes => exact honors_of_dispatches hg subtypes hC calls hs hhonors
  | localDelete => cases hearly
  | referencedCleanup => cases hearly
  | noParent => cases hearly
  | parentCascade => cases hearly

/-- **The blocks after the rows are gone pay what is owed.** -/
theorem honors_late {b : Block Callee} {rest : List (Block Callee)}
    (hplan : σ.Plans f.table (·.table) notes captured b)
    (hlate : (∃ c, b = .referencedCleanup c) ∨ ∃ callee, b = .parentCascade callee)
    (hC : ∀ {c keys caller s deleted s'}, c ∈ b.callees → C c.function keys caller s deleted s' →
      σ.HonoringCall st c.table keys caller s s')
    (hrun : b.Runs C f batch caller frame s frame' s') (hs : Store.Intact st s)
    (hhonors : s.Honors st σ.Composes fun u v => D u v ∨ Owes caller frame (b :: rest) u v) :
    s'.Honors st σ.Composes fun u v => D u v ∨ Owes caller frame' rest u v := by
  cases hrun with
  | @referencedCleanup b _ _ _ deleted call =>
    cases hplan with
    | referencedCleanup slot link other notKey classified owning key check callee =>
      refine honors_of_deletesOwned callee (hC (by simp [Block.callees])) call hs ?_
      refine hhonors.mono fun u v hD => ?_
      rcases hD with hD | ⟨b', hb', hnone, htarget, hv⟩ | ⟨callee', hcallee', howed⟩
      · exact Or.inl (Or.inl hD)
      · rcases List.mem_cons.1 hb' with heq | hrest
        · cases heq
          refine Or.inr ⟨htarget, ?_⟩
          rw [hnone]
          exact hv
        · exact Or.inl (Or.inr (Or.inl ⟨b', hrest, hnone, htarget, hv⟩))
      · rcases List.mem_cons.1 hcallee' with heq | hrest
        · cases heq
        · exact Or.inl (Or.inr (Or.inr ⟨callee', hrest, howed⟩))
  | @noParent callee _ _ idle =>
    refine hhonors.mono fun u v hD => hD.imp id fun howes => ?_
    rcases howes with ⟨b', hb', howed⟩ | ⟨callee', hcallee', hcalls, hsame, hv⟩
    · rcases List.mem_cons.1 hb' with heq | hrest
      · cases heq
      · exact Or.inl ⟨b', hrest, howed⟩
    · -- nobody is to be called, or for nothing
      rcases idle with hskip | hempty
      · rw [hskip] at hcalls
        cases hcalls
      · rw [hempty] at hv
        cases hv
  | @parentCascade callee _ _ _ deleted calls run =>
    obtain ⟨-, hgone, hkeeps⟩ := hC (by simp [Block.callees]) run hs
    refine (hkeeps (Doom.add (fun u v => D u v ∨ Owes caller frame rest u v) callee.table
      frame.deleted) (hhonors.mono fun u v hD => ?_) fun hcaller => by cases hcaller).of_add hgone
    rcases hD with hD | ⟨b', hb', howed⟩ | ⟨callee', hcallee', hcalls, hsame, hv⟩
    · exact Or.inl (Or.inl hD)
    · rcases List.mem_cons.1 hb' with heq | hrest
      · cases heq
      · exact Or.inl (Or.inr (Or.inl ⟨b', hrest, howed⟩))
    · rcases List.mem_cons.1 hcallee' with heq | hrest
      · cases heq
        exact Or.inr ⟨hsame, hv⟩
      · exact Or.inl (Or.inr (Or.inr ⟨callee', hrest, hcalls, hsame, hv⟩))
  | selfParts => rcases hlate with ⟨c, hc⟩ | ⟨c, hc⟩ <;> cases hc
  | childCascade => rcases hlate with ⟨c, hc⟩ | ⟨c, hc⟩ <;> cases hc
  | bridgeOnly => rcases hlate with ⟨c, hc⟩ | ⟨c, hc⟩ <;> cases hc
  | bridgeCascade => rcases hlate with ⟨c, hc⟩ | ⟨c, hc⟩ <;> cases hc
  | subtypeDispatch => rcases hlate with ⟨c, hc⟩ | ⟨c, hc⟩ <;> cases hc
  | localDelete => rcases hlate with ⟨c, hc⟩ | ⟨c, hc⟩ <;> cases hc

theorem honors_front (hg : σ.schema.Strict) (hst : st.schema = σ.schema)
    (hkey : σ.schema.key? f.table = some f.keyColumn) {bs : List (Block Callee)}
    (hplans : ∀ b ∈ bs, σ.Plans f.table (·.table) notes captured b)
    (hearly : ∀ b ∈ bs, b.kind.isEarly = true)
    (hI : ∀ {n keys caller s deleted s'}, C n keys caller s deleted s' → Store.Intact st s →
      Store.Intact st s')
    (hC : ∀ {c keys caller s deleted s'}, c ∈ bs.flatMap (·.callees) →
      C c.function keys caller s deleted s' → σ.HonoringCall st c.table keys caller s s')
    (hrun : Block.RunsAll C f batch caller bs frame s frame' s') (hs : Store.Intact st s)
    (hhonors : s.Honors st σ.Composes (D.add f.table batch)) :
    Store.Intact st s' ∧ s'.Honors st σ.Composes (D.add f.table batch) := by
  induction hrun with
  | nil => exact ⟨hs, hhonors⟩
  | @cons b rest _ _ _ _ _ _ first _ ih =>
    have hs₁ := first.intact hg.regular hg.restricts hst hkey (hplans b (by simp)) hI hs
    refine ih (fun b' hb' => hplans b' (by simp [hb'])) (fun b' hb' => hearly b' (by simp [hb']))
      (fun hc hcall => hC (by
        rw [List.flatMap_cons]
        exact List.mem_append_right _ hc) hcall) hs₁ ?_
    exact honors_early hg hst hkey (hplans b (by simp)) (hearly b (by simp))
      (fun hc hcall => hC (by simp [hc]) hcall) first hs hhonors

theorem honors_back (hg : σ.schema.Strict) (hst : st.schema = σ.schema)
    (hkey : σ.schema.key? f.table = some f.keyColumn) {bs : List (Block Callee)}
    (hplans : ∀ b ∈ bs, σ.Plans f.table (·.table) notes captured b)
    (hlate : ∀ b ∈ bs, (∃ c, b = .referencedCleanup c) ∨ ∃ callee, b = .parentCascade callee)
    (hI : ∀ {n keys caller s deleted s'}, C n keys caller s deleted s' → Store.Intact st s →
      Store.Intact st s')
    (hC : ∀ {c keys caller s deleted s'}, c ∈ bs.flatMap (·.callees) →
      C c.function keys caller s deleted s' → σ.HonoringCall st c.table keys caller s s')
    (hrun : Block.RunsAll C f batch caller bs frame s frame' s') (hs : Store.Intact st s)
    (hhonors : s.Honors st σ.Composes fun u v => D u v ∨ Owes caller frame bs u v) :
    s'.Honors st σ.Composes D := by
  induction hrun with
  | nil =>
    refine hhonors.mono fun u v hD => ?_
    rcases hD with hD | ⟨b, hb, -⟩ | ⟨callee, hcallee, -⟩
    · exact hD
    · cases hb
    · cases hcallee
  | @cons b rest _ _ _ _ _ _ first _ ih =>
    have hs₁ := first.intact hg.regular hg.restricts hst hkey (hplans b (by simp)) hI hs
    refine ih (fun b' hb' => hplans b' (by simp [hb'])) (fun b' hb' => hlate b' (by simp [hb']))
      (fun hc hcall => hC (by
        rw [List.flatMap_cons]
        exact List.mem_append_right _ hc) hcall) hs₁ ?_
    exact honors_late (hplans b (by simp)) (hlate b (by simp))
      (fun hc hcall => hC (by simp [hc]) hcall) first hs hhonors

/-- **A body honors the bonds.** -/
theorem honors_body (hg : σ.schema.Strict) (hst : st.schema = σ.schema)
    (hkey : σ.schema.key? f.table = some f.keyColumn) {front back : List (Block Callee)}
    (hbody : σ.IsBody f.table (·.table) notes captured front back)
    (hI : ∀ {n keys caller s deleted s'}, C n keys caller s deleted s' → Store.Intact st s →
      Store.Intact st s')
    (hC : ∀ {c keys caller s deleted s'},
      c ∈ (front ++ .localDelete captured :: back).flatMap (·.callees) →
      C c.function keys caller s deleted s' → σ.HonoringCall st c.table keys caller s s')
    (hrun : Block.RunsAll C f batch caller (front ++ .localDelete captured :: back) .empty s
      frame' s')
    (hs : Store.Intact st s) (hhonors : s.Honors st σ.Composes D)
    (hparent : caller = .fromParent → ∀ u, σ.schema.IsSubtype f.table u → ∀ v ∈ batch, D u v) :
    s'.Honors st σ.Composes D := by
  obtain ⟨frame₁, s₁, hfront, hrest⟩ := hrun.append
  obtain ⟨hs₁, hhonors₁⟩ := honors_front hg hst hkey (fun b hb => hbody.plans b (by simp [hb]))
    hbody.early hI (fun hc hcall => hC (by
      rw [List.flatMap_append]
      exact List.mem_append_left _ hc) hcall) hfront hs (hhonors.mono fun _ _ => Or.inl)
  cases hrest with
  | cons hlocal hback =>
    have hschema : s₁.schema = σ.schema := hs₁.within.schema.trans hst
    have hs₂ := hlocal.intact hg.regular hg.restricts hst hkey (hbody.plans _ (by simp)) hI hs₁
    refine honors_back hg hst hkey (fun b hb => hbody.plans b (by simp [hb])) hbody.late hI
      (fun hc hcall => hC (by
        rw [List.flatMap_append, List.flatMap_cons]
        exact List.mem_append_right _ (List.mem_append_right _ hc)) hcall) hback hs₂ ?_
    cases hlocal with
    | @localDelete _ _ _ _ rows remove =>
      have hgone : ∀ v ∈ batch, _ := fun v hv =>
        Program.not_hasRow_of_deleteWhere (by rw [hschema, hkey]) remove hv
      obtain ⟨-, heq⟩ := Store.deleteWhere_of_restricts (hschema ▸ hg.restricts) remove
      refine Store.Honors.of_add ?_ hgone
      rw [heq]
      refine Store.Honors.removeRows (hhonors₁.mono fun u v hD => hD.imp Or.inl id)
        fun F w v hb hhit => Store.Going.add ?_ _ _
      rw [← heq]
      exact hb.going_of_delete hg hschema hkey hbody remove hparent
        (fun _ hx => List.mem_append_right _ hx) rfl hhit

end Runs

/-- **Every call honors the bonds of composition.** -/
theorem honoring_call {p : Program} {notes : List String} {name : String} {caller : Caller}
    {levels : Nat} {keys deleted : List Int} (hg : σ.schema.Strict) (hst : st.schema = σ.schema)
    (hserves : ∀ {name f}, p.lookup name = some f → p.Serves σ notes f)
    (h : (p.call levels name keys caller).Yields s deleted s') :
    ∃ f, p.lookup name = some f ∧ σ.HonoringCall st f.table keys caller s s' := by
  refine p.call_induction (S := fun f keys caller s _ s' =>
    σ.HonoringCall st f.table keys caller s s') ?_ h
  intro deeper name f hf hcalls keys caller s deleted s' hrun hs
  obtain ⟨hkey, ⟨captured, front, back, hblocks, hbody⟩, hcallees⟩ := hserves hf
  have hI {n keys caller s deleted s'}
      (hcall : CallFunction.calls (p.call deeper) n keys caller s deleted s')
      (hs : Store.Intact st s) : Store.Intact st s' :=
    Program.call_intact hg.regular hg.restricts hst hserves hcall hs
  have hgone := Program.gone_of_runs (hserves hf) (hs.within.schema.trans hst) hrun
  cases hrun with
  | idle hempty => exact ⟨hs, hgone, fun D hhonors _ => hhonors⟩
  | @body frame _ hrun =>
    rw [hblocks] at hrun
    refine ⟨hrun.intact hg.regular hg.restricts hst hkey hbody.plans hI hs, hgone,
      fun D hhonors hparent => ?_⟩
    refine honors_body hg hst hkey hbody hI (fun {c keys caller s deleted s'} hc hcall => ?_) hrun
      hs hhonors fun hcaller u hu v hv => hparent hcaller u hu v (mem_ascending.1 hv)
    obtain ⟨g, hlookup, hhonoring⟩ := hcalls hcall
    refine hhonoring.congr (hcallees c ?_ g hlookup)
    rw [DeleteFunction.callees, hblocks]
    exact hc

/-- So does every call that a function makes. -/
theorem honoring_callee {p : Program} {notes : List String} {c : Callee} {caller : Caller}
    {levels : Nat} {keys deleted : List Int} (hg : σ.schema.Strict) (hst : st.schema = σ.schema)
    (hserves : ∀ {name f}, p.lookup name = some f → p.Serves σ notes f) (hf : p.Serves σ notes f)
    (hc : c ∈ f.callees) (h : (p.call levels c.function keys caller).Yields s deleted s') :
    σ.HonoringCall st c.table keys caller s s' := by
  obtain ⟨g, hlookup, hhonoring⟩ := honoring_call hg hst hserves h
  exact hhonoring.congr (hf.callees c hc g hlookup)

/-! ## Nothing composed is left -/

/-- What belongs to a batch by composition. -/
abbrev Composed (σ : Setting) (st : Store) (root : TableName) (ids : List Int) :
    TableName → Row → Prop :=
  st.Closure (fun owned owner link => σ.Means owned owner link .composition) root ids

/-- A store that honors the bonds of composition and has lost a batch has
lost what belongs to it. -/
theorem Composed.not_remains {root : TableName} {r : Row} (hg : σ.schema.Regular)
    (hst : st.schema = σ.schema) (hkeys : st.KeysGiven) (hs : Store.Intact st s)
    (hhonors : s.Honors st σ.Composes Doom.nothing) (hgone : ∀ id ∈ ids, ¬ s.HasRow root id)
    (h : σ.Composed st root ids t r) : ¬ s.Remains t r := by
  have hschema : s.schema = st.schema := hs.within.schema
  -- what a row that is gone was bound to is gone, and so is what would point at it
  have hbond {F : Fact} {w : TableName} {v : Int} (hb : σ.Composes F w v) (hF : F.Holds st)
      (hnot : ¬ F.Holds s) : ¬ s.HasRow w v :=
    ((hhonors F w v hb hF).resolve_left hnot).elim id False.elim
  have hpoint {t u : TableName} {p q q' : Row} {c : String} (hpoints : st.schema.Points u q c t p)
      (hp : ¬ s.Remains t p) (hq' : q' ∈ s.rows u) (heq : q'.get? c = q.get? c) : False := by
    obtain ⟨hlink, k, v, hk, hqv, hpv⟩ := hpoints
    refine hp ((Store.remains_iff (by rw [hschema, hk]) hpv).2 ?_)
    exact hs.whole.hasRow (by rwa [hschema, hst]) (hschema ▸ hlink) hq' (heq.trans hqv)
  induction h with
  | batch row key value mem =>
    rw [Store.remains_iff (by rw [hschema, key]) value]
    exact hgone _ mem
  | spelling _ same ih => rwa [← Store.remains_congr same]
  | @child t u r q c belongs row points owned ih =>
    cases hl : st.schema.key? u with
    | none =>
      simp only [Store.Remains, hschema, hl]
      exact fun hq => hpoint points ih hq rfl
    | some l =>
      obtain ⟨x, hx⟩ := hkeys.value hl row
      obtain ⟨hlink, k, v, hk, hqv, hrv⟩ := id points
      rw [Store.remains_iff (by rw [hschema, hl]) hx]
      refine hbond (.part (hst ▸ hlink) (Or.inl owned)) ⟨l, hl, q, row, hx, hqv⟩ ?_
      rintro ⟨-, -, q', hq', -, hq'v⟩
      exact hpoint points ih hq' (hq'v.trans hqv.symm)
  | link belongs bridge row near ih =>
    have hnone := bridge.key?_eq_none
    simp only [Store.Remains, hschema, hnone]
    exact fun hq => hpoint near ih hq rfl
  | @far t r q p b belongs bridge row near farRow points owned ih =>
    obtain ⟨-, l, v, hl, hqv, hpv⟩ := points
    rw [Store.remains_iff (by rw [hschema, hl]) hpv]
    exact hbond (.far (hst ▸ bridge) owned hqv) row fun hq => hpoint near ih hq rfl
  | @referenced t u r p c k belongs key row points other owned ih =>
    obtain ⟨hlink, l, v, hl, hrv, hpv⟩ := points
    obtain ⟨x, hx⟩ := hkeys.value key belongs.mem
    rw [Store.remains_iff (by rw [hschema, key]) hx] at ih
    rw [Store.remains_iff (by rw [hschema, hl]) hpv]
    exact hbond (.target (hst ▸ hlink) other owned) ⟨k, key, r, belongs.mem, hx, hrv⟩
      fun hcell => ih (Fact.hasRow_of_cell hcell)
  | @subtype t u r q belongs isSubtype row sameKey ih =>
    obtain ⟨k, l, v, hk, hl, hqv, hrv⟩ := sameKey
    rw [Store.remains_iff (by rw [hschema, hl]) hrv] at ih
    rw [Store.remains_iff (by rw [hschema, hk]) hqv]
    rintro ⟨k', hk', q', hq', hq'v⟩
    obtain ⟨c, hc, hlink, -⟩ := isSubtype
    rw [hschema, hk] at hk'
    rw [hk] at hc
    cases hk'
    cases hc
    exact ih (hs.whole.hasRow (by rwa [hschema, hst]) (hschema ▸ hlink) hq' hq'v)
  | @supertype t u r p belongs isSubtype row sameKey ih =>
    obtain ⟨k, l, v, hk, hl, hrv, hpv⟩ := sameKey
    rw [Store.remains_iff (by rw [hschema, hk]) hrv] at ih
    rw [Store.remains_iff (by rw [hschema, hl]) hpv]
    exact hbond (.supertype (hst ▸ isSubtype) (hst ▸ hk)) ⟨k, hk, r, belongs.mem, hrv, hrv⟩
      fun hcell => ih (Fact.hasRow_of_cell hcell)

/-- **Everything composed goes.** In a strict schema, a deletion that
succeeds on a store with given keys and whole references leaves no row that
belongs to its batch by composition. -/
theorem delete_composes {namer : Namer} {start : TableName} {result : Synthesis} {depth : Nat}
    {name : String} {deleted : List Int} {r : Row} (hg : σ.schema.Strict)
    (hsynthesis : σ.synthesize namer start = .ok result)
    (hst : st.schema = σ.schema) (hkeys : st.KeysGiven) (hwhole : st.NoDangling)
    (hf : (Program.mk result.registry.functions depth).lookup name = some f)
    (h : ((Program.mk result.registry.functions depth).delete st name ids).result = .ok deleted)
    (hr : σ.Composed st f.table ids t r) :
    ¬ ((Program.mk result.registry.functions depth).delete st name ids).store.Remains t r := by
  have hyields := Program.yields_of_delete h
  obtain ⟨f', hf', hhonoring⟩ := honoring_call hg hst
    (fun hf => Program.serves_of_synthesize hsynthesis hf) hyields
  rw [hf] at hf'
  cases hf'
  obtain ⟨hs, hgone, hkeeps⟩ := hhonoring (.refl hwhole)
  exact hr.not_remains hg.regular hst hkeys hs
    (hkeeps Doom.nothing (.refl st _ _) fun hcaller => by cases hcaller) hgone

end Setting

theorem city_strict : city.schema.Strict := by decide +kernel

/-- The address is composed into the building, and goes with it. -/
theorem Setting.delete_composes_city : ∃ result f,
    city.synthesize (.new "del_" 63) ⟨"city", "building"⟩ = .ok result ∧
      (Program.mk result.registry.functions 8).lookup "del_building" = some f ∧
      city.Composed cityStore f.table [1] ⟨"city", "address"⟩ ⟨[("id", 7)]⟩ ∧
      ¬ (cityDeletion result).store.Remains ⟨"city", "address"⟩ ⟨[("id", 7)]⟩ := by
  obtain ⟨result, f, hsyn, -, hf, htable, hrun, -⟩ := exists_cityDeletion
  have hbuilding : city.Composed cityStore ⟨"city", "building"⟩ [1] ⟨"city", "building"⟩
      ⟨[("id", 1), ("address", 7)]⟩ :=
    .batch (k := "id") (by decide +kernel) (by decide +kernel) (by decide +kernel)
      (List.mem_singleton_self 1)
  have hpoints : city.schema.Points ⟨"city", "building"⟩ ⟨[("id", 1), ("address", 7)]⟩ "address"
      ⟨"city", "address"⟩ ⟨[("id", 7)]⟩ :=
    ⟨by decide +kernel, "id", 7, by decide +kernel, by decide +kernel, by decide +kernel⟩
  have haddress : city.Composed cityStore f.table [1] ⟨"city", "address"⟩ ⟨[("id", 7)]⟩ := by
    rw [htable]
    exact .referenced (k := "id") hbuilding (by decide +kernel) (by decide +kernel) hpoints
      (by decide +kernel) (Setting.means_of_ofRecords rfl (by decide +kernel))
  obtain ⟨-, hgiven, hwhole⟩ := cityStore_valid
  exact ⟨result, f, hsyn, hf, haddress,
    Setting.delete_composes city_strict hsyn rfl hgiven hwhole hf hrun haddress⟩

end DeleteCascade
