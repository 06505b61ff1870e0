import DeleteCascade.Proofs.Deletion.Unhindered
/-!
# Deletion — a function passes

A function that is called as a visit foresees, with nothing in the way,
passes through all its blocks (`safe_body`). Until its rows go it is
`Underway`: the fronts behind it are settled, and what it has noted are rows
of the batch. Then the rows can be deleted (`safe_rows`), since a row that
still points at one of them would be one without an excuse. After that the
function has `Departed` from them, and calls for what they pointed at and
for their supertype.
-/

namespace DeleteCascade

/-- What comes first in a list of lists put together comes from some item,
and the items before it are through. -/
theorem exists_of_flatMap_eq {α β : Type} {g : α → List β} {l : List α} {done rest : List β} {b : β}
    (h : l.flatMap g = done ++ b :: rest) : ∃ before a after, l = before ++ a :: after ∧ b ∈ g a ∧
      ∀ a' ∈ before, g a' ⊆ done := by
  induction l generalizing done with
  | nil => simp at h
  | cons a l ih =>
    rw [List.flatMap_cons] at h
    rcases List.append_eq_append_iff.1 h with ⟨more, rfl, hmore⟩ | ⟨left, hleft, hrest⟩
    · obtain ⟨before, a', after, rfl, hb, hbefore⟩ := ih hmore
      refine ⟨a :: before, a', after, rfl, hb, fun x hx => ?_⟩
      rcases List.mem_cons.1 hx with rfl | hx
      · exact List.subset_append_left _ _
      · exact List.Subset.trans (hbefore x hx) (List.subset_append_right _ _)
    · cases left with
      | nil =>
        have hnow : l.flatMap g = [] ++ b :: rest := hrest.symm
        obtain ⟨before, a', after, rfl, hb, hbefore⟩ := ih hnow
        refine ⟨a :: before, a', after, rfl, hb, fun x hx => ?_⟩
        rcases List.mem_cons.1 hx with rfl | hx
        · simp [hleft]
        · exact List.Subset.trans (hbefore x hx) (by simp)
      | cons b' left =>
        cases hrest
        exact ⟨[], a, l, rfl, by simp [hleft], by simp⟩

section Passage

variable {p : Program} {σ : Setting} {st s s' : Store} {notes captured : List String}
variable {levels : Nat} {f : DeleteFunction} {V : Visit} {batch ids deleted : List Int}
variable {frame frame' : Frame} {ls : List Front} {done : List (Block Callee)} {b : Block Callee}
variable {t : TableName} {name : String} {caller : Caller}

section Pointing

variable (hkept : σ.WellKept st)
include hkept

/-! ## Whoever points at the rows -/

variable {fronts : List Front} (hls : σ.schema.fronts V.table = .ok fronts)
variable (hs : Store.Intact st s)
variable (hsettled : ∀ l ∈ fronts, σ.Needs V.table l → V.Settled σ s batch l)
include hls hsettled

omit hkept in
/-- Nothing links to the batch over a bridge. -/
theorem not_points_of_linksBy {u : TableName} {c : String} {q : Row} {v : Int}
    (hlinks : σ.schema.LinksBy V.table u c) (hq : q ∈ s.rows u) (hv : v ∈ batch) :
    q.get? c ≠ some v := by
  obtain ⟨b, ⟨fk, hfk, i, henter, hshape⟩, htable, hnear⟩ := hlinks
  have hi := Schema.enters_mem hls hfk henter
  obtain ⟨-, -, hb, hcol⟩ := Schema.bridge_of_enters_mem hls hi hshape
  exact (hsettled _ hi (.bridge hshape)).get?_ne (hb ▸ htable) (hcol ▸ hnear) hq hv

include hs

/-- **Over a link that is cleared, only a row of the batch itself still
points at one.** -/
theorem points_of_clears {u : TableName} {c : String} {q : Row} {v : Int}
    (hlink : σ.schema.Link u c V.table) (hclears : V.Clears σ u c) (hq : q ∈ s.rows u)
    (hv : v ∈ batch) (hqv : q.get? c = some v) :
    u.same V.table ∧ ∃ k, σ.schema.key? V.table = some k ∧ pointsInto batch k q = true := by
  cases hclears with
  | part same means =>
    obtain ⟨r, hr, hchild, hcol⟩ := hkept.strict.regular.exists_part hls hlink same
    rw [Store.rows_congr s same] at hq
    obtain ⟨k, hk, hqk⟩ := hsettled _ hr (.part fun kind hkind => hkind.eq_of_means
      (means.congr same (TableName.same_refl _) (sameName_symm hcol))) q hq v hv
      (by rw [Row.get?_congr q hcol, hqv])
    exact ⟨same, k, hk, pointsInto_iff.2 ⟨v, hv, hqk⟩⟩
  | child other notKey all =>
    obtain ⟨i, hi, hchild, hcol⟩ := hkept.strict.regular.exists_enters hls hlink other
    obtain ⟨fk, -, henter⟩ := Schema.of_enters_mem hls hi
    obtain ⟨hres, -, -⟩ := Schema.enter_eq_ok_some henter
    refine absurd hqv ((hsettled _ hi (.child (Schema.childIsKey_eq_false hres hchild hcol notKey)
      fun kind hkind => ?_)).get?_ne hchild hcol hq hv)
    exact all kind (hkind.congr hchild (TableName.same_refl _) hcol)
  | bridge links => exact absurd hqv (not_points_of_linksBy hls hsettled links hq hv)
  | subtype dispatches key =>
    obtain ⟨k, hk, -⟩ := id dispatches.1
    refine absurd ⟨k, by rw [hkept.schema_eq hs, hk], q, hq, ?_⟩
      (hsettled _ (Schema.subtypes_mem hls) (.subtypes dispatches.1) u dispatches v hv)
    rw [Row.get?_congr q (key k hk), hqv]

/-- **The rows can be deleted**: whoever still points at one of them goes
with it. -/
theorem safe_rows (h : V.Expects σ st s batch) (hunhindered : V.Unhindered σ st)
    (htable : V.table.same f.table) (hk : σ.schema.key? f.table = some f.keyColumn) :
    ((Block.localDelete captured).run (p.call levels) f batch caller frame).Safe s := by
  have hschema := hkept.schema_eq hs
  obtain ⟨d, hd, -⟩ := Schema.primaryKey_of_key? hk
  refine Block.safe_localDelete (Store.exists_deleteWhere (hschema ▸ hkept.strict.regular)
    (hschema ▸ hkept.strict.restricts) (by rw [hschema, hd]; rfl) ?_)
  intro u c hlink q hq v hqv k hk' r hr hrk htest
  rw [hschema, hk] at hk'
  cases hk'
  rw [hschema] at hlink
  have hlink := hlink.congr (TableName.same_refl u) (sameName_refl c) (TableName.same_symm htable)
  obtain ⟨w, hv, hw⟩ := pointsInto_iff.1 htest
  rw [hrk] at hw
  cases hw
  obtain ⟨a, ha, harrived⟩ := h.arrival v hv
    ⟨f.keyColumn, by rw [hschema, Schema.key?_congr htable, hk], r,
      by rwa [Store.rows_congr s htable], hrk⟩
  obtain ⟨origin, horigin, hvalues, hkeys⟩ := hs.origin hq
  have hrow {l : String} {y : Int} (hl : σ.schema.key? u = some l) (hy : origin.get? l = some y) :
      q.get? l = some y ∧ s.HasRow u y := by
    have hqy : q.get? l = some y := by rw [hkeys l (by rw [hkept.schema, hl]), hy]
    exact ⟨hqy, l, by rw [hschema, hl], q, hq, hqy⟩
  rcases hunhindered fronts hls v a ha u c hlink origin horigin (hvalues c v hqv) with
    hclears | hexcuses
  · obtain ⟨hsame, k, hk', hin⟩ := points_of_clears hkept hls hs hsettled hlink hclears hq hv hqv
    rw [Schema.key?_congr htable, hk] at hk'
    cases hk'
    exact ⟨TableName.same_trans hsame htable, hin⟩
  · cases hexcuses with
    | mate same key value mate =>
      obtain ⟨hqy, hrowq⟩ := hrow key value
      have hmem := harrived.mates _ mate ((Store.hasRow_congr same).1 hrowq)
      rw [Schema.key?_congr (TableName.same_trans same htable), hk] at key
      cases key
      exact ⟨TableName.same_trans same htable, pointsInto_iff.2 ⟨_, hmem, hqy⟩⟩
    | gone key value gone =>
      exact absurd (hrow key value).2 (h.not_hasRow_of_swept hkept harrived hls
        (List.Subset.refl _) hsettled gone)
    | owner shared other notKey all =>
      by_cases hlinks : σ.schema.LinksBy V.table u c
      · exact absurd hqv (not_points_of_linksBy hls hsettled hlinks hq hv)
      · exact absurd hqv (h.shared shared v hv u c hlink other notKey hlinks all q hq)

end Pointing

variable (hkept : σ.WellKept st)
variable (hserves : ∀ {name f}, p.lookup name = some f → p.Serves σ notes f)
include hkept hserves

/-! ## What was noted -/

/-- **What a call reports was there** when it was made. -/
theorem hasRow_of_reported (hs : σ.Orderly st s)
    (h : (p.call levels name ids caller).Yields s deleted s') :
    ∃ f, p.lookup name = some f ∧ ∀ v ∈ deleted, s.HasRow f.table v := by
  have hschema := hkept.schema_eq hs.intact
  obtain ⟨deeper, g, -, hg, -⟩ := Program.call_yields h
  obtain ⟨f, hf, hsparing⟩ : ∃ f, p.lookup name = some f ∧
      σ.SparingCall s g.table ids f.table ids s deleted s' :=
    Setting.sparing_call hkept.strict.regular hschema (fun fk hfk hcascade => by
      rcases hkept.strict.restricts fk hfk with hact | hact
      · rw [hact] at hcascade
        cases hcascade
      · rw [hact] at hcascade
        cases hcascade) hs.unique hs.intact.whole hserves h
  rw [hg, Option.some.injEq] at hf
  subst hf
  obtain ⟨-, hknown⟩ := hsparing .nothing (.refl σ s g.table ids _)
    fun k hk q hq v hv hqv => .batch hq hk hqv hv
  refine ⟨g, hg, fun v hv => ?_⟩
  obtain ⟨k, hk, q, hq, hqv, -⟩ := hknown v hv
  exact ⟨k, hk, q, hq, hqv⟩

/-- **What a dispatch notes** are rows of the batch that were there. -/
theorem hasRow_of_dispatches (hs : σ.Orderly st s) {callees : List Callee}
    (hsub : ∀ c ∈ callees, σ.schema.IsSubtype c.table t)
    (hcallees : ∀ c ∈ callees, ∀ g, p.lookup c.function = some g → g.table.same c.table)
    {noted noted' : List Int}
    (h : Dispatches (CallFunction.calls (p.call levels)) callees batch noted s noted' s') :
    ∀ v ∈ noted', v ∈ noted ∨ (v ∈ batch ∧ s.HasRow t v) := by
  induction h with
  | done => exact fun v => Or.inl
  | @call c ids deleted new noted noted' s s₁ s' hc hids run hnew _ ih =>
    have hcall := Program.call_keeps (Setting.invariant_orderly hkept) hserves run hs
    intro v hv
    rcases ih hcall v hv with hv | ⟨hv, hrow⟩
    · rcases List.mem_append.1 hv with hv | hv
      · exact Or.inl hv
      · obtain ⟨hmem, hreported⟩ := hnew v hv
        obtain ⟨g, hg, hwas⟩ := hasRow_of_reported hkept hserves hs run
        refine Or.inr ⟨hmem, hkept.hasRow_of_subtype hs.intact (hsub c hc) ?_⟩
        exact (Store.hasRow_congr (hcallees c hc g hg)).1 (hwas v hreported)
    · exact Or.inr ⟨hv, hrow.of_within (Program.call_within run)⟩

/-! ## Until the rows go -/

/-- **A function is underway** on a visit, done with these blocks. -/
structure Visit.Underway (V : Visit) (σ : Setting) (st s : Store) (batch : List Int)
    (done : List (Block Callee)) (frame : Frame) : Prop where
  expects : V.Expects σ st s batch
  settled : ∀ ls, σ.schema.fronts V.table = .ok ls → ∀ l ∈ ls, ∀ b ∈ done, σ.Meets V.table l b →
    V.Settled σ s batch l
  /-- What was noted are rows of the batch. -/
  noted : ∀ v ∈ frame.deleted, ∃ a, V.rows v a ∧ V.Arrived a s batch

/-- **A block that is done keeps the function underway**, if it comes before
the rows go. -/
theorem Visit.Underway.step (h : V.Underway σ st s batch done frame)
    (hnone : ∀ ref, cycleNote ref ∉ notes) (hf : p.Serves σ notes f) (htable : V.table.same f.table)
    (hmem : b ∈ f.blocks) (hplan : σ.Plans f.table (·.table) notes captured b)
    (hearly : b.kind.isEarly = true)
    (hrun : (b.run (p.call levels) f batch V.caller frame).Yields s frame' s') :
    V.Underway σ st s' batch (done ++ [b]) frame' := by
  have hruns := Block.runs_of_yields hrun
  have hcallees {c : Callee} (hc : c ∈ b.callees) : c ∈ f.callees :=
    List.mem_flatMap.2 ⟨b, hmem, hc⟩
  have hs := h.expects.orderly
  have hschema := hkept.schema_eq hs.intact
  have hs' : σ.Orderly st s' := hruns.keeps (Setting.invariant_orderly hkept) hf.key hplan
    (Program.call_keeps (Setting.invariant_orderly hkept) hserves) hs
  have hlater : Store.Intact s s' := hruns.intact hkept.strict.regular hkept.strict.restricts
    hschema hf.key hplan (Program.call_intact hkept.strict.regular hkept.strict.restricts hschema
      hserves) hs.intact.restart
  have hhonors : s'.Honors st σ.Composes (V.doomed.add f.table batch) :=
    Setting.honors_early hkept.strict hkept.schema hf.key hplan hearly
      (fun hc hcall => Setting.honoring_callee hkept.strict hkept.schema hserves hf (hcallees hc)
        hcall) hruns hs.intact
      (h.expects.honors.mono fun u v hv => hv.imp id fun ⟨hsame, hv⟩ =>
        ⟨TableName.same_trans (TableName.same_symm htable) hsame, hv⟩)
  refine ⟨h.expects.later hs' hlater.within (hhonors.mono fun u v hv => hv.imp id
    fun ⟨hsame, hv⟩ => ⟨TableName.same_trans htable hsame, hv⟩), fun ls hls l hl b' hb' hmeets => ?_,
    fun v hv => ?_⟩
  · rcases List.mem_append.1 hb' with hb' | hb'
    · exact (h.settled ls hls l hl b' hb' hmeets).later hschema hlater
    · obtain rfl := List.mem_singleton.1 hb'
      exact settled_of_yields hserves hkept hnone hs hf htable hmem hplan hls hl hmeets hrun
  · have hold (hv : v ∈ frame.deleted) : ∃ a, V.rows v a ∧ V.Arrived a s' batch := by
      obtain ⟨a, ha, harrived⟩ := h.noted v hv
      exact ⟨a, ha, harrived.later hlater.within⟩
    cases hruns with
    | subtypeDispatch calls =>
      cases hplan with
      | subtypeDispatch subtypes =>
        rcases hasRow_of_dispatches hkept hserves hs subtypes (fun c hc => hf.callees c (hcallees hc))
          calls v hv with hv | ⟨hv, hrow⟩
        · exact hold hv
        · obtain ⟨a, ha, harrived⟩ := h.expects.arrival v hv ((Store.hasRow_congr htable).2 hrow)
          exact ⟨a, ha, harrived.later hlater.within⟩
    | localDelete => cases hearly
    | parentCascade => cases hearly
    | _ => exact hold hv

/-- **The fronts do not stop a function**, and it is underway behind them. -/
theorem safe_fronts (hnone : ∀ ref, cycleNote ref ∉ notes)
    (hV : V.Serving p σ st notes levels f) (h : V.Expects σ st s batch)
    {front : List (Block Callee)} (hmem : front ⊆ f.blocks)
    (hplans : ∀ b ∈ front, σ.Plans f.table (·.table) notes captured b)
    (hearly : ∀ b ∈ front, b.kind.isEarly = true) {ls : List Front}
    (hls : σ.schema.fronts V.table = .ok ls) {part : Front → List (Block Callee)}
    (hfront : front = ls.flatMap part) (hpart : ∀ l ∈ ls,
      (∀ b ∈ part l, σ.Meets V.table l b) ∧ (σ.Needs V.table l → part l ≠ [])) :
    (front.foldlM (fun frame (b : Block Callee) =>
        b.run (p.call levels) f batch V.caller frame) .empty).Safe s ∧
      ∀ frame' s', (front.foldlM (fun frame (b : Block Callee) =>
          b.run (p.call levels) f batch V.caller frame) .empty).Yields s frame' s' →
        V.Underway σ st s' batch front frame' := by
  refine Run.safe_foldlM (P := fun done frame s => V.Underway σ st s batch done frame)
    (fun done b rest frame s hsplit hunderway => ?_) ⟨h, by simp, by simp [Frame.empty]⟩
  have hb : b ∈ front := by simp [hsplit]
  obtain ⟨before, l, after, rfl, hbl, hbefore⟩ := exists_of_flatMap_eq (hfront.symm.trans hsplit)
  refine ⟨safe_front hkept hnone hV hunderway.expects hls (fun l' hl' hneeds => ?_) hserves
    (hmem hb) (hplans b hb) ((hpart l (by simp)).1 b hbl), fun frame' s' hrun => ?_⟩
  · have hl'mem : l' ∈ before ++ l :: after := by simp [hl']
    obtain ⟨hmeets, hhas⟩ := hpart l' hl'mem
    obtain ⟨b', hb'⟩ := List.exists_mem_of_ne_nil _ (hhas hneeds)
    exact hunderway.settled _ hls l' hl'mem b' (hbefore l' hl' hb') (hmeets b' hb')
  · exact hunderway.step hkept hserves hnone hV.serves hV.table (hmem hb) (hplans b hb) (hearly b hb)
      hrun

/-! ## When the rows are gone -/

/-- **A function has departed from its rows**, which it deleted from `s₁`,
and remembers what they were bound to. -/
structure Visit.Departed (V : Visit) (σ : Setting) (st s₁ s : Store) (batch : List Int)
    (captured : List String) (frame : Frame) : Prop where
  orderly : σ.Orderly st s
  within : s.Within s₁
  gone : ∀ v ∈ batch, ¬ s.HasRow V.table v
  honors : s.Honors st σ.Composes (V.pending σ st)
  arrived : ∀ v ∈ frame.deleted, ∃ a, V.rows v a ∧ V.Arrived a s₁ batch
  deleted : ∀ v ∈ batch, s₁.HasRow V.table v → v ∈ frame.deleted
  captured : ∀ (i : Nat) (c : String), captured[i]? = some c → ∀ x,
    x ∈ (frame.captured[i]?).getD [] ↔ ∃ v ∈ batch, (Fact.cell V.table v c x).Holds s₁

omit hserves in
/-- Deleting the rows departs from them. -/
theorem Visit.Underway.departed (h : V.Underway σ st s batch done frame)
    (htable : V.table.same f.table) (hk : σ.schema.key? f.table = some f.keyColumn)
    (hrun : ((Block.localDelete captured).run (p.call levels) f batch caller frame).Yields s
      frame' s') : V.Departed σ st s s' batch captured frame' := by
  have hs := h.expects.orderly
  have hschema := hkept.schema_eq hs.intact
  have hkV : σ.schema.key? V.table = some f.keyColumn := by rw [Schema.key?_congr htable, hk]
  cases Block.runs_of_yields hrun with
  | @localDelete _ _ _ _ rows remove =>
    obtain ⟨hrows, -⟩ := Store.deleteWhere_of_restricts (hschema ▸ hkept.strict.restricts) remove
    -- the rows that went are those with a key of the batch
    have hcell {c : String} {x : Int} : x ∈ rows.filterMap (·.get? c) ↔
        ∃ v ∈ batch, (Fact.cell V.table v c x).Holds s := by
      simp only [hrows, List.mem_filterMap, List.mem_filter, ← Store.rows_congr s htable]
      constructor
      · rintro ⟨q, ⟨hq, htest⟩, hqx⟩
        obtain ⟨v, hv, hqv⟩ := pointsInto_iff.1 htest
        exact ⟨v, hv, f.keyColumn, by rw [hschema, hkV], q, hq, hqv, hqx⟩
      · rintro ⟨v, hv, k, hk', q, hq, hqv, hqx⟩
        rw [hschema, hkV] at hk'
        cases hk'
        exact ⟨q, ⟨hq, pointsInto_iff.2 ⟨v, hv, hqv⟩⟩, hqx⟩
    refine ⟨(Setting.invariant_orderly hkept).delete hs remove, Store.within_deleteWhere remove,
      fun v hv hrow => ?_, h.expects.honors_pending hkept hkV htable remove, fun v hv => ?_,
      fun v hv hrow => ?_, fun i c hi x => ?_⟩
    · exact Program.not_hasRow_of_deleteWhere (by rw [hschema, hk]) remove hv
        ((Store.hasRow_congr htable).1 hrow)
    · rcases List.mem_append.1 hv with hv | hv
      · exact h.noted v hv
      · obtain ⟨w, hw, k, hk', q, hq, hqw, hqv⟩ := hcell.1 hv
        rw [hschema, hkV] at hk'
        cases hk'
        rw [hqw, Option.some.injEq] at hqv
        subst hqv
        exact h.expects.arrival w hw ⟨f.keyColumn, by rw [hschema, hkV], q, hq, hqw⟩
    · obtain ⟨k, hk', q, hq, hqv⟩ := hrow
      have hk'' := hk'
      rw [hschema, hkV] at hk''
      cases hk''
      exact List.mem_append_right _ (hcell.2 ⟨v, hv, f.keyColumn, hk', q, hq, hqv, hqv⟩)
    · simp only [List.getElem?_map, hi, Option.map_some, Option.getD_some, mem_ascending]
      exact hcell

/-- **A block after the rows are gone stays away from them.** -/
theorem Visit.Departed.step {s₁ : Store} (h : V.Departed σ st s₁ s batch captured frame)
    (hf : p.Serves σ notes f) (hmem : b ∈ f.blocks)
    (hplan : σ.Plans f.table (·.table) notes captured b)
    (hlate : (∃ c, b = .referencedCleanup c) ∨ ∃ callee, b = .parentCascade callee)
    (hrun : (b.run (p.call levels) f batch V.caller frame).Yields s frame' s') :
    V.Departed σ st s₁ s' batch captured frame' := by
  have hruns := Block.runs_of_yields hrun
  have hcallees {c : Callee} (hc : c ∈ [b].flatMap (·.callees)) : c ∈ f.callees := by
    obtain ⟨b', hb', hcb⟩ := List.mem_flatMap.1 hc
    rw [List.mem_singleton.1 hb'] at hcb
    exact List.mem_flatMap.2 ⟨b, hmem, hcb⟩
  have hframe : frame' = frame := by
    rcases hlate with ⟨c, rfl⟩ | ⟨callee, rfl⟩
    · cases hruns
      rfl
    · cases hruns
      · rfl
      · rfl
  subst hframe
  have hw := hruns.within Program.call_within
  have hhonors : s'.Honors st σ.Composes (V.pending σ st) :=
    Setting.honors_back hkept.strict hkept.schema hf.key (by simpa using hplan)
      (by simpa using hlate) (Program.call_intact hkept.strict.regular hkept.strict.restricts
        hkept.schema hserves)
      (fun hc hcall => Setting.honoring_callee hkept.strict hkept.schema hserves hf (hcallees hc)
        hcall) (.cons hruns .nil) h.orderly.intact (h.honors.mono fun _ _ => Or.inl)
  exact ⟨hruns.keeps (Setting.invariant_orderly hkept) hf.key hplan
      (Program.call_keeps (Setting.invariant_orderly hkept) hserves) h.orderly,
    hw.trans h.within, fun v hv hrow => h.gone v hv (hrow.of_within hw), hhonors, h.arrived,
    h.deleted, h.captured⟩

omit hserves in
/-- **The calls for what the rows pointed at, and for their supertype, can
be made.** -/
theorem safe_late {s₁ : Store} (h : V.Departed σ st s₁ s batch captured frame)
    (hV : V.Serving p σ st notes levels f) (hexpects : V.Expects σ st s₁ batch) {ls : List Front}
    (hls : σ.schema.fronts V.table = .ok ls)
    (hsettled : ∀ l ∈ ls, σ.Needs V.table l → V.Settled σ s₁ batch l)
    (hmem : b ∈ f.blocks) (hplan : σ.Plans f.table (·.table) notes captured b)
    (hlate : (∃ c, b = .referencedCleanup c) ∨ ∃ callee, b = .parentCascade callee) :
    (b.run (p.call levels) f batch V.caller frame).Safe s := by
  have hVf := TableName.same_symm hV.table
  have hregular := hkept.strict.regular
  have hcallees {c : Callee} (hc : c ∈ b.callees) : c ∈ f.callees :=
    List.mem_flatMap.2 ⟨b, hmem, hc⟩
  rcases hlate with ⟨b, rfl⟩ | ⟨callee, rfl⟩
  · cases hplan with
    | @referencedCleanup _ kind slot link other notKey classified owning key check callee =>
      have hclassified := classified.congr (TableName.same_refl _) hVf (sameName_refl _)
      have hlink := (link hregular).congr hVf (sameName_refl _) (TableName.same_refl _)
      have hother : V.table.same b.target = false := by
        rw [TableName.same_congr_left hV.table, other hregular]
      refine Block.safe_referencedCleanup (hV.calls (.target hls hlink hother (fun k hk => ?_)
        (hclassified.mayOwn owning)) (hcallees (by simp [Block.callees]))
        (TableName.same_symm callee) (hexpects.toTarget hkept hls hsettled hlink hother h.orderly
          h.within h.gone h.honors (fun x hx => ?_) (fun hmeans v hv x hcell => ?_)
          (fun hmeans => ?_)))
      · exact notKey hregular k (by rw [← Schema.key?_congr hV.table, hk])
      · exact (h.captured _ _ slot x).1 (Setting.unowned_subset _ _ _ _ _ hx)
      · rw [check.eq_none (hclassified.eq_of_means hmeans), Store.unowned]
        exact (h.captured _ _ slot x).2 ⟨v, hv, hcell⟩
      · have hkind := hclassified.eq_of_means hmeans
        obtain ⟨column, index, target, targetKey, owners?, callee⟩ := b
        cases owners? with
        | some owners =>
          exact Setting.released_of_unowned hkept.strict check.2 (TableName.same_refl _)
        | none => exact absurd hkind check
  · cases hplan with
    | parentCascade supertype =>
      have hsub := (supertype hregular).congr hVf (TableName.same_refl _)
      refine Block.safe_parentCascade fun hcalls => hV.calls (.supertype hls hsub hcalls)
        (hcallees (by simp [Block.callees])) (TableName.same_refl _) ?_
      exact hexpects.toSupertype hkept hls hsettled hsub h.orderly h.within h.gone h.honors
        h.arrived h.deleted

/-! ## All blocks -/

/-- **A function passes through its blocks** if nothing is in the way of the
visit. -/
theorem safe_body (hnone : ∀ ref, cycleNote ref ∉ notes) (hV : V.Serving p σ st notes levels f)
    (hunhindered : V.Unhindered σ st) (h : V.Expects σ st s batch)
    {front back : List (Block Callee)} (hblocks : f.blocks = front ++ .localDelete captured :: back)
    (hbody : σ.IsBody f.table (·.table) notes captured front back)
    (hlined : σ.Lined f.table front) :
    (f.blocks.foldlM (fun frame (b : Block Callee) =>
      b.run (p.call levels) f batch V.caller frame) .empty).Safe s := by
  have hk := hV.serves.key
  obtain ⟨ls, hls, part, hfront, hpart⟩ := hlined.congr (TableName.same_symm hV.table)
  obtain ⟨hsafe, hfronts⟩ := safe_fronts hkept hserves hnone hV h (by simp [hblocks])
    (fun b hb => hbody.plans b (by simp [hb])) hbody.early hls hfront hpart
  rw [hblocks, List.foldlM_append]
  refine Run.safe_bind hsafe fun frame₁ s₁ hrun => ?_
  have hunderway := hfronts frame₁ s₁ hrun
  have hsettled (l : Front) (hl : l ∈ ls) (hneeds : σ.Needs V.table l) :
      V.Settled σ s₁ batch l := by
    obtain ⟨hmeets, hhas⟩ := hpart l hl
    obtain ⟨b, hb⟩ := List.exists_mem_of_ne_nil _ (hhas hneeds)
    refine hunderway.settled ls hls l hl b ?_ (hmeets b hb)
    rw [hfront]
    exact List.mem_flatMap.2 ⟨l, hl, hb⟩
  rw [List.foldlM_cons]
  refine Run.safe_bind (safe_rows hkept hls hunderway.expects.orderly.intact hsettled
    hunderway.expects hunhindered hV.table hk) fun frame₂ s₂ hrows => ?_
  have hdeparted := hunderway.departed hkept hV.table hk hrows
  refine (Run.safe_foldlM (P := fun _ frame s => V.Departed σ st s₁ s batch captured frame)
    (fun done b rest frame s hback hdeparted => ?_) hdeparted).1
  have hb : b ∈ back := by simp [hback]
  have hmem : b ∈ f.blocks := by simp [hblocks, hb]
  have hplan := hbody.plans b (by simp [hb])
  exact ⟨safe_late hkept hdeparted hV hunderway.expects hls hsettled hmem hplan (hbody.late b hb),
    fun frame' s' hrun => hdeparted.step hkept hserves hV.serves hmem hplan (hbody.late b hb) hrun⟩

end Passage

end DeleteCascade
