import DeleteCascade.Proofs.Deletion.Handover
import DeleteCascade.Proofs.Deletion.Safety
import DeleteCascade.Proofs.Deletion.Settling
/-!
# Deletion — functions that are not hindered

When the call of a visit has come and nothing is in its way, no block of the
function breaks off, as long as the calls do not that the visit leads to
(`Serving`). The blocks before the rows go are safe front by front, and so
are those after; in between, the rows can be deleted because whoever points
at them is settled with, goes along, or is gone.
-/

namespace DeleteCascade

/-- **A function serves a visit**: it is that of the table, cuts rows off
only where it may, and its calls are safe if the visit leads to them. -/
structure Visit.Serving (V : Visit) (p : Program) (σ : Setting) (st : Store) (notes : List String)
    (levels : Nat) (f : DeleteFunction) : Prop where
  serves : p.Serves σ notes f
  table : V.table.same f.table
  cuts : σ.CutsNullable f
  calls : ∀ {V' : Visit} {c : Callee} {ids : List Int} {s : Store}, Visit.Leads σ st V V' →
    c ∈ f.callees → V'.table.same c.table → V'.Expects σ st s ids →
      (p.call levels c.function ids V'.caller).Safe s

section Unhindered

variable {p : Program} {σ : Setting} {st s s' : Store} {notes captured : List String}
variable {levels : Nat} {f : DeleteFunction} {V : Visit} {batch : List Int}
variable {frame frame' : Frame} {l : Front} {before after : List Front}

variable (hkept : σ.WellKept st) (hnone : ∀ ref, cycleNote ref ∉ notes)
variable (hV : V.Serving p σ st notes levels f)

/-! ## Before the rows go -/

section Front

variable (h : V.Expects σ st s batch)
variable (hls : σ.schema.fronts V.table = .ok (before ++ l :: after))
variable (hsettled : ∀ l ∈ before, σ.Needs V.table l → V.Settled σ s batch l)
include hkept hV h hls hsettled

include hnone in
theorem safe_part {r : Reference} {b : SelfParts Callee} (hl : l = .part r)
    (hmem : .selfParts b ∈ f.blocks) (hplan : σ.Plans f.table (·.table) notes captured (.selfParts b))
    (hcolumn : b.column = r.childColumn)
    (hnullable : b.detach = true → σ.schema.isNullable r.child r.childColumn = true) :
    ((Block.selfParts b).run (p.call levels) f batch V.caller frame).Safe s := by
  subst hl
  obtain ⟨column, detach, c⟩ := b
  dsimp only at hcolumn hnullable
  subst hcolumn
  have hschema := hkept.schema_eq h.orderly.intact
  cases hplan with
  | selfParts link classified callee cut =>
    dsimp only at classified callee cut
    have hdetach := cut.resolve_right fun ⟨ref, href⟩ => hnone ref href
    have hl : .part r ∈ before ++ .part r :: after := by simp
    obtain ⟨hchild, hlink⟩ := hkept.strict.regular.link_of_part_mem hls hl
    have hfr : f.table.same r.child :=
      TableName.same_trans (TableName.same_symm hV.table) (TableName.same_symm hchild)
    have hlinkf := hlink.congr hV.table (sameName_refl _) (TableName.same_refl V.table)
    have hk := hV.serves.key
    obtain ⟨d, hd, hlisted⟩ := hkept.listed _ _ _ hlinkf
    have hnull : s.schema.isNullable f.table r.childColumn = true := by
      rw [hschema, Schema.isNullable, Schema.table?_congr _ hfr]
      exact hnullable hdetach
    have htake : s.Takes f.table r.childColumn (f.isPart batch r.childColumn) true
      ((s.rows f.table).filter (f.isPart batch r.childColumn))
      (s.clearWhere f.table r.childColumn (f.isPart batch r.childColumn)) := ⟨rfl, rfl⟩
    have hpart (q : Row) (hq : f.isPart batch r.childColumn q = true) :
        pointsInto batch r.childColumn q = true := by
      simp only [DeleteFunction.isPart, Bool.and_eq_true] at hq
      exact hq.1
    refine Block.safe_selfParts hdetach
      (Store.exists_setNullWhere (by rw [hschema, hd]) hlisted hnull _) ?_
    refine hV.calls (.owned hls rfl (classified.congr hfr (TableName.same_symm hV.table) (by simp)) rfl)
      (List.mem_flatMap.2 ⟨_, hmem, by simp [Block.callees]⟩) ?_ ?_
    · exact TableName.same_trans (TableName.same_symm hfr) (TableName.same_symm callee)
    refine h.toOwned hkept hls hsettled rfl ?_ htake.within (fun x hx hrow => ?_)
      (fun hmeans v hv x htied hfree => ?_) ?_ (fun hchecked => ?_)
    · exact htake.keeps (Setting.invariant_orderly hkept) hk (fun q _ hq => f.isPart_key hq)
        (fun _ => ⟨_, hlinkf⟩) h.orderly
    · obtain ⟨q, hq, hqx⟩ := List.mem_filterMap.1 hx
      obtain ⟨hq, htest⟩ := List.mem_filter.1 hq
      obtain ⟨v, hv, hqv⟩ := pointsInto_iff.1 (hpart q htest)
      refine ⟨v, hv, .part (TableName.same_refl _) ⟨f.keyColumn, ?_, q, ?_, hqx, hqv⟩⟩
      · rw [hschema, ← Schema.key?_congr hfr, hk]
      · rwa [← Store.rows_congr s hfr]
    · cases htied with
      | part same cell =>
        obtain ⟨k, hk', q, hq, hqx, hqv⟩ := cell
        rw [hschema, ← Schema.key?_congr hfr, hk] at hk'
        cases hk'
        rw [← Store.rows_congr s hfr] at hq
        refine List.mem_filterMap.2 ⟨q, List.mem_filter.2 ⟨hq, ?_⟩, hqx⟩
        -- a row that points at itself is busy
        simp only [DeleteFunction.isPart, pointsInto_iff.2 ⟨v, hv, hqv⟩, Bool.true_and,
          bne_iff_ne, ne_eq]
        intro hself
        rw [hqv, hqx, Option.some.injEq] at hself
        subst hself
        refine (h.going_of_batch (TableName.same_symm hchild) hv).elim (fun hgone => hgone ?_) hfree
        exact ⟨f.keyColumn, by rw [hschema, ← Schema.key?_congr hfr, hk], q,
          by rwa [← Store.rows_congr s hfr], hqx⟩
    · refine (h.honors_of_takes hkept hlinkf hk hpart (fun q _ hq => f.isPart_key hq)
        (fun _ _ hx => hx) htake).mono fun n y hy => ?_
      exact hy.imp id fun hy => ⟨TableName.same_trans (TableName.same_symm hfr) hy.1, hy.2⟩
    · cases hchecked

/-- **Children can be called for**, cut off or not. -/
theorem safe_child {i : Incoming} {b : ChildCascade Callee} (hl : l = .enters i)
    (hmem : .childCascade b ∈ f.blocks)
    (hplan : σ.Plans f.table (·.table) notes captured (.childCascade b))
    (hplain : ∀ br, i.shape ≠ .bridge br) (hnotKey : i.reference.childIsKey = false)
    (hchild : b.child = i.reference.child) (hcolumn : b.column = i.reference.childColumn) :
    ((Block.childCascade b).run (p.call levels) f batch V.caller frame).Safe s := by
  subst hl
  obtain ⟨child, childKey, column, detach, check, c⟩ := b
  dsimp only at hchild hcolumn
  subst hchild hcolumn
  have hschema := hkept.schema_eq h.orderly.intact
  have hcut := hV.cuts _ hmem
  cases id hplan with
  | @childCascade _ kind link other key notKey classified owning callee shared unshared entered =>
    dsimp only at link other key notKey classified callee shared unshared hcut
    have hVf := TableName.same_symm hV.table
    have hkeys : ∀ q ∈ s.rows i.reference.child,
        pointsInto batch i.reference.childColumn q = true →
          sameName i.reference.childColumn childKey = false :=
      fun _ _ _ => by rw [sameName_comm, notKey]
    have hlink := link.congr (TableName.same_refl _) (sameName_refl _) hVf
    have hclassified := classified.congr (TableName.same_refl _) hVf (sameName_refl _)
    have howned := Front.owned?_child hplain hnotKey
    -- rows that go anyway are all called for
    have hcomposed (hbinds : σ.Binds i.reference.child V.table i.reference.childColumn) :
        check = none :=
      Setting.ownerCheck_eq_none_of_binds hplan
        (hbinds.congr (TableName.same_refl _) hV.table (sameName_refl _))
    obtain ⟨d, hd, hlisted⟩ := hkept.listed _ _ _ link
    refine Block.safe_childCascade (by rw [hschema, hd]; rfl) (fun hdetach => ?_)
      fun children s₁ htake => ?_
    · exact Store.exists_setNullWhere (by rw [hschema, hd]) hlisted
        (by rw [hschema]; exact hcut hdetach) _
    refine hV.calls (.owned hls howned hclassified owning)
      (List.mem_flatMap.2 ⟨_, hmem, by simp [Block.callees]⟩) (TableName.same_symm callee) ?_
    refine h.toOwned hkept hls hsettled howned ?_ htake.within (fun x hx hrow => ?_)
      (fun hmeans v hv x htied hfree => ?_) ?_ (fun hchecked hmeans => ?_)
    · exact htake.keeps (Setting.invariant_orderly hkept) key hkeys (fun _ => ⟨_, link⟩) h.orderly
    · obtain ⟨q, hq, hqx⟩ := List.mem_filterMap.1 (Setting.unowned_subset _ _ _ _ _ hx)
      rw [htake.rows] at hq
      obtain ⟨hq, htest⟩ := List.mem_filter.1 hq
      obtain ⟨v, hv, hqv⟩ := pointsInto_iff.1 htest
      exact ⟨v, hv, .child hplain hnotKey (TableName.same_refl _)
        ⟨childKey, by rw [hschema, key], q, hq, hqx, hqv⟩⟩
    · rw [hcomposed (Or.inl hmeans), Store.unowned, htake.rows]
      cases htied with
      | child _ _ same cell =>
        obtain ⟨k, hk, q, hq, hqx, hqv⟩ := cell
        rw [hschema, key] at hk
        cases hk
        exact List.mem_filterMap.2 ⟨q, List.mem_filter.2 ⟨hq, pointsInto_iff.2 ⟨v, hv, hqv⟩⟩, hqx⟩
      | far shape => exact absurd shape (hplain _)
    · refine h.honors_of_takes hkept hlink key (fun _ hq => hq) hkeys (fun hbinds => ?_) htake
      rw [hcomposed hbinds]
      exact fun _ hx => hx
    · -- shared rows are asked about where they are cut off
      have hkind := hclassified.eq_of_means hmeans
      cases check with
      | some owners =>
        exact Setting.released_of_unowned hkept.strict (shared owners rfl).2.2 (TableName.same_refl _)
      | none =>
        have hnot := unshared rfl hkind
        obtain ⟨fk, -, henter⟩ := Schema.of_enters_mem hls (by simp : Front.enters i ∈ _)
        obtain ⟨hres, -, -⟩ := Schema.enter_eq_ok_some henter
        rw [Setting.isNullable_of_resolve hres] at hnot
        have hbridge : i.isBridge = false := by
          unfold Incoming.isBridge
          split
          · rename_i br hbr
            exact absurd hbr (hplain br)
          · rfl
        simp [Front.isChecked, hbridge, hnot] at hchecked

/-- **What is behind a bridge can be called for** once its links are gone. -/
theorem safe_bridge {i : Incoming} {br : Bridge} {b : BridgeCascade Callee} (hl : l = .enters i)
    (hmem : .bridgeCascade b ∈ f.blocks)
    (hplan : σ.Plans f.table (·.table) notes captured (.bridgeCascade b))
    (hshape : i.shape = .bridge br) (hbridge : b.bridge = br.table)
    (hnear : b.nearColumn = br.nearColumn) (hfar : b.farColumn = br.farColumn)
    (htarget : b.target = br.farTable) :
    ((Block.bridgeCascade b).run (p.call levels) f batch V.caller frame).Safe s := by
  subst hl
  obtain ⟨bridge, near, far, target, targetKey, owners?, callee⟩ := b
  dsimp only at hbridge hnear hfar htarget
  subst hbridge hnear hfar htarget
  have hschema := hkept.schema_eq h.orderly.intact
  have hrestricts : s.schema.Restricts := hschema ▸ hkept.strict.restricts
  have hVf := TableName.same_symm hV.table
  obtain ⟨hisBridge, hnotKey, -⟩ :=
    Schema.bridge_of_enters_mem hls (by simp : Front.enters i ∈ _) hshape
  have hspec := hisBridge.spec hkept.strict.regular
  have howned := Front.owned?_bridge hshape hnotKey
  cases hplan with
  | @bridgeCascade _ br' kind isBridge table near far target targetKey classified hcheck owned
      unowned =>
    dsimp only at table near far target targetKey hcheck owned
    rw [← table, ← target] at classified
    rw [← target] at hcheck owned
    have hclassified := classified.congr (TableName.same_refl _) hVf (sameName_refl _)
    obtain ⟨d, -, -, hd, -⟩ := hspec.pair
    refine Block.safe_bridgeCascade ?_ fun callee hcallee links s₁ hdelete => ?_
    · -- nothing refers to a bridge
      refine Store.exists_deleteWhere (hschema ▸ hkept.strict.regular) hrestricts
        (by rw [hschema, hd]; rfl) fun u c hlink => ?_
      obtain ⟨k, hk⟩ := (hschema ▸ hkept.strict.regular : s.schema.Regular).key?_of_link hlink
      rw [hschema, hisBridge.key?_eq_none] at hk
      cases hk
    have howning : kind.isOwning = true := by
      by_contra hnot
      rw [unowned (by simpa using hnot)] at hcallee
      cases hcallee
    obtain ⟨c, hc, hsame⟩ := owned howning
    rw [hc, Option.some.injEq] at hcallee
    subst hcallee
    have hdeleted := Store.deleteWhere_of_restricts hrestricts hdelete
    refine hV.calls (.owned hls howned hclassified howning)
      (List.mem_flatMap.2 ⟨_, hmem, by simp [Block.callees, hc]⟩) (TableName.same_symm hsame) ?_
    refine h.toOwned hkept hls hsettled howned
      ((Setting.invariant_orderly hkept).delete h.orderly hdelete)
      (Store.within_deleteWhere hdelete) (fun x hx hrow => ?_)
      (fun hmeans v hv x htied hfree => ?_) ?_ (fun _ hmeans => ?_)
    · obtain ⟨q, hq, hqx⟩ := List.mem_filterMap.1 (Setting.unowned_subset _ _ _ _ _ hx)
      rw [hdeleted.1] at hq
      obtain ⟨hq, htest⟩ := List.mem_filter.1 hq
      obtain ⟨v, hv, hqv⟩ := pointsInto_iff.1 htest
      exact ⟨v, hv, .far hshape (TableName.same_refl _) hq hqv hqx⟩
    · rw [hcheck.eq_none (hclassified.eq_of_means hmeans), Store.unowned, hdeleted.1]
      cases htied with
      | child plain => exact absurd hshape (plain _)
      | @far _ b' _ _ _ q shape same row hqv hqx =>
        rw [hshape] at shape
        cases shape
        exact List.mem_filterMap.2 ⟨q, List.mem_filter.2 ⟨row, pointsInto_iff.2 ⟨v, hv, hqv⟩⟩, hqx⟩
    · refine h.honors_of_unlink hkept hisBridge (fun hmeans => ?_) hdelete
      rw [hcheck.eq_none (hclassified.eq_of_means hmeans)]
      exact fun _ hx => hx
    · have hkind := hclassified.eq_of_means hmeans
      cases owners? with
      | some owners =>
        exact Setting.released_of_unowned hkept.strict hcheck.2 (TableName.same_refl _)
      | none => exact absurd hkind hcheck

/-- **Subtypes can be called for**, one after the other. -/
theorem safe_subtypes (hserves : ∀ {name f}, p.lookup name = some f → p.Serves σ notes f)
    {b : SubtypeDispatch Callee} (hl : l = .subtypes) (hmem : .subtypeDispatch b ∈ f.blocks)
    (hplan : σ.Plans f.table (·.table) notes captured (.subtypeDispatch b))
    (hmeets : σ.Meets V.table .subtypes (.subtypeDispatch b)) :
    ((Block.subtypeDispatch b).run (p.call levels) f batch V.caller frame).Safe s := by
  subst hl
  have hcallees {c : Callee} (hc : c ∈ (Block.subtypeDispatch b).callees) : c ∈ f.callees :=
    List.mem_flatMap.2 ⟨_, hmem, hc⟩
  have hsub {c : Callee} (hc : c ∈ (Block.subtypeDispatch b).callees) :
      σ.schema.IsSubtype c.table V.table := by
    cases hplan with
    | subtypeDispatch subtypes =>
      exact (subtypes c hc).congr (TableName.same_refl _) (TableName.same_symm hV.table)
  cases hmeets with
  | @subtypes _ classes hclasses typed untyped complete found place =>
    refine Block.safe_subtypeDispatch (P := fun s => V.Expects σ st s batch ∧
      ∀ l ∈ before, σ.Needs V.table l → V.Settled σ s batch l) ?_ ?_ ?_ ?_ ⟨h, hsettled⟩
    · rintro d hd s ⟨h, -⟩
      obtain ⟨t', -, hplace⟩ := place d hd
      obtain ⟨-, hk, -⟩ := Setting.findDiscriminator_eq_ok hplace
      obtain ⟨table, htable, -⟩ := Schema.primaryKey_of_key? hk
      rw [hkept.schema_eq h.orderly.intact, htable]
      rfl
    · rintro hcalls case hcase id hid s ⟨h, hsettled⟩
      have hc : case.callee ∈ (Block.subtypeDispatch b).callees :=
        List.mem_append_left _ (List.mem_map.2 ⟨case, hcase, rfl⟩)
      obtain ⟨hof, hne⟩ := typed case hcase
      refine hV.calls (.subtype hls ⟨hsub hc, fun hskips => ?_⟩) (hcallees hc)
        (TableName.same_refl _) (h.toSubtype hkept hls hsettled (hsub hc) (by simpa using hid)
          fun huntyped => ?_)
      · rw [hcalls] at hskips
        cases hskips
      · exact absurd ⟨classes, hclasses, hof ▸ hne⟩ huntyped
    · rintro hook hhook s ⟨h, hsettled⟩
      have hc : hook ∈ (Block.subtypeDispatch b).callees := List.mem_append_right _ hhook
      refine hV.calls (.subtype hls ⟨hsub hc, fun _ => ?_⟩) (hcallees hc)
        (TableName.same_refl _) (h.toSubtype hkept hls hsettled (hsub hc) (List.Subset.refl _)
          fun _ => List.Subset.refl _)
      rintro ⟨classes', hclasses', hne⟩
      rw [hclasses] at hclasses'
      cases hclasses'
      exact hne (untyped hook hhook)
    · rintro c hc ids hids s deleted s' ⟨h, hsettled⟩ hcall
      obtain ⟨hs', -, hkeeps⟩ := Setting.honoring_callee hkept.strict hkept.schema hserves hV.serves
        (hcallees hc) hcall h.orderly.intact
      have hlater := Program.call_intact hkept.strict.regular hkept.strict.restricts
        (hkept.schema_eq h.orderly.intact) hserves hcall h.orderly.intact.restart
      refine ⟨h.later ?_ (Program.call_within hcall) (hkeeps _ h.honors fun _ w hw v hv => ?_),
        fun l hl hneeds => (hsettled l hl hneeds).later (hkept.schema_eq h.orderly.intact) hlater⟩
      · exact Program.call_keeps (Setting.invariant_orderly hkept) hserves hcall h.orderly
      · exact Or.inr ⟨(hsub hc).unique hkept.strict.oneKey hw, hids hv⟩

include hnone in
/-- **No front stops a function.** -/
theorem safe_front (hserves : ∀ {name f}, p.lookup name = some f → p.Serves σ notes f)
    {b : Block Callee} (hmem : b ∈ f.blocks)
    (hplan : σ.Plans f.table (·.table) notes captured b) (hmeets : σ.Meets V.table l b) :
    (b.run (p.call levels) f batch V.caller frame).Safe s := by
  cases hmeets with
  | part column nullable =>
    exact safe_part hkept hnone hV h hls hsettled rfl hmem hplan column nullable
  | child plain notKey child column =>
    exact safe_child hkept hV h hls hsettled rfl hmem hplan plain notKey child column
  | bridge shape notKey bridge near far target =>
    exact safe_bridge hkept hV h hls hsettled rfl hmem hplan shape bridge near far target
  | subtypes classMap typed untyped complete found place =>
    exact safe_subtypes hkept hV h hls hsettled hserves rfl hmem hplan
      (.subtypes classMap typed untyped complete found place)

end Front

end Unhindered

end DeleteCascade
