import DeleteCascade.Proofs.Deletion.Foresight
/-!
# Deletion — fronts are settled

A block of a function settles the front that it deals with
(`settled_of_yields`): what was tied to the batch there is cut off or gone.
For the links of a table this can be told from what the block did. For the
subtypes it takes the run itself: of the subtypes that store classes one is
called for each object, and that it is the right one hangs on what the
discriminator says at that moment (`gone_of_runTyped`).
-/

namespace DeleteCascade

section Settling

variable {p : Program} {σ : Setting} {st s s' : Store} {notes captured : List String}
variable {levels : Nat} {f : DeleteFunction} {V : Visit} {batch : List Int} {caller : Caller}
variable {frame frame' : Frame} {l : Front} {t u : TableName} {v : Int}

/-- A row of a table has rows all the way up to the topmost supertype. -/
theorem Setting.WellKept.hasRow_of_subtypes (hkept : σ.WellKept st) (hs : Store.Intact st s)
    (hsub : Relation.ReflTransGen σ.schema.IsSubtype t u) (hrow : s.HasRow t v) : s.HasRow u v := by
  induction hsub with
  | refl => exact hrow
  | tail _ hstep ih => exact hkept.hasRow_of_subtype hs hstep ih

/-- What is looked up for one object of an orderly store is its row. -/
theorem Setting.Orderly.head?_filter (hs : σ.Orderly st s) {k c : String} {x : Int}
    (hk : s.schema.key? t = some k) (hF : (Fact.cell t x c v).Holds s) :
    (((s.rows t).filter fun r => r.get? k == some x).head?.bind (·.get? c)) = some v := by
  obtain ⟨l, hl, r, hr, hx, hv⟩ := hF
  rw [hk] at hl
  cases hl
  have hmem : r ∈ (s.rows t).filter fun r => r.get? k == some x :=
    List.mem_filter.2 ⟨hr, by simp [hx]⟩
  cases hrows : (s.rows t).filter fun r => r.get? k == some x with
  | nil =>
    rw [hrows] at hmem
    cases hmem
  | cons q rest =>
    obtain ⟨hq, hqx⟩ := List.mem_filter.1 (hrows ▸ List.mem_cons_self : q ∈ _)
    rw [hs.unique.eq hk hq hr (by simpa using hqx) hx]
    exact hv

/-- A dispatch calls the subtypes that store classes object by object, unless
one of them is the caller, and then the others. -/
theorem yields_subtypeDispatch {call : CallFunction} {b : SubtypeDispatch Callee}
    (h : (b.run call batch caller frame).Yields s frame' s') : ∃ frame₁ s₁ o,
      ((∃ d, b.discriminator = some d ∧ caller.skipsSubtypes = false ∧
          (batch.foldlM (b.runTyped call d) frame).Yields s frame₁ s₁) ∨
        (s₁ = s ∧ ∀ d, b.discriminator = some d → caller.skipsSubtypes = true)) ∧
      (b.hooks.forM fun hook => do
        let _ ← call hook.function batch .fromParent : Run Unit).Yields s₁ o s' := by
  have hfinish {frame₁ : Frame} {s₁ : Store} (h : (do
        b.hooks.forM fun hook => do
          let _ ← call hook.function batch .fromParent
        return frame₁ : Run Frame).Yields s₁ frame' s') :
      ∃ o, (b.hooks.forM fun hook => do
        let _ ← call hook.function batch .fromParent : Run Unit).Yields s₁ o s' := by
    obtain ⟨o, s₂, hhooks, hpure⟩ := Run.yields_bind h
    obtain ⟨-, rfl⟩ := Run.yields_pure hpure
    exact ⟨o, hhooks⟩
  unfold SubtypeDispatch.run at h
  dsimp only at h
  split at h
  · rename_i d hd
    split at h
    · rename_i hskips
      obtain ⟨frame₁, s₁, hfirst, h⟩ := Run.yields_bind h
      obtain ⟨rfl, rfl⟩ := Run.yields_pure hfirst
      obtain ⟨o, hhooks⟩ := hfinish h
      exact ⟨frame₁, s₁, o, Or.inr ⟨rfl, fun _ _ => hskips⟩, hhooks⟩
    · rename_i hcalls
      obtain ⟨frame₁, s₁, hfirst, h⟩ := Run.yields_bind h
      obtain ⟨o, hhooks⟩ := hfinish h
      exact ⟨frame₁, s₁, o, Or.inl ⟨d, hd, by simpa using hcalls, hfirst⟩, hhooks⟩
  · rename_i hnone
    obtain ⟨frame₁, s₁, hfirst, h⟩ := Run.yields_bind h
    obtain ⟨rfl, rfl⟩ := Run.yields_pure hfirst
    obtain ⟨o, hhooks⟩ := hfinish h
    exact ⟨frame₁, s₁, o, Or.inr ⟨rfl, fun d hd => by rw [hnone] at hd; cases hd⟩, hhooks⟩

variable (hserves : ∀ {name f}, p.lookup name = some f → p.Serves σ notes f)
include hserves

/-! ## Subtypes -/

/-- The subtypes that are called with the whole batch leave none of it. -/
theorem gone_of_hooks {hooks : List Callee}
    (hcallees : ∀ c ∈ hooks, ∀ g, p.lookup c.function = some g → g.table.same c.table)
    (hs : s.schema = σ.schema) {o : Unit} (h : (hooks.forM fun hook => do
      let _ ← p.call levels hook.function batch .fromParent : Run Unit).Yields s o s') :
    s'.Within s ∧ ∀ hook ∈ hooks, ∀ v ∈ batch, ¬ s'.HasRow hook.table v := by
  induction hooks generalizing s with
  | nil =>
    obtain ⟨-, rfl⟩ := Run.yields_pure h
    exact ⟨.refl _, by simp⟩
  | cons hook hooks ih =>
    change ((do let _ ← p.call levels hook.function batch .fromParent) >>= fun _ =>
      hooks.forM fun hook => do
        let _ ← p.call levels hook.function batch .fromParent).Yields s o s' at h
    obtain ⟨o₁, s₁, hfirst, hrest⟩ := Run.yields_bind h
    obtain ⟨deleted, s₂, hcall, hpure⟩ := Run.yields_bind hfirst
    obtain ⟨-, rfl⟩ := Run.yields_pure hpure
    have hwithin := Program.call_within hcall
    obtain ⟨hlater, hgone⟩ := ih (fun c hc => hcallees c (by simp [hc]))
      (hwithin.schema.trans hs) hrest
    refine ⟨hlater.trans hwithin, fun c hc v hv hrow => ?_⟩
    rcases List.mem_cons.1 hc with rfl | hc
    · obtain ⟨g, hg, hleft⟩ := Program.call_gone hserves hs hcall
      exact hleft v hv ((Store.hasRow_congr (hcallees c (by simp) g hg)).2 (hrow.of_within hlater))
    · exact hgone c hc v hv hrow

/-- **The subtype that stores the class of an object is called for it**, and
leaves no row. -/
theorem gone_of_runTyped (hkept : σ.WellKept st) (hs : σ.Orderly st s) {b : SubtypeDispatch Callee}
    (hcallees : ∀ c ∈ (Block.subtypeDispatch b).callees, ∀ g, p.lookup c.function = some g →
      g.table.same c.table)
    {classes : Schema.ClassMap} (hclasses : σ.schema.classMap t = .ok classes)
    (hcases : ∀ case ∈ b.cases, case.classes = classes.classesOf case.callee.table)
    (hsub : σ.schema.IsSubtype u t) (htyped : classes.classesOf u ≠ [])
    (hcovered : ∃ case ∈ b.cases, case.callee.table.same u) {d : Discriminator}
    (hplace : ∃ t', t'.same t ∧ (σ.findDiscriminator t').outcome = .ok d)
    (h : (b.runTyped (p.call levels) d frame v).Yields s frame' s') : ¬ s'.HasRow u v := by
  obtain ⟨t', ht', hd⟩ := hplace
  obtain ⟨htop, hk, -⟩ := Setting.findDiscriminator_eq_ok hd
  have hschema := hkept.schema_eq hs.intact
  have hsub' : σ.schema.IsSubtype u t' := hsub.congr (by simp) (TableName.same_symm ht')
  intro hleft
  have hrow : s.HasRow u v := by
    obtain ⟨noted, -, hcalls⟩ := Block.dispatches_runTyped (List.mem_singleton_self v) h
    exact hleft.of_within (hcalls.within Program.call_within)
  -- the discriminator still says a class of the subtype
  obtain ⟨c, hc, hcell⟩ := hkept.discriminates t' u classes d v hsub'
    (by rw [Schema.classMap_congr ht', hclasses]) htyped hd (hrow.of_within hs.intact.within)
  have hsays : (Fact.cell d.table v d.column c).Holds s := by
    refine (hs.attributes _ _ _ (.cell (hkept.unlinked t' d hd)) hcell).resolve_right ?_
    rintro (hgone | hnothing)
    · exact hgone (hkept.hasRow_of_subtypes hs.intact
        (Setting.isSubtype_of_topmost hkept.strict.regular htop)
        (hkept.hasRow_of_subtype hs.intact hsub' hrow))
    · exact hnothing
  have hread := hs.head?_filter (by rw [hschema, hk]) hsays
  unfold SubtypeDispatch.runTyped at h
  obtain ⟨rows, s₁, hquery, h⟩ := Run.yields_bind h
  obtain ⟨hselect, rfl⟩ := Run.yields_query hquery
  rw [← Store.select_eq_ok hselect] at hread
  split at h
  · rename_i hnone
    rw [hread] at hnone
    cases hnone
  · rename_i c' hsome
    rw [hread, Option.some.injEq] at hsome
    subst hsome
    split at h
    · rename_i hnone
      obtain ⟨case, hcase, hsame⟩ := hcovered
      have hnot := List.find?_eq_none.1 hnone case hcase
      rw [hcases case hcase, Schema.ClassMap.classesOf_congr hsame] at hnot
      exact hnot (List.contains_iff_mem.2 hc)
    · rename_i case hfind
      have hcase := List.mem_of_find?_eq_some hfind
      have hmem : c ∈ case.classes := by simpa using List.find?_some hfind
      rw [hcases case hcase] at hmem
      obtain ⟨deleted, s₂, hcall, h⟩ := Run.yields_bind h
      obtain ⟨-, rfl⟩ := Run.yields_pure h
      obtain ⟨g, hg, hgone⟩ := Program.call_gone hserves hschema hcall
      have hcallee : case.callee ∈ (Block.subtypeDispatch b).callees :=
        List.mem_append_left _ (List.mem_map.2 ⟨case, hcase, rfl⟩)
      have hsame : g.table.same u := TableName.same_trans (hcallees _ hcallee g hg)
        ((Schema.sorted_of_classMap hclasses).same_of_mem_classesOf hmem hc)
      exact hgone v (List.mem_singleton_self v) ((Store.hasRow_congr hsame).2 hleft)

/-- **A dispatch settles the subtypes.** -/
theorem settled_of_subtypeDispatch (hkept : σ.WellKept st) (hs : σ.Orderly st s)
    {b : SubtypeDispatch Callee} (hmeets : σ.Meets V.table .subtypes (.subtypeDispatch b))
    (hcallees : ∀ c ∈ (Block.subtypeDispatch b).callees, ∀ g, p.lookup c.function = some g →
      g.table.same c.table)
    (h : (b.run (p.call levels) batch V.caller frame).Yields s frame' s') :
    V.Settled σ s' batch .subtypes := by
  have hschema := hkept.schema_eq hs.intact
  cases hmeets with
  | @subtypes _ classes hclasses typed untyped complete found place =>
    intro u hu v hv hleft
    obtain ⟨hsub, hskips⟩ := hu
    obtain ⟨frame₁, s₁, o, htyped, hhooks⟩ := yields_subtypeDispatch h
    obtain ⟨c, hc, hsame⟩ := complete hkept.strict.regular u hsub
    have hs₁ : σ.Orderly st s₁ := by
      rcases htyped with ⟨d, -, -, htyped⟩ | ⟨rfl, -⟩
      · obtain ⟨noted, -, hcalls⟩ := Block.dispatches_typed (fun _ hi => hi) htyped
        exact hcalls.keeps (fun hcall hs =>
          Program.call_keeps (Setting.invariant_orderly hkept) hserves hcall hs) hs
      · exact hs
    obtain ⟨hlater, hgone⟩ := gone_of_hooks hserves
      (fun c hc => hcallees c (List.mem_append_right _ hc)) (hkept.schema_eq hs₁.intact) hhooks
    rcases List.mem_append.1 hc with hc | hc
    · -- a subtype with classes, one of which its object has
      obtain ⟨case, hcase, rfl⟩ := List.mem_map.1 hc
      obtain ⟨hof, hne⟩ := typed case hcase
      rw [hof, Schema.ClassMap.classesOf_congr hsame] at hne
      have hcalls : V.caller.skipsSubtypes = false :=
        Bool.eq_false_iff.2 fun hskip => hskips hskip ⟨classes, hclasses, hne⟩
      rcases htyped with ⟨d, hd, -, htyped⟩ | ⟨-, hskip⟩
      · obtain ⟨before, after, frame₂, s₂, frame₃, s₃, hbatch, hbefore, hstep, hafter⟩ :=
          Run.yields_foldlM_mem hv htyped
        have hin : before ⊆ batch ∧ after ⊆ batch := by
          rw [hbatch]
          exact ⟨List.subset_append_left _ _, fun x hx => by simp [hx]⟩
        obtain ⟨noted, -, hcalled⟩ := Block.dispatches_typed hin.1 hbefore
        obtain ⟨noted', -, hcalled'⟩ := Block.dispatches_typed hin.2 hafter
        have hs₂ := hcalled.keeps (fun hcall hs =>
          Program.call_keeps (Setting.invariant_orderly hkept) hserves hcall hs) hs
        refine gone_of_runTyped hserves hkept hs₂ hcallees hclasses (fun case hcase => (typed case hcase).1)
          hsub hne ⟨case, hcase, hsame⟩ (place d hd) hstep ?_
        exact (hleft.of_within hlater).of_within (hcalled'.within Program.call_within)
      · obtain ⟨d, hd⟩ := Option.isSome_iff_exists.1 (found (List.ne_nil_of_mem hcase))
        rw [hskip d hd] at hcalls
        cases hcalls
    · exact hgone c hc v hv ((Store.hasRow_congr hsame).2 hleft)

/-! ## Links -/

/-- Owned rows that were called for are gone from an orderly store. -/
theorem intact_of_deletesOwned (hkept : σ.WellKept st) (hs : Store.Intact st s) {callee : Callee}
    {ids deleted : List Int}
    (h : DeletesOwned (CallFunction.calls (p.call levels)) callee ids s deleted s') :
    Store.Intact s s' :=
  h.keeps (fun hcall hs₁ => Program.call_intact hkept.strict.regular hkept.strict.restricts
    (hkept.schema_eq hs) hserves hcall hs₁) hs.restart

/-- **Parts that are cut off are no parts any more.** -/
theorem settled_of_selfParts (hkept : σ.WellKept st) (hs : σ.Orderly st s) (hf : p.Serves σ notes f)
    (htable : V.table.same f.table) {r : Reference} {b : SelfParts Callee}
    (hcolumn : b.column = r.childColumn) (hdetach : b.detach = true)
    (h : (Block.selfParts b).Runs (CallFunction.calls (p.call levels)) f batch caller frame s
      frame' s') : V.Settled σ s' batch (.part r) := by
  have hschema := hkept.schema_eq hs.intact
  have hregular : s.schema.Regular := hschema ▸ hkept.strict.regular
  have hk : s.schema.key? f.table = some f.keyColumn := by rw [hschema, hf.key]
  cases h with
  | @selfParts _ _ _ s₁ _ parts deleted take call =>
    have hs₁ := take.intact hs.intact hregular hk fun q _ hpart => f.isPart_key hpart
    have hlater := intact_of_deletesOwned hserves hkept hs₁ call
    intro q' hq' v hv hq'v
    obtain ⟨q₁, hq₁, hvalues, hkey⟩ := hlater.origin hq'
    have hk₁ : s₁.schema.key? V.table = some f.keyColumn := by
      rw [hkept.schema_eq hs₁, Schema.key?_congr htable, hf.key]
    refine ⟨f.keyColumn, by rw [Schema.key?_congr htable, hf.key], ?_⟩
    rw [hkey _ hk₁]
    have hq₁v := hvalues _ _ hq'v
    rw [← hcolumn] at hq₁v
    rw [Store.rows_congr s₁ htable, take.store, if_pos hdetach, Store.rows_clearWhere,
      if_pos (TableName.same_refl _)] at hq₁
    obtain ⟨q, -, rfl⟩ := List.mem_map.1 hq₁
    split at hq₁v
    · rw [Row.get?_clear, if_pos (sameName_refl _)] at hq₁v
      cases hq₁v
    · -- a row that points into the batch and is no part points at itself
      rename_i hnot
      rw [if_neg hnot]
      simp only [DeleteFunction.isPart, pointsInto_iff.2 ⟨v, hv, hq₁v⟩, Bool.true_and,
        bne_iff_ne, ne_eq, not_not] at hnot
      rw [← hnot, hq₁v]

/-- **Children that are cut off point nowhere, and the others are gone.** -/
theorem settled_of_childCascade (hkept : σ.WellKept st) (hs : σ.Orderly st s)
    (hf : p.Serves σ notes f) {i : Incoming} {b : ChildCascade Callee}
    (hmem : .childCascade b ∈ f.blocks) (hchild : b.child = i.reference.child)
    (hcolumn : b.column = i.reference.childColumn)
    (hplan : σ.Plans f.table (·.table) notes captured (.childCascade b))
    (h : (Block.childCascade b).Runs (CallFunction.calls (p.call levels)) f batch caller frame s
      frame' s') : V.Settled σ s' batch (.enters i) := by
  have hschema := hkept.schema_eq hs.intact
  have hregular : s.schema.Regular := hschema ▸ hkept.strict.regular
  have hcallee := hf.callees b.callee (List.mem_flatMap.2 ⟨_, hmem, by simp [Block.callees]⟩)
  cases h with
  | @childCascade _ _ _ s₁ _ children deleted take call =>
    cases hplan with
    | @childCascade _ kind link other key notKey classified owning callee shared unshared =>
      have hk : s.schema.key? b.child = some b.childKey := by rw [hschema, key]
      have hs₁ := take.intact hs.intact hregular hk fun _ _ _ => by rw [sameName_comm, notKey]
      have hlater := intact_of_deletesOwned hserves hkept hs₁ call
      intro q' hq'
      rw [← hchild] at hq'
      rw [← hcolumn]
      refine Bool.eq_false_iff.2 fun hpoints => ?_
      obtain ⟨v, hv, hq'v⟩ := pointsInto_iff.1 hpoints
      obtain ⟨q₁, hq₁, hvalues, hkey⟩ := hlater.origin hq'
      have hq₁v := hvalues _ _ hq'v
      rw [take.store] at hq₁
      split at hq₁
      · rw [Store.rows_clearWhere, if_pos (TableName.same_refl _)] at hq₁
        obtain ⟨q, -, rfl⟩ := List.mem_map.1 hq₁
        split at hq₁v
        · rw [Row.get?_clear, if_pos (sameName_refl _)] at hq₁v
          cases hq₁v
        · rename_i hnot
          exact hnot (pointsInto_iff.2 ⟨v, hv, hq₁v⟩)
      · -- where nothing is cut off nobody else is asked, and all children go
        rename_i hdetach
        have hnone : b.ownerCheck = none := by
          cases hcheck : b.ownerCheck with
          | none => rfl
          | some owners => exact absurd (shared owners hcheck).2.1 hdetach
        obtain ⟨x, hx⟩ := hs.intact.key hkept.given hk hq₁
        rw [hnone, Store.unowned, take.rows] at call
        have hgone := Program.gone_of_deletesOwned hserves hcallee (hkept.schema_eq hs₁) call x
          (List.mem_filterMap.2 ⟨q₁, List.mem_filter.2 ⟨hq₁, pointsInto_iff.2 ⟨v, hv, hq₁v⟩⟩, hx⟩)
        refine hgone ((Store.hasRow_congr callee).2 ⟨b.childKey, ?_, q', hq', ?_⟩)
        · rw [hlater.within.schema, hkept.schema_eq hs₁, key]
        · rw [hkey _ (by rw [hkept.schema_eq hs₁, key]), hx]

/-- **The links of a bridge are gone.** -/
theorem settled_of_bridgeCascade (hkept : σ.WellKept st) (hs : σ.Orderly st s) {i : Incoming}
    {b : BridgeCascade Callee} (hbridge : b.bridge = i.reference.child)
    (hnear : b.nearColumn = i.reference.childColumn)
    (h : (Block.bridgeCascade b).Runs (CallFunction.calls (p.call levels)) f batch caller frame s
      frame' s') : V.Settled σ s' batch (.enters i) := by
  have hrestricts : s.schema.Restricts := hkept.schema_eq hs.intact ▸ hkept.strict.restricts
  have hremoved {s₁ : Store} {links : List Row}
      (hdelete : s.deleteWhere b.bridge (pointsInto batch b.nearColumn) = .ok (links, s₁))
      (hlater : Store.Intact s₁ s') : V.Settled σ s' batch (.enters i) := by
    obtain ⟨-, rfl⟩ := Store.deleteWhere_of_restricts hrestricts hdelete
    intro q' hq'
    refine Bool.eq_false_iff.2 fun hpoints => ?_
    obtain ⟨v, hv, hq'v⟩ := pointsInto_iff.1 hpoints
    obtain ⟨q, hq, hvalues, -⟩ := hlater.origin hq'
    rw [← hbridge, Store.rows_removeRows, if_pos (TableName.same_refl _)] at hq
    have hout := (List.mem_filter.1 hq).2
    rw [hnear, pointsInto_iff.2 ⟨v, hv, hvalues _ _ hq'v⟩] at hout
    cases hout
  cases h with
  | bridgeOnly remove => exact hremoved remove (hs.intact.deleteWhere hrestricts remove).restart
  | bridgeCascade remove _ call =>
    exact hremoved remove
      (intact_of_deletesOwned hserves hkept (hs.intact.deleteWhere hrestricts remove) call)

/-- **Each block settles the front that it deals with**, if no remark was
left on a link that cannot be cut. -/
theorem settled_of_yields (hkept : σ.WellKept st) (hnone : ∀ ref, cycleNote ref ∉ notes)
    (hs : σ.Orderly st s) (hf : p.Serves σ notes f) (htable : V.table.same f.table)
    {b : Block Callee} (hmem : b ∈ f.blocks)
    (hplan : σ.Plans f.table (·.table) notes captured b) {ls : List Front}
    (hls : σ.schema.fronts V.table = .ok ls) (hl : l ∈ ls) (hmeets : σ.Meets V.table l b)
    (h : (b.run (p.call levels) f batch V.caller frame).Yields s frame' s') :
    V.Settled σ s' batch l := by
  cases hmeets with
  | part column nullable =>
    cases hplan with
    | selfParts link classified callee cut =>
      have hruns : Block.Runs _ f batch V.caller _ frame s frame' s' := Block.runs_of_yields h
      exact settled_of_selfParts hserves hkept hs hf htable column
        (cut.resolve_right fun ⟨ref, href⟩ => hnone ref href) hruns
  | child plain notKey child column =>
    exact settled_of_childCascade hserves hkept hs hf hmem child column hplan
      (Block.runs_of_yields h)
  | @bridge i br b shape notKey bridge near far target =>
    obtain ⟨-, -, htable, hnear⟩ := Schema.bridge_of_enters_mem hls hl shape
    exact settled_of_bridgeCascade hserves hkept hs (bridge.trans htable) (near.trans hnear)
      (Block.runs_of_yields h)
  | subtypes classMap typed untyped complete found place =>
    refine settled_of_subtypeDispatch hserves hkept hs
      (.subtypes classMap typed untyped complete found place) (fun c hc => ?_) h
    exact hf.callees c (List.mem_flatMap.2 ⟨_, hmem, hc⟩)

end Settling

end DeleteCascade
