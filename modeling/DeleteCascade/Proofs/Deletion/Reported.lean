import DeleteCascade.Proofs.Deletion.Ownership
import DeleteCascade.Proofs.Schema.Descent
import DeleteCascade.Proofs.Synthesis.Fronts
/-!
# Deletion — only what was deleted is reported

A call reports keys of its own table, and rows that are gone
(`Setting.delete_reported`). What its own statement deleted is plain to see.
The parts in the same table are reported by calls of the same function. What
a subtype reports is passed on as it is, and stands for a row of the table
because the subtypes that are asked for one object each hold a reference
from their key to the key of the table (`Schema.Extends`), along which no
value dangles.
-/

namespace DeleteCascade

/-! ## Tables that extend others -/

namespace Schema

variable {g : Schema} {t t' u u' : TableName} {fk : ForeignKey}

/-- **A table extends another**: a foreign key leads from its key to the key
of that table. -/
def Extends (g : Schema) (u t : TableName) : Prop :=
  ∃ fk ∈ g.foreignKeys, fk.source.same u ∧ fk.target.same t ∧ ∃ a p k l,
    fk.columns? = some (a, p) ∧ g.key? u = some k ∧ sameName k a ∧
      g.key? t = some l ∧ sameName l p

theorem Extends.congr (h : g.Extends u t) (hu : u.same u') (ht : t.same t') :
    g.Extends u' t' := by
  obtain ⟨fk, hfk, hsource, htarget, a, p, k, l, hcols, hk, hka, hl, hlp⟩ := h
  exact ⟨fk, hfk, TableName.same_trans hsource hu, TableName.same_trans htarget ht, a, p, k, l,
    hcols, by rw [← key?_congr hu, hk], hka, by rw [← key?_congr ht, hl], hlp⟩

/-- A subtype link leads from key to key. -/
theorem extends_of_isSubtypeLink {r : Reference} (hfk : fk ∈ g.foreignKeys)
    (hres : g.resolve fk = .ok r) (h : g.isSubtypeLink r = .ok true) :
    g.Extends r.child r.parent := by
  unfold isSubtypeLink at h
  split at h
  · cases h
  · rename_i hplain
    simp only [Bool.or_eq_true, Bool.not_eq_true', not_or, Bool.not_eq_false] at hplain
    obtain ⟨k, hk, hka⟩ := (childIsKey_of_resolve hres).1 hplain.1
    obtain ⟨a, p, d, e, hcols, -, he, rfl⟩ := resolve_eq_ok.1 hres
    dsimp only at h hk hka
    rw [lookup_eq_ok.2 he] at h
    obtain ⟨l, hl, hlp⟩ : ∃ l, e.key? = some l ∧ sameName l p := by
      simp only [Except.map, Except.ok.injEq, Table.isKey] at h
      split at h
      · rename_i l hl
        exact ⟨l, hl, h⟩
      · cases h
    exact ⟨fk, hfk, by simp, by simp, a, p, k, l, hcols, hk, hka, by simp [key?, he, hl], hlp⟩

/-- A direct subtype of a table extends it. -/
theorem extends_of_directSubtype (h : g.DirectSubtype u t) : g.Extends u t := by
  obtain ⟨fk, hfk, r, hres, hlink, hsame⟩ := h
  obtain ⟨hmem, htarget⟩ := mem_foreignKeysTo.1 hfk
  refine (extends_of_isSubtypeLink hmem hres hlink).congr hsame ?_
  obtain ⟨a, p, d, e, -, -, -, rfl⟩ := resolve_eq_ok.1 hres
  exact htarget

/-- **A subtype that stores classes extends its supertype.** -/
theorem extends_of_classMap {m : ClassMap} (h : g.classMap t = .ok m) (hne : m.classesOf u ≠ []) :
    g.Extends u t := by
  obtain ⟨c, hc⟩ := List.exists_mem_of_ne_nil _ hne
  obtain ⟨w, hw, hsame⟩ := ClassMap.mem_classesOf.1 hc
  have hdirect := ((exists_mem_classMap h).1 _ hw).1
  exact extends_of_directSubtype (hdirect.congr hsame (TableName.same_refl t))

end Schema

/-- A row of a table that extends another has one there. -/
theorem Store.HasRow.of_extends {s : Store} {u t : TableName} {v : Int} (h : s.HasRow u v)
    (hwhole : s.NoDangling) (hext : s.schema.Extends u t) : s.HasRow t v := by
  obtain ⟨fk, hfk, hsource, htarget, a, p, k, l, hcols, hk, hka, hl, hlp⟩ := hext
  obtain ⟨k', hk', r, hr, hv⟩ := h
  rw [hk] at hk'
  cases hk'
  obtain ⟨q, hq, hqv⟩ := hwhole fk hfk a p hcols r (by rwa [rows_congr s hsource]) v
    (by rwa [← Row.get?_congr r hka])
  exact ⟨l, hl, q, by rwa [← rows_congr s htarget], by rwa [Row.get?_congr q hlp]⟩

/-! ## What is noted -/

section Noted

variable {call : CallFunction} {batch ids : List Int} {caller : Caller} {frame frame' : Frame}
variable {s s' : Store}

/-- **An id is vouched for** by a call of one of the typed subtypes, made after
nothing was added to the store. -/
def SubtypeDispatch.Vouches (b : SubtypeDispatch Callee) (call : CallFunction) (s : Store)
    (id : Int) : Prop :=
  ∃ case ∈ b.cases, ∃ ids s₁ deleted s₂, s₁.Within s ∧
    (call case.callee.function ids .fromParent).Yields s₁ deleted s₂ ∧ id ∈ deleted

variable {b : SubtypeDispatch Callee} {d : Discriminator} {id : Int}

/-- One typed subtype vouches for the one id. -/
theorem vouches_of_runTyped (h : (b.runTyped call d frame id).Yields s frame' s') :
    frame' = frame ∨ (frame' = { frame with deleted := frame.deleted ++ [id] } ∧
      b.Vouches call s id) := by
  unfold SubtypeDispatch.runTyped at h
  obtain ⟨rows, s₁, hquery, h⟩ := Run.yields_bind h
  obtain ⟨-, rfl⟩ := Run.yields_query hquery
  split at h
  · exact Or.inl (Run.yields_pure h).1
  · split at h
    · exact Or.inl (Run.yields_pure h).1
    · rename_i case hfind
      obtain ⟨deleted, s₂, hcall, h⟩ := Run.yields_bind h
      obtain ⟨rfl, rfl⟩ := Run.yields_pure h
      split
      · rename_i hreported
        exact Or.inr ⟨rfl, case, List.mem_of_find?_eq_some hfind, _, _, deleted, _, .refl s, hcall,
          by simpa using hreported⟩
      · exact Or.inl rfl

variable (hwithin : ∀ {n ids caller s deleted s'}, call.calls n ids caller s deleted s' →
  s'.Within s)
include hwithin

/-- Typed subtypes vouch for whatever ids are noted. -/
theorem vouches_of_typed (h : (ids.foldlM (b.runTyped call d) frame).Yields s frame' s') :
    frame'.deletedParts = frame.deletedParts ∧
      ∀ id ∈ frame'.deleted, id ∈ frame.deleted ∨ (id ∈ ids ∧ b.Vouches call s id) := by
  have hchain := Run.foldlM_yields (P := fun rest fr st => rest ⊆ ids ∧ st.Within s ∧
      fr.deletedParts = frame.deletedParts ∧
      ∀ id ∈ fr.deleted, id ∈ frame.deleted ∨ (id ∈ ids ∧ b.Vouches call s id))
    (fun {id rest fr st fr' st'} hP hstep => by
      obtain ⟨hsub, hst, hparts, hdeleted⟩ := hP
      obtain ⟨hid, hrest⟩ := List.cons_subset.1 hsub
      obtain ⟨noted, -, hcalls⟩ := Block.dispatches_runTyped hid hstep
      refine ⟨hrest, (hcalls.within hwithin).trans hst, ?_⟩
      rcases vouches_of_runTyped hstep with rfl | ⟨rfl, case, hcase, ids', s₁, deleted, s₂, hs₁, hrun, hmem⟩
      · exact ⟨hparts, hdeleted⟩
      · refine ⟨hparts, fun i hi => ?_⟩
        rcases List.mem_append.1 hi with hi | hi
        · exact hdeleted i hi
        · rw [List.mem_singleton.1 hi]
          exact Or.inr ⟨hid, case, hcase, ids', s₁, deleted, s₂, hs₁.trans hst, hrun, hmem⟩)
    ⟨fun _ h => h, .refl s, rfl, fun _ h => Or.inl h⟩ h
  exact hchain.2.2

/-- **A dispatch notes only ids of the batch that a typed subtype vouches
for.** What the other subtypes report is dropped. -/
theorem vouches_of_subtypeDispatch (h : (b.run call batch caller frame).Yields s frame' s') :
    frame'.deletedParts = frame.deletedParts ∧
      ∀ id ∈ frame'.deleted, id ∈ frame.deleted ∨ (id ∈ batch ∧ b.Vouches call s id) := by
  have hidle {first : Run Frame} (hfirst : ∀ fr st, first.Yields s fr st →
      fr.deletedParts = frame.deletedParts ∧
        ∀ id ∈ fr.deleted, id ∈ frame.deleted ∨ (id ∈ batch ∧ b.Vouches call s id))
      (h : (do
        let frame₁ ← first
        b.hooks.forM fun hook => do
          let _ ← call hook.function batch .fromParent
        return frame₁ : Run Frame).Yields s frame' s') :
      frame'.deletedParts = frame.deletedParts ∧
        ∀ id ∈ frame'.deleted, id ∈ frame.deleted ∨ (id ∈ batch ∧ b.Vouches call s id) := by
    obtain ⟨frame₁, s₁, hyields, h⟩ := Run.yields_bind h
    obtain ⟨u, s₂, -, h⟩ := Run.yields_bind h
    obtain ⟨rfl, -⟩ := Run.yields_pure h
    exact hfirst _ _ hyields
  have hnothing (fr st) (h : (pure frame : Run Frame).Yields s fr st) :
      fr.deletedParts = frame.deletedParts ∧
        ∀ id ∈ fr.deleted, id ∈ frame.deleted ∨ (id ∈ batch ∧ b.Vouches call s id) := by
    obtain ⟨rfl, -⟩ := Run.yields_pure h
    exact ⟨rfl, fun _ h => Or.inl h⟩
  unfold SubtypeDispatch.run at h
  dsimp only at h
  split at h
  · split at h
    · exact hidle hnothing h
    · exact hidle (fun _ _ hyields => vouches_of_typed hwithin hyields) h
  · exact hidle hnothing h

end Noted

/-! ## Reports -/

/-- What a frame has noted so far is true: the rows were there, those of the
batch are in it, and the parts are gone. -/
structure Frame.IsTrue (frame : Frame) (st s : Store) (t : TableName) (batch : List Int) : Prop where
  deleted : ∀ id ∈ frame.deleted, id ∈ batch ∧ st.HasRow t id
  parts : ∀ id ∈ frame.deletedParts, st.HasRow t id ∧ ¬ s.HasRow t id

theorem Frame.IsTrue.of_within {frame : Frame} {st s s' : Store} {t : TableName} {batch : List Int}
    (h : frame.IsTrue st s t batch) (hw : s'.Within s) : frame.IsTrue st s' t batch :=
  ⟨h.deleted, fun id hid => ⟨(h.parts id hid).1, fun hrow => (h.parts id hid).2 (hrow.of_within hw)⟩⟩

namespace Setting

variable {σ : Setting} {namer : Namer} {root : TableName} {result : Synthesis} {name : String}
variable {st s s' : Store} {f : DeleteFunction} {depth : Nat} {ids deleted : List Int}

/-- **A typed subtype extends the table.** -/
theorem extends_of_case (hsyn : σ.synthesize namer root = .ok result)
    (hf : (Program.mk result.registry.functions depth).lookup name = some f)
    {b : SubtypeDispatch Callee} (hb : .subtypeDispatch b ∈ f.blocks) {case : SubtypeCase Callee}
    (hcase : case ∈ b.cases) : σ.schema.Extends case.callee.table f.table := by
  obtain ⟨t, drafted, callee, w, hw⟩ := Program.exists_draft hsyn hf
  obtain ⟨b', hb', hwritten⟩ := hw.exists_drafted hb
  obtain ⟨b', rfl, -⟩ := hwritten.of_subtypeDispatch
  cases hwritten.subtypeDispatch
  obtain ⟨case', hcase', rfl⟩ := List.mem_map.1 hcase
  obtain ⟨classes, subtypes, hclasses, hcases⟩ := typedCases_of_mem_body (body_of_draft hw.draft) hb'
  rw [hcases] at hcase'
  obtain ⟨-, heq, hne⟩ := mem_typedCases.1 hcase'
  rw [hw.named]
  exact (Schema.extends_of_classMap hclasses (heq ▸ hne)).congr (by simp) hw.table

/-- **Each block keeps the frame true**, if its calls report what was there
and is gone. -/
theorem isTrue_of_block (hsyn : σ.synthesize namer root = .ok result)
    (hst : st.schema = σ.schema) (hwhole : st.NoDangling)
    (hf : (Program.mk result.registry.functions depth).lookup name = some f) {b : Block Callee}
    (hb : b ∈ f.blocks) {levels : Nat} {batch : List Int} {caller : Caller} {frame frame' : Frame}
    (hcall : ∀ {c : Callee}, c ∈ f.callees → ∀ {ids caller s deleted s'}, s.Within st →
      ((Program.mk result.registry.functions depth).call levels c.function ids caller).Yields s
        deleted s' → ∀ id ∈ deleted, st.HasRow c.table id ∧ ¬ s'.HasRow c.table id)
    (hs : s.Within st) (h : frame.IsTrue st s f.table batch)
    (hrun : (b.run ((Program.mk result.registry.functions depth).call levels) f batch caller
      frame).Yields s frame' s') : frame'.IsTrue st s' f.table batch := by
  obtain ⟨hkey, ⟨captured, front, back, hblocks, hbody⟩, -⟩ := Program.serves_of_synthesize hsyn hf
  have hcallee {c : Callee} (hc : c ∈ b.callees) : c ∈ f.callees := List.mem_flatMap.2 ⟨b, hb, hc⟩
  have hplan := hbody.plans b (hblocks ▸ hb)
  have hruns := Block.runs_of_yields hrun
  have hlater := h.of_within (hruns.within Program.call_within)
  cases hruns with
  | @selfParts b _ _ s₁ _ parts deleted take call =>
    cases hplan with
    | selfParts link classified callee =>
      refine ⟨hlater.deleted, fun id hid => ?_⟩
      rcases List.mem_append.1 hid with hid | hid
      · exact hlater.parts id hid
      · generalize parts.filterMap (·.get? f.keyColumn) = ids at call
        cases call with
        | idle => cases hid
        | call run =>
          have hreport := hcall (hcallee (by simp [Block.callees])) (take.within.trans hs) run id hid
          rwa [Store.hasRow_congr callee, Store.hasRow_congr callee] at hreport
  | @subtypeDispatch b =>
    obtain ⟨hparts, hdeleted⟩ := vouches_of_subtypeDispatch Program.call_within
      (show (b.run _ batch caller frame).Yields s _ s' from hrun)
    refine ⟨fun id hid => ?_, fun id hid => hlater.parts id hid⟩
    rcases hdeleted id hid with hid | ⟨hbatch, case, hcase, ids, s₁, deleted, s₂, hs₁, hcalled, hmem⟩
    · exact h.deleted id hid
    · have hc : case.callee ∈ (Block.subtypeDispatch b).callees :=
        List.mem_append_left _ (List.mem_map_of_mem hcase)
      obtain ⟨hrow, -⟩ := hcall (hcallee hc) (hs₁.trans hs) hcalled id hmem
      exact ⟨hbatch, hrow.of_extends hwhole (hst ▸ extends_of_case hsyn hf hb hcase)⟩
  | localDelete remove =>
    refine ⟨fun id hid => ?_, hlater.parts⟩
    rcases List.mem_append.1 hid with hid | hid
    · exact h.deleted id hid
    · obtain ⟨rfl, -⟩ := Store.deleteWhere_eq_ok remove
      obtain ⟨r, hr, hv⟩ := List.mem_filterMap.1 hid
      obtain ⟨hmem, htest⟩ := List.mem_filter.1 hr
      obtain ⟨v, hvbatch, hrv⟩ := pointsInto_iff.1 htest
      rw [hv, Option.some.injEq] at hrv
      exact ⟨hrv ▸ hvbatch, Store.HasRow.of_within
        ⟨f.keyColumn, by rw [hs.schema, hst, hkey], r, hmem, hv⟩ hs⟩
  | childCascade => exact hlater
  | bridgeOnly => exact hlater
  | bridgeCascade => exact hlater
  | referencedCleanup => exact hlater
  | noParent => exact hlater
  | parentCascade => exact hlater

/-- **Every call reports what was there and is gone.** -/
theorem call_reports (hsyn : σ.synthesize namer root = .ok result) (hst : st.schema = σ.schema)
    (hwhole : st.NoDangling)
    (hf : (Program.mk result.registry.functions depth).lookup name = some f) {levels : Nat}
    {caller : Caller} (hs : s.Within st)
    (h : ((Program.mk result.registry.functions depth).call levels name ids caller).Yields s
      deleted s') : ∀ id ∈ deleted, st.HasRow f.table id ∧ ¬ s'.HasRow f.table id := by
  induction levels generalizing name f ids caller s deleted s' with
  | zero =>
    obtain ⟨deeper, f', hlevels, -⟩ := Program.call_yields h
    cases hlevels
  | succ levels ih =>
    have hgone := Program.call_gone (fun hf => Program.serves_of_synthesize hsyn hf)
      (hs.schema.trans hst) h
    obtain ⟨f', hf', hgone⟩ := hgone
    rw [hf] at hf'
    cases hf'
    rcases Program.call_succ_yields hf h with ⟨-, rfl, -⟩ | ⟨frame, hblocks, rfl⟩
    · simp
    have hcall {c : Callee} (hc : c ∈ f.callees) {ids caller s deleted s'} (hs : s.Within st)
        (hrun : ((Program.mk result.registry.functions depth).call levels c.function ids
          caller).Yields s deleted s') :
        ∀ id ∈ deleted, st.HasRow c.table id ∧ ¬ s'.HasRow c.table id := by
      obtain ⟨g, hg⟩ := Program.exists_callee hsyn hf hc
      have hsame := (Program.serves_of_synthesize hsyn hf).callees c hc g hg
      intro id hid
      rw [← Store.hasRow_congr hsame, ← Store.hasRow_congr hsame]
      exact ih hg hs hrun id hid
    have hframe := Run.foldlM_yields
      (P := fun rest frame s => rest ⊆ f.blocks ∧ s.Within st ∧
        frame.IsTrue st s f.table (ascending ids))
      (fun {b rest frame s frame' s'} hP hstep => by
        obtain ⟨hsub, hs, htrue⟩ := hP
        obtain ⟨hb, hrest⟩ := List.cons_subset.1 hsub
        exact ⟨hrest, ((Block.runs_of_yields hstep).within Program.call_within).trans hs,
          isTrue_of_block hsyn hst hwhole hf hb hcall hs htrue hstep⟩)
      ⟨fun _ h => h, hs, by simp [Frame.empty], by simp [Frame.empty]⟩ hblocks
    obtain ⟨-, -, htrue⟩ := hframe
    intro id hid
    rw [Frame.result, mem_ascending] at hid
    rcases List.mem_append.1 hid with hid | hid
    · obtain ⟨hbatch, hrow⟩ := htrue.deleted id hid
      exact ⟨hrow, hgone id (mem_ascending.1 hbatch)⟩
    · exact htrue.parts id hid

/-- **Nothing is reported that was not deleted**: on a store without dangling
references, every id that a deletion reports was the key of a row of the
function's table before, and is the key of none afterwards. -/
theorem delete_reported (hsyn : σ.synthesize namer root = .ok result) (hst : st.schema = σ.schema)
    (hwhole : st.NoDangling)
    (hf : (Program.mk result.registry.functions depth).lookup name = some f)
    (h : ((Program.mk result.registry.functions depth).delete st name ids).result = .ok deleted) :
    ∀ id ∈ deleted, st.HasRow f.table id ∧
      ¬ ((Program.mk result.registry.functions depth).delete st name ids).store.HasRow f.table id :=
  call_reports hsyn hst hwhole hf (.refl st) (Program.yields_of_delete h)

end Setting

/-- The building is reported, which was there and is gone. -/
theorem Setting.delete_reported_city : ∃ result f,
    city.synthesize (.new "del_" 63) ⟨"city", "building"⟩ = .ok result ∧
      (Program.mk result.registry.functions 8).lookup "del_building" = some f ∧
      (cityDeletion result).result = .ok [1] ∧ cityStore.NoDangling ∧
      ∀ id ∈ [1], cityStore.HasRow f.table id ∧ ¬ (cityDeletion result).store.HasRow f.table id := by
  obtain ⟨result, f, hsyn, -, hf, -, hrun, -⟩ := exists_cityDeletion
  obtain ⟨-, -, hwhole⟩ := cityStore_valid
  exact ⟨result, f, hsyn, hf, hrun, hwhole, Setting.delete_reported hsyn rfl hwhole hf hrun⟩

end DeleteCascade
