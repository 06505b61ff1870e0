import DeleteCascade.Proofs.Synthesis.Fronts
/-!
# Programs — what cutting comes to

Loops of owners are cut function by function, each time with the registry as
it is by then. But cutting changes no call (`Registry.callsOf_cutBlocks`), and
the search depends on the calls alone, since it finds exactly what they lead
to (`Registry.ownerCallReaches_iff`). So the order does not matter: in the end
every function is its drafted body, cut once with the registry of the end, and
the remarks on it were made (`Setting.drafted_of_synthesize`).
-/

namespace DeleteCascade

namespace Registry

variable {r r' : Registry} {t u target : TableName} {a : Call} {pending seen : List Call}

/-! ## The search is exact -/

/-- **The search finds nothing that is not there.** -/
theorem exists_reaches_of_search (h : r.search target pending seen = true) :
    ∃ a ∈ pending, r.Reaches target a := by
  induction pending, seen using search.induct r target with
  | case1 seen =>
    rw [search] at h
    cases h
  | case2 seen call rest hsame => exact ⟨call, List.mem_cons_self, .here hsame⟩
  | case3 seen call rest hother hold ih =>
    rw [search_cons, if_neg hother, if_pos hold] at h
    obtain ⟨a, ha, hreaches⟩ := ih h
    exact ⟨a, List.mem_cons_of_mem _ ha, hreaches⟩
  | case4 seen call rest hother hnew hunknown ih =>
    rw [search_cons, if_neg hother, if_neg hnew, hunknown] at h
    obtain ⟨a, ha, hreaches⟩ := ih h
    exact ⟨a, List.mem_cons_of_mem _ ha, hreaches⟩
  | case5 seen call rest hother hnew f hknown ih =>
    rw [search_cons, if_neg hother, if_neg hnew, hknown] at h
    obtain ⟨a, ha, hreaches⟩ := ih h
    rcases List.mem_append.1 ha with ha | ha
    · exact ⟨call, List.mem_cons_self, .step ha hreaches⟩
    · exact ⟨a, List.mem_cons_of_mem _ ha, hreaches⟩

/-- **An owner's call reaches a function exactly if it leads there.** -/
theorem ownerCallReaches_iff :
    r.ownerCallReaches t target = true ↔ r.Reaches target (t, .fromOwner) := by
  constructor
  · intro h
    obtain ⟨a, ha, hreaches⟩ := exists_reaches_of_search h
    rwa [List.mem_singleton.1 ha] at hreaches
  · intro h
    by_contra hnot
    exact not_reaches_of_ownerCallReaches (Bool.eq_false_iff.2 hnot) h

/-- Only the calls matter to the search. -/
theorem ownerCallReaches_congr (hcalls : ∀ a, r'.callsOf a = r.callsOf a) (ht : t.same u) :
    r'.ownerCallReaches target t = r.ownerCallReaches target u := by
  rw [Bool.eq_iff_iff, ownerCallReaches_iff, ownerCallReaches_iff]
  exact ⟨fun h => (h.of_callsOf fun a => (hcalls a).symm).of_target ht,
    fun h => (h.of_callsOf hcalls).of_target (TableName.same_symm ht)⟩

end Registry

namespace Setting

variable {s : Setting} {t u : TableName} {r r' : Registry} {notes notes' : List String}
variable {is : List Incoming} {f : DeleteFunction} {ts done : List TableName}

/-! ## Cutting one function -/

theorem leadsBack_congr (hcalls : ∀ a, r'.callsOf a = r.callsOf a) (ht : t.same u)
    (b : Block Callee) : leadsBack r' t b = leadsBack r u b := by
  cases b with
  | childCascade c => simp only [leadsBack, Registry.ownerCallReaches_congr hcalls ht]
  | _ => rfl

theorem cutBlock_congr (hcalls : ∀ a, r'.callsOf a = r.callsOf a) (ht : t.same u)
    (is : List Incoming) : cutBlock r' t is = cutBlock r u is := by
  funext b
  cases b with
  | childCascade c => simp only [cutBlock, leadsBack_congr hcalls ht]
  | _ => rfl

/-- A block that does not lead back is not cut. -/
theorem cutBlock_eq_self {b : Block Callee} (h : leadsBack r t b = false) :
    cutBlock r t is b = b := by
  cases b with
  | childCascade c => simp only [cutBlock, h, Bool.false_and, Bool.false_eq_true, if_false]
  | _ => rfl

/-- Cutting twice is cutting once. -/
theorem cutBlock_cutBlock (b : Block Callee) :
    cutBlock r t is (cutBlock r t is b) = cutBlock r t is b := by
  rcases Written.cutBlock_eq r t is b with heq | ⟨c, rfl, heq⟩
  · rw [heq, heq]
  · rw [heq]
    exact cutBlock_eq_self (by simp [leadsBack])

/-- **A function with its loops cut**, as far as a registry has them. -/
def cutFunction (s : Setting) (r : Registry) (f : DeleteFunction) : DeleteFunction :=
  { f with blocks :=
      f.blocks.map (cutBlock r f.table ((s.schema.incoming f.table).toOption.getD [])) }

theorem cutFunction_congr (hcalls : ∀ a, r'.callsOf a = r.callsOf a) (f : DeleteFunction) :
    s.cutFunction r' f = s.cutFunction r f := by
  unfold cutFunction
  rw [cutBlock_congr hcalls (TableName.same_refl f.table)]

theorem cutFunction_cutFunction (f : DeleteFunction) :
    s.cutFunction r (s.cutFunction r f) = s.cutFunction r f := by
  unfold cutFunction
  dsimp only
  rw [List.map_map]
  simp only [Function.comp_def, cutBlock_cutBlock]

/-- Cutting the function of a table is what is done to its record. -/
theorem records_cutTable (hdist : r.Distinct) (h : s.cutTable (r, notes) t = .ok (r', notes')) :
    r'.records = r.records.map fun e =>
      if e.function.table.same t then { e with function := s.cutFunction r e.function } else e := by
  rcases cutTable_eq_ok h with ⟨rfl, -, hnone⟩ | ⟨f, is, -, his, rfl, -⟩
  · refine (List.map_id _).symm.trans (List.map_congr_left fun e he => ?_)
    split
    · rename_i hsame
      have hget : r'.get? t = some e.function := by
        rw [Registry.get?, hdist.record?_of_mem he hsame, Option.map_some]
      have hblocks : (s.cutFunction r' e.function).blocks = e.function.blocks := by
        refine (List.map_congr_left fun b hb => ?_).trans (List.map_id _)
        rw [cutBlock_eq_self]
        · rfl
        · rw [leadsBack_congr (fun _ => rfl) hsame]
          exact hnone _ hget b hb
      rw [id, show s.cutFunction r' e.function = e.function from
        congrArg (fun blocks => { e.function with blocks }) hblocks]
    · rfl
  · refine List.map_congr_left fun e _ => ?_
    split
    · rename_i hsame
      have hincoming := Schema.incoming_congr (TableName.same_symm hsame) his
      unfold cutFunction
      rw [hincoming, cutBlock_congr (fun _ => rfl) hsame]
      rfl
    · rfl

theorem callsOf_cutTable (h : s.cutTable (r, notes) t = .ok (r', notes')) (a : Registry.Call) :
    r'.callsOf a = r.callsOf a := by
  rcases cutTable_eq_ok h with ⟨rfl, -, -⟩ | ⟨f, is, -, -, rfl, -⟩
  · rfl
  · exact Registry.callsOf_cutBlocks r is a

/-- Cutting the functions of some tables is what is done to their records,
whatever the registry was when their turn came. -/
theorem records_cutTables (hdist : r.Distinct)
    (h : ts.foldlM s.cutTable (r, notes) = .ok (r', notes')) :
    (∀ a, r'.callsOf a = r.callsOf a) ∧ r'.records = r.records.map fun e =>
      if e.function.table.isIn ts then { e with function := s.cutFunction r e.function } else e := by
  induction ts generalizing r notes with
  | nil =>
    cases h
    exact ⟨fun _ => rfl, by simp [TableName.isIn]⟩
  | cons t ts ih =>
    rw [List.foldlM_cons] at h
    cases hstep : s.cutTable (r, notes) t with
    | error e =>
      rw [hstep] at h
      cases h
    | ok next =>
      obtain ⟨r₁, notes₁⟩ := next
      rw [hstep] at h
      have hcalls := callsOf_cutTable hstep
      have hdist₁ : r₁.Distinct := by
        rcases cutTable_eq_ok hstep with ⟨rfl, -, -⟩ | ⟨f, is, -, -, rfl, -⟩
        · exact hdist
        · exact hdist.modify fun e => ⟨rfl, rfl⟩
      obtain ⟨hcalls', hrecords⟩ := ih hdist₁ h
      refine ⟨fun a => (hcalls' a).trans (hcalls a), ?_⟩
      rw [hrecords, records_cutTable hdist hstep, List.map_map]
      refine List.map_congr_left fun e _ => ?_
      have hcut := cutFunction_congr (s := s) hcalls
      have hin : e.function.table.isIn (t :: ts) =
          (e.function.table.same t || e.function.table.isIn ts) := rfl
      dsimp only [Function.comp_apply]
      by_cases hsame : e.function.table.same t = true <;>
        by_cases hrest : e.function.table.isIn ts = true <;>
        simp [hin, hsame, hrest, hcut, cutFunction_cutFunction]

/-! ## What is remarked on -/

theorem cutNote?_congr (hcalls : ∀ a, r'.callsOf a = r.callsOf a) (ht : t.same u)
    (is : List Incoming) (b : Block Callee) : cutNote? r' t is b = cutNote? r u is b := by
  cases b with
  | childCascade c => simp only [cutNote?, leadsBack_congr hcalls ht]
  | _ => rfl

/-- Only what leads back is remarked on. -/
theorem leadsBack_of_cutNote? {b : Block Callee} {note : String}
    (h : cutNote? r t is b = some note) : leadsBack r t b = true := by
  cases b with
  | childCascade c =>
    by_contra hnot
    rw [cutNote?, if_neg hnot] at h
    cases h
  | _ => cases h

/-- **Every remark that a block calls for is made** when the turn of its
function comes. -/
theorem remarks_cutTables (hdist : r.Distinct)
    (h : ts.foldlM s.cutTable (r, notes) = .ok (r', notes')) {e : FunctionRecord}
    (he : e ∈ r.records) (hin : e.function.table.isIn ts) {b : Block Callee}
    (hb : b ∈ e.function.blocks) {note : String}
    (hnote : cutNote? r e.function.table
      ((s.schema.incoming e.function.table).toOption.getD []) b = some note) : note ∈ notes' := by
  induction ts generalizing r notes with
  | nil => cases hin
  | cons t ts ih =>
    rw [List.foldlM_cons] at h
    cases hstep : s.cutTable (r, notes) t with
    | error e =>
      rw [hstep] at h
      cases h
    | ok next =>
      obtain ⟨r₁, notes₁⟩ := next
      rw [hstep] at h
      have hgrow : notes₁ ⊆ notes' :=
        foldlM_cutTable (P := fun _ ns => notes₁ ⊆ ns)
          (fun hsub hcut => List.Subset.trans hsub (notes_subset_cutTable hcut)) (fun _ h => h) h
      by_cases hsame : e.function.table.same t = true
      · have hget : r.get? t = some e.function := by
          rw [Registry.get?, hdist.record?_of_mem he hsame, Option.map_some]
        rw [cutNote?_congr (fun _ => rfl) hsame] at hnote
        rcases cutTable_eq_ok hstep with ⟨-, -, hnone⟩ | ⟨f, is, hf, his, -, rfl⟩
        · have hback := leadsBack_of_cutNote? hnote
          rw [hnone _ hget b hb] at hback
          cases hback
        · rw [hget, Option.some.injEq] at hf
          subst hf
          rw [Schema.incoming_congr (TableName.same_symm hsame) his] at hnote
          exact hgrow ((subset_addNotes _ _).2 (List.mem_filterMap.2 ⟨b, hb, hnote⟩))
      · have hrest : e.function.table.isIn ts := by
          have hor : (e.function.table.same t || e.function.table.isIn ts) = true := hin
          rw [Bool.or_eq_true] at hor
          exact hor.resolve_left hsame
        have hdist₁ : r₁.Distinct := by
          rcases cutTable_eq_ok hstep with ⟨rfl, -, -⟩ | ⟨f, is, -, -, rfl, -⟩
          · exact hdist
          · exact hdist.modify fun e => ⟨rfl, rfl⟩
        have he₁ : e ∈ r₁.records := by
          rw [records_cutTable hdist hstep]
          exact List.mem_map.2 ⟨e, he, if_neg hsame⟩
        refine ih hdist₁ h he₁ hrest ?_
        rw [cutNote?_congr (callsOf_cutTable hstep) (TableName.same_refl _), hnote]

/-! ## Functions as they end up -/

/-- **A function is drafted**: it is the body of its table, with what it calls
by name. -/
structure Drafts (s : Setting) (f : DeleteFunction) (t : TableName)
    (drafted : List (Block TableName)) (callee : TableName → Callee) : Prop where
  table : t.same f.table
  draft : (s.draft t).outcome = .ok (f.keyColumn, drafted)
  named : ∀ u, (callee u).table = u
  blocks : f.blocks = drafted.map (·.map callee)

theorem drafts_of_write {called : List TableName}
    (h : ∀ e ∈ r.records, e.isDone = true → ∃ t drafted callee,
      s.Drafts e.function t drafted callee ∧ (s.draft t).notes ⊆ notes)
    (hwritten : s.write r notes t = .ok (r', notes', called)) :
    ∀ e ∈ r'.records, e.isDone = true → ∃ t drafted callee,
      s.Drafts e.function t drafted callee ∧ (s.draft t).notes ⊆ notes' := by
  unfold write at hwritten
  dsimp only at hwritten
  split at hwritten
  · cases hwritten
  · rename_i r₁ hreserve
    split at hwritten
    · cases hwritten
    · rename_i k blocks houtcome
      cases hwritten
      obtain ⟨hold, hnew⟩ := subset_addNotes notes (s.draft t).notes
      intro e' he' hd
      obtain ⟨e, he, rfl⟩ := Registry.mem_modify.1 he'
      split
      · rename_i hsame
        exact ⟨t, blocks, r₁.callee,
          ⟨TableName.same_symm hsame, houtcome, fun _ => rfl, rfl⟩, hnew⟩
      · rename_i hother
        rw [if_neg hother] at hd
        rcases (Registry.mem_records_reserveAll hreserve).2 e he with hkept | ⟨hblank, -⟩
        · obtain ⟨u, drafted, callee, hdrafts, hnotes⟩ := h e hkept hd
          exact ⟨u, drafted, callee, hdrafts, List.Subset.trans hnotes hold⟩
        · rw [hblank] at hd
          cases hd

/-- The functions that were visited are drafted, and what there was to remark on
them is among the remarks. -/
theorem drafts_of_visit {namer : Namer} {root : TableName} {visited : Synthesis}
    (h : s.visit [root] (.new namer) [] = .ok visited) (hf : f ∈ visited.registry.functions) :
    ∃ t drafted callee, s.Drafts f t drafted callee ∧ (s.draft t).notes ⊆ visited.notes := by
  obtain ⟨e, he, hd, rfl, -⟩ := Registry.mem_functions hf
  exact visit_keeps
    (P := fun r notes => ∀ e ∈ r.records, e.isDone = true →
      ∃ t drafted callee, s.Drafts e.function t drafted callee ∧ (s.draft t).notes ⊆ notes)
    (fun h hbegun e he hd => h e (mem_records_beginVisit hbegun he hd) hd)
    (fun h hwritten => drafts_of_write h hwritten) [root] (by simp [Registry.new]) h e he hd

/-- **Cutting the loops cuts each function once**, in place. -/
theorem functions_cutCycles (hdist : r.Distinct) (h : s.cutCycles r notes = .ok (r', notes')) :
    r'.functions = r.functions.map (s.cutFunction r) := by
  obtain ⟨-, hrecords⟩ := records_cutTables hdist h
  have hvisited : r'.visited = r.visited :=
    foldlM_cutTable (P := fun r' _ => r'.visited = r.visited)
      (fun hkept hcut => by
        rcases cutTable_eq_ok hcut with ⟨rfl, -, -⟩ | ⟨f, is, -, -, rfl, -⟩ <;> exact hkept) rfl h
  have hrecord (t : TableName) : r'.record? t = (r.record? t).map fun e =>
      if e.function.table.isIn (r.functions.map (·.table)) then
        { e with function := s.cutFunction r e.function } else e := by
    unfold Registry.record?
    rw [hrecords, List.find?_map]
    congr 2
    funext e
    dsimp only [Function.comp_apply]
    split <;> rfl
  unfold Registry.functions
  rw [hvisited, List.map_filterMap]
  refine List.filterMap_congr fun t ht => ?_
  rw [hrecord]
  cases he : r.record? t with
  | none => rfl
  | some e =>
    have hin (hd : e.isDone = true) : e.function.table.isIn (r.functions.map (·.table)) := by
      have hf : e.function ∈ r.functions := by
        refine List.mem_filterMap.2 ⟨t, ht, ?_⟩
        rw [he]
        exact if_pos hd
      exact TableName.isIn_iff.2 ⟨_, List.mem_map_of_mem hf, TableName.same_refl _⟩
    dsimp only [Option.map_some]
    by_cases hd : e.isDone = true
    · rw [if_pos (hin hd)]
      simp
    · rw [if_neg hd]
      split <;> rfl

/-- **Every synthesized function is the drafted body of its table, cut once**
with the registry of the end, and what there was to remark on it is among the
remarks. -/
theorem drafted_of_synthesize {namer : Namer} {root : TableName} {result : Synthesis}
    (h : s.synthesize namer root = .ok result) (hf : f ∈ result.registry.functions) :
    ∃ f₀ t drafted callee, s.Drafts f₀ t drafted callee ∧
      f = s.cutFunction result.registry f₀ ∧ (s.draft t).notes ⊆ result.notes ∧
      ∀ b ∈ f₀.blocks, ∀ note, cutNote? result.registry f₀.table
        ((s.schema.incoming f₀.table).toOption.getD []) b = some note → note ∈ result.notes := by
  obtain ⟨visited, hvisit, hcut⟩ := synthesize_eq_ok h
  have hsound := visit_keeps (P := s.Sound) (fun h hr => h.beginVisit hr)
    (fun h hr => h.write hr) [root] (.new namer) hvisit
  have hgrow : visited.notes ⊆ result.notes :=
    foldlM_cutTable (P := fun _ ns => visited.notes ⊆ ns)
      (fun hsub hcut => List.Subset.trans hsub (notes_subset_cutTable hcut)) (fun _ h => h) hcut
  obtain ⟨hcalls, -⟩ := records_cutTables hsound.distinct hcut
  rw [functions_cutCycles hsound.distinct hcut] at hf
  obtain ⟨f₀, hf₀, rfl⟩ := List.mem_map.1 hf
  obtain ⟨t, drafted, callee, hdraft, hnotes⟩ := drafts_of_visit hvisit hf₀
  have hin : f₀.table.isIn (visited.registry.functions.map (·.table)) :=
    TableName.isIn_iff.2 ⟨_, List.mem_map_of_mem hf₀, TableName.same_refl _⟩
  refine ⟨f₀, t, drafted, callee, hdraft, (cutFunction_congr hcalls f₀).symm,
    List.Subset.trans hnotes hgrow, fun b hb note hnote => ?_⟩
  obtain ⟨e, he, -, rfl, -⟩ := Registry.mem_functions hf₀
  rw [cutNote?_congr hcalls (TableName.same_refl _)] at hnote
  exact remarks_cutTables hsound.distinct hcut he hin hb hnote

/-- A synthesized function is the drafted body of its table, cut once. -/
theorem drafts_of_synthesize {namer : Namer} {root : TableName} {result : Synthesis}
    (h : s.synthesize namer root = .ok result) (hf : f ∈ result.registry.functions) :
    ∃ f₀ t drafted callee, s.Drafts f₀ t drafted callee ∧
      f = s.cutFunction result.registry f₀ := by
  obtain ⟨f₀, t, drafted, callee, hdrafts, hcut, -⟩ := drafted_of_synthesize h hf
  exact ⟨f₀, t, drafted, callee, hdrafts, hcut⟩

end Setting

end DeleteCascade
