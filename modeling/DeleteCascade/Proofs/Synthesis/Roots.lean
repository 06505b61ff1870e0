import DeleteCascade.Proofs.Synthesis.Cuts
import DeleteCascade.Proofs.Synthesis.Spelling
/-!
# Programs — scripts from two roots

A table may have a function in the scripts of two roots, under two names and
with its loops cut in two registries. The functions do the same
(`Setting.byTable_eq_of_synthesize`): both have the drafted body of the table,
and both are cut where it leads back. That does not depend on the root, since a
script has all that its functions lead to: what is called in one script is
called in the other (`Registry.CallsAlike`), and so a call of a table that both
have leads to the same tables (`Registry.Reaches.of_alike`).
-/

namespace DeleteCascade

namespace Registry

variable {r r' : Registry} {root root' target target' : TableName} {maxLength maxLength' : Nat}
variable {f : DeleteFunction} {a b : Call}

/-! ## Calls in two scripts -/

/-- What is called is called by a function of the script. -/
theorem IsClosed.exists_of_mem_callsOf (h : r.IsClosed root maxLength) (hb : b ∈ r.callsOf a) :
    ∃ f ∈ r.functions, f.table.same a.1 ∧ ∃ c, (c, b.2) ∈ f.calls a.2 ∧ c.table = b.1 := by
  unfold callsOf at hb
  split at hb
  · rename_i f hget
    obtain ⟨e, he, rfl⟩ := Option.map_eq_some_iff.1 hget
    obtain ⟨hmem, hsame⟩ := mem_of_record? he
    obtain ⟨c, hc, rfl⟩ := List.mem_map.1 hb
    exact ⟨e.function, (h.records e hmem).2, hsame, c.1, hc, rfl⟩
  · cases hb

theorem Distinct.mem_callsOf (h : r.Distinct) (hf : f ∈ r.functions) (hsame : f.table.same a.1)
    {c : Callee} {next : Caller} (hc : (c, next) ∈ f.calls a.2) : (c.table, next) ∈ r.callsOf a := by
  obtain ⟨e, he, -, rfl, -⟩ := mem_functions hf
  unfold callsOf
  rw [get?, h.record?_of_mem he hsame]
  exact List.mem_map.2 ⟨_, hc, rfl⟩

/-- **Two scripts call alike**: a table that has a function in both calls the
same tables in both. -/
def CallsAlike (r r' : Registry) : Prop :=
  ∀ f ∈ r.functions, ∀ f' ∈ r'.functions, f.table.same f'.table → ∀ caller,
    (f.calls caller).map (fun call => (call.1.table.plain, call.2)) =
      (f'.calls caller).map fun call => (call.1.table.plain, call.2)

theorem CallsAlike.symm (h : r.CallsAlike r') : r'.CallsAlike r :=
  fun f' hf' f hf hsame caller => (h f hf f' hf' (TableName.same_symm hsame) caller).symm

/-- **What a call leads to in one script it leads to in the other**, if its
table has a function there: all that is called from there on has one too. -/
theorem Reaches.of_alike (h : r.Reaches target a) (hclosed : r.IsClosed root maxLength)
    (hclosed' : r'.IsClosed root' maxLength') (hdist' : r'.Distinct) (halike : r.CallsAlike r')
    (htarget : target.same target') {a' : Call} (haa' : sameCall a a')
    (hf' : ∃ f' ∈ r'.functions, f'.table.same a'.1) : r'.Reaches target' a' := by
  induction h generalizing a' with
  | @here a same =>
    simp only [sameCall, Bool.and_eq_true] at haa'
    exact .here (TableName.same_trans (TableName.same_symm haa'.1)
      (TableName.same_trans same htarget))
  | @step a b calls leads ih =>
    simp only [sameCall, Bool.and_eq_true, beq_iff_eq] at haa'
    obtain ⟨f, hf, hfa, c, hc, hcb⟩ := hclosed.exists_of_mem_callsOf calls
    obtain ⟨f', hf', hfa'⟩ := hf'
    have hsame : f.table.same f'.table :=
      TableName.same_trans hfa (TableName.same_trans haa'.1 (TableName.same_symm hfa'))
    have hmem : (c.table.plain, b.2) ∈
        (f'.calls a.2).map fun call => (call.1.table.plain, call.2) := by
      rw [← halike f hf f' hf' hsame]
      exact List.mem_map.2 ⟨_, hc, rfl⟩
    obtain ⟨⟨c', next⟩, hc', heq⟩ := List.mem_map.1 hmem
    obtain ⟨hplain, rfl⟩ := Prod.mk.inj heq
    have hcallee : c' ∈ f'.callees := by
      obtain ⟨block, hblock, hcall⟩ := List.mem_flatMap.1 hc'
      exact List.mem_flatMap.2 ⟨block, hblock, Block.mem_callees_of_mem_calls hcall⟩
    obtain ⟨g', hg', -, hg'c⟩ := hclosed'.exists_called hf' hcallee
    rw [haa'.2] at hc'
    refine .step (hdist'.mem_callsOf hf' hfa' hc') (ih ?_ ⟨g', hg', hg'c⟩)
    simpa [sameCall, ← hcb] using TableName.same_symm (TableName.plain_eq_iff.1 hplain)

end Registry

namespace Setting

variable {s : Setting} {t t' : TableName} {r r' : Registry} {f f₀ f' : DeleteFunction}
variable {drafted : List (Block TableName)} {callee callee' : TableName → Callee}

/-- Cutting leaves the calls of the drafted body. -/
theorem Drafts.calls_cutFunction (h : s.Drafts f₀ t drafted callee) (r : Registry)
    (caller : Caller) :
    ((s.cutFunction r f₀).calls caller).map (fun call => (call.1.table.plain, call.2)) =
      (drafted.map (·.byTable id)).flatMap (·.calls caller) := by
  unfold cutFunction DeleteFunction.calls
  dsimp only
  rw [h.blocks, List.map_map, List.flatMap_map, List.flatMap_map, List.map_flatMap]
  refine List.flatMap_congr fun b _ => ?_
  dsimp only [Function.comp_apply]
  rw [((Written.named b).cutBlock r f₀.table _).calls, Block.calls_byTable, List.map_map]
  simp [h.named, Function.comp_def]

/-- What the drafted body calls is called by name. -/
theorem Drafts.mem_callees (h : s.Drafts f₀ t drafted callee) (r : Registry) {b : Block TableName}
    (hb : b ∈ drafted) {u : TableName} (hu : u ∈ b.callees) :
    callee u ∈ (s.cutFunction r f₀).callees := by
  unfold cutFunction DeleteFunction.callees
  dsimp only
  rw [h.blocks, List.map_map]
  refine List.mem_flatMap.2 ⟨_, List.mem_map_of_mem hb, ?_⟩
  rw [Function.comp_apply, ((Written.named b).cutBlock r f₀.table _).callees]
  exact List.mem_map_of_mem hu

/-- The bodies of one table are drafted alike. -/
theorem Drafts.agree (h : s.Drafts f t drafted callee) {drafted' : List (Block TableName)}
    (h' : s.Drafts f' t' drafted' callee') (hmeans : s.MeansTables) (hsame : f.table.same f'.table) :
    f.keyColumn = f'.keyColumn ∧ Alike drafted drafted' :=
  agree_draft hmeans (TableName.same_trans h.table
    (TableName.same_trans hsame (TableName.same_symm h'.table))) _ _ h.draft h'.draft

section Synthesized

variable {namer namer' : Namer} {root root' : TableName} {result result' : Synthesis}

/-- The scripts of two roots call alike. -/
theorem callsAlike_of_synthesize (hmeans : s.MeansTables) (h : s.synthesize namer root = .ok result)
    (h' : s.synthesize namer' root' = .ok result') :
    result.registry.CallsAlike result'.registry := by
  intro f hf f' hf' hsame caller
  obtain ⟨f₀, t, drafted, callee, hdrafts, rfl⟩ := drafts_of_synthesize h hf
  obtain ⟨f₀', t', drafted', callee', hdrafts', rfl⟩ := drafts_of_synthesize h' hf'
  rw [hdrafts.calls_cutFunction, hdrafts'.calls_cutFunction,
    (hdrafts.agree hdrafts' hmeans hsame).2]

/-- A call of what functions of both scripts call leads to the same tables in
both. -/
theorem ownerCallReaches_eq (hmeans : s.MeansTables) (h : s.synthesize namer root = .ok result)
    (h' : s.synthesize namer' root' = .ok result') (hf : f ∈ result.registry.functions)
    (hf' : f' ∈ result'.registry.functions) {c c' : Callee} (hc : c ∈ f.callees)
    (hc' : c' ∈ f'.callees) (hcc' : c.table.same c'.table) (ht : t.same t') :
    result.registry.ownerCallReaches c.table t = result'.registry.ownerCallReaches c'.table t' := by
  have hclosed := isClosed_of_synthesize h
  have hclosed' := isClosed_of_synthesize h'
  have halike := callsAlike_of_synthesize hmeans h h'
  have hdist := (sound_of_synthesize h).distinct
  have hdist' := (sound_of_synthesize h').distinct
  obtain ⟨g, hg, -, hgc⟩ := hclosed.exists_called hf hc
  obtain ⟨g', hg', -, hgc'⟩ := hclosed'.exists_called hf' hc'
  rw [Bool.eq_iff_iff, Registry.ownerCallReaches_iff, Registry.ownerCallReaches_iff]
  constructor
  · intro hreaches
    exact hreaches.of_alike hclosed hclosed' hdist' halike ht (by simp [Registry.sameCall, hcc'])
      ⟨g', hg', hgc'⟩
  · intro hreaches
    exact hreaches.of_alike hclosed' hclosed hdist halike.symm (TableName.same_symm ht)
      (by simp [Registry.sameCall, TableName.same_symm hcc']) ⟨g, hg, hgc⟩

end Synthesized

/-- Blocks that are drafted alike are cut alike, where their calls lead to the
same tables. -/
theorem byTable_cutBlock_eq {b b' : Block TableName} {is : List Incoming}
    (hnamed : ∀ u, (callee u).table = u) (hnamed' : ∀ u, (callee' u).table = u)
    (hsame : b.byTable id = b'.byTable id)
    (hreaches : ∀ u ∈ b.callees, ∀ u' ∈ b'.callees, u.same u' →
      r.ownerCallReaches u t = r'.ownerCallReaches u' t') :
    (cutBlock r t is (b.map callee)).byTable (·.table) =
      (cutBlock r' t' is (b'.map callee')).byTable (·.table) := by
  have hnames : (b.map callee).byTable (·.table) = (b'.map callee').byTable (·.table) := by
    rw [Block.byTable_map hnamed, hsame, Block.byTable_map hnamed']
  cases b with
  | childCascade c =>
    cases b' with
    | childCascade c' =>
      obtain ⟨child, childKey, column, detach, check, u⟩ := c
      obtain ⟨child', childKey', column', detach', check', u'⟩ := c'
      simp only [Block.byTable, Block.map, id, Block.childCascade.injEq,
        ChildCascade.mk.injEq] at hsame
      obtain ⟨rfl, rfl, rfl, rfl, rfl, hplain⟩ := hsame
      have hlead := hreaches u List.mem_cons_self u' List.mem_cons_self
        (TableName.plain_eq_iff.1 hplain)
      simp only [cutBlock, Block.map, leadsBack, referenceOf?, hnamed, hnamed', hlead]
      split <;> simp [Block.byTable, Block.map, hnamed, hnamed', hplain]
    | _ => cases hsame
  | _ =>
    cases b' with
    | childCascade c' => cases hsame
    | _ => exact hnames

/-- Lists that are alike seen through one function are alike through another. -/
theorem map_eq_map_of_map_eq {α β γ : Type} {F : α → β} {G G' : α → γ} {l l' : List α}
    (h : l.map F = l'.map F) (hG : ∀ a ∈ l, ∀ a' ∈ l', F a = F a' → G a = G' a') :
    l.map G = l'.map G' := by
  induction l generalizing l' with
  | nil =>
    rw [List.map_nil, eq_comm, List.map_eq_nil_iff] at h
    rw [h]
    rfl
  | cons a l ih =>
    cases l' with
    | nil => cases h
    | cons a' l' =>
      simp only [List.map_cons, List.cons.injEq] at h ⊢
      exact ⟨hG a List.mem_cons_self a' List.mem_cons_self h.1,
        ih h.2 fun x hx x' hx' => hG x (List.mem_cons_of_mem a hx) x' (List.mem_cons_of_mem a' hx')⟩

/-- A table has one list of what enters it, if it has one, in all its spellings. -/
theorem incoming_getD_eq (ht : t.same t') : (s.schema.incoming t).toOption.getD [] =
    (s.schema.incoming t').toOption.getD [] := by
  cases h : s.schema.incoming t with
  | ok is => rw [Schema.incoming_congr ht h]
  | error e =>
    cases h' : s.schema.incoming t' with
    | error e' => rfl
    | ok is =>
      rw [Schema.incoming_congr (TableName.same_symm ht) h'] at h
      cases h

end Setting

/-- Flats own their tenants, and tenants their flats. -/
def tenancy : Setting where
  schema := ⟨"city", [cityTable "flat" ["id"] [("tenant", "tenant")],
    cityTable "tenant" ["id"] [("flat", "flat")]], []⟩
  classifier := .ofRecords [⟨"flat", "tenant", some "tenant", .composition⟩,
    ⟨"tenant", "flat", some "flat", .composition⟩] true
  discriminator := "class"

/-- Tenants have a function whose cascade to flats is cut, by whatever name and
from wherever the script starts. -/
theorem exists_tenantFunction : ∀ start ∈ [("del_", (⟨"city", "flat"⟩ : TableName)),
      ("wipe_", ⟨"CITY", "Tenant"⟩)], ∃ result f g,
    tenancy.synthesize (.new start.1 63) start.2 = .ok result ∧
      f ∈ result.registry.functions ∧ g ∈ result.registry.functions ∧
      f.table.same ⟨"city", "tenant"⟩ ∧ f.name = start.1 ++ "tenant" ∧
      .childCascade ⟨⟨"city", "flat"⟩, "id", "tenant", true, none,
        ⟨⟨"city", "flat"⟩, start.1 ++ "flat"⟩⟩ ∈ f.blocks := by
  intro start hstart
  refine exists_functions ?_
  revert start
  -- the recursions that do not evaluate are followed for as long as they last here
  delta Setting.synthesize Setting.cutCycles Setting.cutTable Setting.leadsBack Setting.cutBlock
    Setting.cutNote? Registry.ownerCallReaches
  rw [← Setting.visitFor_eq _ 12]
  delta Setting.visitFor Setting.visitFor._f Setting.write Setting.draft Setting.body
    Setting.dispatch Schema.classMap Schema.enterClasses
  rw [← Schema.classesBelowFor_eq 4, ← Registry.searchFor_eq 12]
  decide +kernel

end DeleteCascade
