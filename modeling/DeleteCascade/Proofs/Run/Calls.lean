import DeleteCascade.Proofs.Run.Steps
/-!
# Runs — what calls a run makes

`Run.Makes` keeps the trace of a run and forgets its store: the calls that a
step makes at one depth are some of a given list, in the order of that list,
and the calls within them are deeper. A block makes some of the calls that
`Block.issued` lists for its caller (`Block.makes_run`), so a run of a program
does as well (`Program.makes_call`), whether it succeeds or fails.
-/

namespace DeleteCascade

/-! ## The calls of a block -/

/-- What caller a kind of block passes on. -/
def BlockKind.passes : BlockKind → Caller
  | subtypeDispatch => .fromParent
  | parentCascade => .fromSubtype
  | _ => .fromOwner

namespace Block

variable {κ : Type}

/-- What a block can reach: typed subtypes only if the class of an object is
stored somewhere. -/
def reached : Block κ → List κ
  | subtypeDispatch b => if b.discriminator.isSome then b.cases.map (·.callee) ++ b.hooks else b.hooks
  | b => b.callees

/-- The calls of a block, with the caller that each passes on. -/
def sites (b : Block κ) : List (κ × Caller) := b.reached.map fun c => (c, b.kind.passes)

/-- The calls that a block can make for so many rows when its function was
called by `caller`. Each row may go to any of the typed subtypes. -/
def issued (caller : Caller) (rows : Nat) : Block κ → List (κ × Caller)
  | subtypeDispatch b =>
    (if b.discriminator.isSome && !caller.skipsSubtypes then
        (List.replicate rows (b.cases.map fun c => (c.callee, Caller.fromParent))).flatten
      else []) ++
      b.hooks.map fun h => (h, .fromParent)
  | parentCascade callee => if caller.skipsParent then [] else [(callee, .fromSubtype)]
  | b => b.callees.map fun c => (c, .fromOwner)

/-- A client's call for one row can make all the calls of a block. -/
theorem issued_external (b : Block κ) : b.issued .external 1 = b.sites := by
  cases b with
  | subtypeDispatch b => cases h : b.discriminator <;> simp [issued, sites, reached, h, kind,
      BlockKind.passes, Caller.skipsSubtypes, Function.comp_def]
  | _ => simp [issued, sites, reached, kind, BlockKind.passes, callees, Caller.skipsParent]

end Block

/-- A call by the name of its function. -/
def Callee.named (call : Callee × Caller) : String × Caller := (call.1.function, call.2)

/-! ## The calls of a step -/

namespace Run

variable {α β : Type} {depth : Nat} {calls calls' : List (String × Caller)}

/-- The state that a run comes to, whether it succeeds or fails. -/
def after (x : Run α) (st : RunState) : RunState :=
  match x st with
  | .ok _ st' => st'
  | .error _ st' => st'

/-- **A step makes some of these calls**, in this order, at this depth. All
other calls it makes are deeper. -/
def Makes (depth : Nat) (x : Run α) (calls : List (String × Caller)) : Prop :=
  ∀ st, ∃ made : List CallRecord, (x.after st).trace = st.trace ++ made ∧
    (∀ c ∈ made, depth ≤ c.depth) ∧
    ((made.filter (·.depth == depth)).map fun c => (c.function, c.caller)).Sublist calls

/-- A step that leaves the trace alone makes no calls. -/
theorem makes_of_trace {x : Run α} (h : ∀ st, (x.after st).trace = st.trace) :
    x.Makes depth [] := fun st =>
  ⟨[], by simpa using h st, by simp, by simp⟩

theorem makes_pure (a : α) : (pure a : Run α).Makes depth [] := makes_of_trace fun _ => rfl

theorem makes_throw (e : RunError) : (throw e : Run α).Makes depth [] :=
  makes_of_trace fun _ => rfl

theorem makes_statement (change : Store → Except StoreError (α × Store)) :
    (statement change).Makes depth [] := by
  refine makes_of_trace fun st => ?_
  unfold after statement
  cases change st.store <;> rfl

theorem makes_query (read : Store → Except StoreError α) : (query read).Makes depth [] := by
  refine makes_of_trace fun st => ?_
  unfold after query
  cases read st.store <;> rfl

theorem makes_stillUnowned (t : TableName) (key : String) (owners : Option (List Owner))
    (ids : List Int) : (stillUnowned t key owners ids).Makes depth [] :=
  makes_of_trace fun _ => rfl

theorem Makes.mono {x : Run α} (h : x.Makes depth calls) (hsub : calls.Sublist calls') :
    x.Makes depth calls' := fun st =>
  let ⟨made, htrace, hdeep, hmade⟩ := h st
  ⟨made, htrace, hdeep, hmade.trans hsub⟩

/-- A step that makes no calls makes some of any. -/
theorem Makes.quiet {x : Run α} (h : x.Makes depth []) : x.Makes depth calls :=
  h.mono (List.nil_sublist _)

/-- One level up, the calls are within others. -/
theorem Makes.within {x : Run α} (h : x.Makes (depth + 1) calls) : x.Makes depth [] := by
  intro st
  obtain ⟨made, htrace, hdeep, -⟩ := h st
  refine ⟨made, htrace, fun c hc => by have := hdeep c hc; omega, ?_⟩
  have hnone : made.filter (·.depth == depth) = [] := by
    rw [List.filter_eq_nil_iff]
    intro c hc heq
    have := hdeep c hc
    have := beq_iff_eq.1 heq
    omega
  rw [hnone]
  exact List.Sublist.refl _

theorem Makes.bind {x : Run α} {f : α → Run β} (hx : x.Makes depth calls)
    (hf : ∀ a, (f a).Makes depth calls') : (x >>= f).Makes depth (calls ++ calls') := by
  intro st
  obtain ⟨made, htrace, hdeep, hmade⟩ := hx st
  change ∃ made, (after (EStateM.bind x f) st).trace = _ ∧ _
  unfold after EStateM.bind at *
  cases hrun : x st with
  | error e st₁ =>
    rw [hrun] at htrace
    exact ⟨made, htrace, hdeep, hmade.trans (List.sublist_append_left _ _)⟩
  | ok a st₁ =>
    rw [hrun] at htrace
    obtain ⟨made', htrace', hdeep', hmade'⟩ := hf a st₁
    refine ⟨made ++ made', ?_, ?_, ?_⟩
    · dsimp only at htrace ⊢
      rw [← List.append_assoc, ← htrace]
      exact htrace'
    · exact fun c hc => (List.mem_append.1 hc).elim (hdeep c) (hdeep' c)
    · rw [List.filter_append, List.map_append]
      exact hmade.append hmade'

/-- A step that makes no calls may come first. -/
theorem Makes.after_quiet {x : Run α} {f : α → Run β} (hx : x.Makes depth [])
    (hf : ∀ a, (f a).Makes depth calls) : (x >>= f).Makes depth calls := hx.bind hf

/-- What each item of a chain makes, the chain makes once for each. -/
theorem makes_foldlM {g : β → α → Run β} (h : ∀ b a, (g b a).Makes depth calls) (l : List α)
    (b : β) : (l.foldlM g b).Makes depth (List.replicate l.length calls).flatten := by
  induction l generalizing b with
  | nil => exact makes_pure b
  | cons a l ih =>
    rw [List.foldlM_cons, List.length_cons, List.replicate_succ, List.flatten_cons]
    exact (h b a).bind ih

/-- A chain makes what its items make. -/
theorem makes_forM {g : α → Run Unit} {site : α → String × Caller}
    (h : ∀ a, (g a).Makes depth [site a]) (l : List α) : (l.forM g).Makes depth (l.map site) := by
  induction l with
  | nil => exact makes_pure ()
  | cons a l ih => exact (h a).bind fun _ => ih

end Run

/-! ## The calls of a block in a run -/

section Blocks

variable {depth : Nat} {call : CallFunction} (f : DeleteFunction) (batch : List Int)
variable (caller : Caller) (frame : Frame)

open Run in
theorem Run.makes_deleteOwned
    (hcall : ∀ name ids caller, (call name ids caller).Makes depth [(name, caller)])
    (callee : Callee) (ids : List Int) :
    (deleteOwned call callee ids).Makes depth [(callee.function, .fromOwner)] := by
  unfold deleteOwned
  split
  · exact (makes_pure []).quiet
  · exact hcall _ _ _

namespace Block

open Run

variable (hcall : ∀ name ids caller, (call name ids caller).Makes depth [(name, caller)])

include hcall

theorem makes_selfParts (b : SelfParts Callee) :
    (b.run call f batch frame).Makes depth [(b.callee.function, .fromOwner)] := by
  have hdelete (parts : List Row) : (do
      let deleted ← deleteOwned call b.callee (parts.filterMap (·.get? f.keyColumn))
      return { frame with deletedParts := frame.deletedParts ++ deleted } : Run Frame).Makes depth
        [(b.callee.function, .fromOwner)] :=
    (makes_deleteOwned hcall _ _).bind fun _ => makes_pure _
  unfold SelfParts.run
  dsimp only
  split
  · exact (makes_statement _).after_quiet hdelete
  · exact (makes_query _).after_quiet hdelete

theorem makes_childCascade (b : ChildCascade Callee) :
    (b.run call batch frame).Makes depth [(b.callee.function, .fromOwner)] := by
  have hdelete (children : List Row) : (do
      let ids ← stillUnowned b.child b.childKey b.ownerCheck (children.filterMap (·.get? b.childKey))
      let _ ← deleteOwned call b.callee ids
      return frame : Run Frame).Makes depth [(b.callee.function, .fromOwner)] :=
    (makes_stillUnowned _ _ _ _).after_quiet fun ids =>
      (makes_deleteOwned hcall _ ids).bind fun _ => makes_pure frame
  unfold ChildCascade.run
  refine (makes_query _).after_quiet fun children => ?_
  dsimp only
  split
  · exact (makes_statement _).after_quiet fun _ => hdelete children
  · exact hdelete children

theorem makes_bridgeCascade (b : BridgeCascade Callee) : (b.run call batch frame).Makes depth
    (b.callee.toList.map fun c => (c.function, .fromOwner)) := by
  unfold BridgeCascade.run
  refine (makes_statement _).after_quiet fun links => ?_
  cases hcallee : b.callee with
  | none => exact (makes_pure frame).quiet
  | some callee =>
    refine (makes_stillUnowned _ _ _ _).after_quiet fun ids => ?_
    exact (makes_deleteOwned hcall callee ids).bind fun _ => makes_pure frame

/-- For one row at most one of the typed subtypes is called. -/
theorem makes_runTyped (b : SubtypeDispatch Callee) (d : Discriminator) (id : Int) :
    (b.runTyped call d frame id).Makes depth
      (b.cases.map fun c => (c.callee.function, .fromParent)) := by
  unfold SubtypeDispatch.runTyped
  refine (makes_query _).after_quiet fun rows => ?_
  split
  · exact (makes_pure frame).quiet
  · split
    · exact (makes_pure frame).quiet
    · rename_i subtype hfind
      have hmem : (subtype.callee.function, Caller.fromParent) ∈
          b.cases.map fun c => (c.callee.function, Caller.fromParent) :=
        List.mem_map.2 ⟨subtype, List.mem_of_find?_eq_some hfind, rfl⟩
      refine Makes.mono ?_ (List.singleton_sublist.2 hmem)
      exact (hcall _ _ _).bind fun _ => makes_pure _

theorem makes_subtypeDispatch (b : SubtypeDispatch Callee) :
    (b.run call batch caller frame).Makes depth
      (((Block.subtypeDispatch b).issued caller batch.length).map Callee.named) := by
  have hhooks (frame : Frame) : (do
      b.hooks.forM fun hook => do
        let _ ← call hook.function batch .fromParent
      return frame : Run Frame).Makes depth (b.hooks.map fun h => (h.function, .fromParent)) := by
    rw [← List.append_nil (b.hooks.map _)]
    refine (makes_forM (fun hook => ?_) b.hooks).bind fun _ => makes_pure frame
    exact (hcall hook.function batch .fromParent).bind fun _ => makes_pure ()
  unfold SubtypeDispatch.run
  simp only [issued, List.map_append, List.map_map, Function.comp_def, Callee.named]
  cases hd : b.discriminator with
  | none => exact (makes_pure frame).bind hhooks
  | some d =>
    cases hskip : caller.skipsSubtypes with
    | true => exact (makes_pure frame).bind hhooks
    | false =>
      have htyped := makes_foldlM (fun frame id => makes_runTyped frame hcall b d id) batch frame
      simpa [List.map_flatten, List.map_replicate, Callee.named, Function.comp_def] using
        htyped.bind hhooks

theorem makes_referencedCleanup (b : ReferencedCleanup Callee) :
    (b.run call frame).Makes depth [(b.callee.function, .fromOwner)] := by
  unfold ReferencedCleanup.run
  refine (makes_stillUnowned _ _ _ _).after_quiet fun ids => ?_
  exact (makes_deleteOwned hcall _ ids).bind fun _ => makes_pure frame

theorem makes_parentCascade (callee : Callee) : (runParentCascade callee call caller frame).Makes
    depth (if caller.skipsParent then [] else [(callee.function, .fromSubtype)]) := by
  unfold runParentCascade
  cases hskip : caller.skipsParent with
  | true => exact makes_pure frame
  | false =>
    dsimp only
    split
    · exact (makes_pure frame).quiet
    · exact (hcall _ _ _).bind fun _ => makes_pure frame

/-- **A block makes some of the calls it can make**, in their order, if each
call is one call at this depth. -/
theorem makes_run (b : Block Callee) : (b.run call f batch caller frame).Makes depth
    ((b.issued caller batch.length).map Callee.named) := by
  cases b with
  | selfParts b => exact makes_selfParts f batch frame hcall b
  | childCascade b => exact makes_childCascade batch frame hcall b
  | bridgeCascade b =>
    simpa [issued, callees, Callee.named, Function.comp_def, Block.run] using
      makes_bridgeCascade batch frame hcall b
  | subtypeDispatch b => exact makes_subtypeDispatch batch caller frame hcall b
  | localDelete captured =>
    exact (makes_statement _).after_quiet fun _ => makes_pure _
  | referencedCleanup b => exact makes_referencedCleanup frame hcall b
  | parentCascade callee =>
    have hparent := makes_parentCascade caller frame hcall callee
    cases hskip : caller.skipsParent <;> simpa [issued, hskip, Callee.named, Block.run] using hparent

end Block

end Blocks

/-! ## The calls of a program -/

namespace Program

variable (p : Program)

/-- A call is one call at its depth: the calls of the function's blocks are
within it. -/
theorem makes_call {levels : Nat} (hlevels : levels ≤ p.maxDepth + 1) (name : String)
    (ids : List Int) (caller : Caller) :
    (p.call levels name ids caller).Makes (p.maxDepth + 1 - levels) [(name, caller)] := by
  induction levels generalizing name ids caller with
  | zero => exact (Run.makes_throw _).quiet
  | succ deeper ih =>
    have hdepth : p.maxDepth + 1 - deeper = p.maxDepth - deeper + 1 := by omega
    have hbody (f : DeleteFunction) (batch : List Int) (frame : Frame) (b : Block Callee) :
        (b.run (p.call deeper) f batch caller frame).Makes (p.maxDepth - deeper) [] :=
      (Block.makes_run f batch caller frame (hdepth ▸ ih (by omega)) b).within
    rw [show p.maxDepth + 1 - (deeper + 1) = p.maxDepth - deeper by omega]
    unfold call
    cases p.lookup name with
    | none => exact (Run.makes_throw _).quiet
    | some f =>
      have henter (batch : List Int) :
          (Run.enter ⟨name, caller, batch, p.maxDepth - deeper⟩).Makes (p.maxDepth - deeper)
            [(name, caller)] := fun st =>
        ⟨[⟨name, caller, batch, p.maxDepth - deeper⟩], rfl, List.forall_mem_singleton.2 (Nat.le_refl _),
          by simp⟩
      refine Run.Makes.bind (henter _) fun _ => ?_
      split
      · exact Run.makes_pure _
      · have hblocks := Run.makes_foldlM (fun frame b => hbody f (ascending ids) frame b) f.blocks
          .empty
        exact (hblocks.mono (by simp)).after_quiet fun _ => Run.makes_pure _

/-- **In a run, a block makes some of the calls it can make**: those at the
depth next to that of its function are calls that `Block.issued` lists. -/
theorem makes_block (depth : Nat) (f : DeleteFunction) (batch : List Int) (caller : Caller)
    (frame : Frame) (b : Block Callee) :
    (b.run (p.call (p.maxDepth - depth)) f batch caller frame).Makes (depth + 1)
      ((b.issued caller batch.length).map Callee.named) := by
  refine Block.makes_run f batch caller frame (fun name ids caller => ?_) b
  by_cases hdepth : depth ≤ p.maxDepth
  · have hcall := p.makes_call (show p.maxDepth - depth ≤ p.maxDepth + 1 by omega) name ids caller
    rwa [show p.maxDepth + 1 - (p.maxDepth - depth) = depth + 1 by omega] at hcall
  · rw [show p.maxDepth - depth = 0 by omega]
    have hnone : (p.call 0 name ids caller).Makes (depth + 1) [] := Run.makes_throw _
    exact hnone.quiet

end Program

end DeleteCascade
