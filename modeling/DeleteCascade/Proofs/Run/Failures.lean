import DeleteCascade.Proofs.Run.Steps
/-!
# Runs — how a run can fail

A run fails where a statement does or a call, and passes the error on. So
what is known of the errors of its statements and calls is known of the
errors of the whole run (`Run.FailsOnly`). The rules follow the way runs are
put together, down to the blocks: a rule asks for the errors of each
statement on the store it comes upon, and for the errors of each call on the
store that the statements before it have left.
-/

namespace DeleteCascade

namespace Run

variable {α β : Type} {E E' : RunError → Prop} {m : Run α} {s : Store}

/-- **A run fails only in certain ways**, if it fails on this store. -/
def FailsOnly (E : RunError → Prop) (m : Run α) (s : Store) : Prop :=
  ∀ trace e st, m ⟨s, trace⟩ = .error e st → E e

theorem failsOnly_pure (a : α) : (pure a : Run α).FailsOnly E s := by
  intro trace e st h
  cases h

theorem failsOnly_statement {change : Store → Except StoreError (α × Store)}
    (h : ∀ e, change s = .error e → E (.store e)) : (statement change).FailsOnly E s := by
  intro trace e st hrun
  unfold statement at hrun
  split at hrun
  · cases hrun
  · rename_i hchange
    cases hrun
    exact h _ hchange

theorem failsOnly_query {read : Store → Except StoreError α}
    (h : ∀ e, read s = .error e → E (.store e)) : (query read).FailsOnly E s := by
  intro trace e st hrun
  unfold query at hrun
  split at hrun
  · cases hrun
  · rename_i hread
    cases hrun
    exact h _ hread

theorem failsOnly_stillUnowned (t : TableName) (key : String) (owners : Option (List Owner))
    (ids : List Int) : (stillUnowned t key owners ids).FailsOnly E s := by
  intro trace e st h
  cases h

theorem failsOnly_enter (call : CallRecord) : (enter call).FailsOnly E s := by
  intro trace e st h
  cases h

theorem failsOnly_bind {f : α → Run β} (hm : m.FailsOnly E s)
    (hf : ∀ a s', m.Yields s a s' → (f a).FailsOnly E s') : (m >>= f).FailsOnly E s := by
  intro trace e st h
  change EStateM.bind m f ⟨s, trace⟩ = _ at h
  unfold EStateM.bind at h
  split at h
  · rename_i a st' hma
    exact hf a st'.store ⟨trace, st'.trace, hma⟩ _ _ _ h
  · rename_i e' st' hma
    cases h
    exact hm _ _ _ hma

/-- **A chain of steps fails only as its steps do**, where each step keeps
what the next one needs, and in the end this holds of all items. -/
theorem failsOnly_foldlM {g : β → α → Run β} {P : List α → β → Store → Prop} {l : List α} {b : β}
    (hstep : ∀ done a rest b s, l = done ++ a :: rest → P done b s →
      (g b a).FailsOnly E s ∧ ∀ b' s', (g b a).Yields s b' s' → P (done ++ [a]) b' s')
    (h : P [] b s) :
    (l.foldlM g b).FailsOnly E s ∧ ∀ b' s', (l.foldlM g b).Yields s b' s' → P l b' s' := by
  have hall (done rest : List α) (hl : l = done ++ rest) {b : β} {s : Store} (h : P done b s) :
      (rest.foldlM g b).FailsOnly E s ∧ ∀ b' s', (rest.foldlM g b).Yields s b' s' → P l b' s' := by
    induction rest generalizing done b s with
    | nil =>
      refine ⟨failsOnly_pure b, fun b' s' hyields => ?_⟩
      obtain ⟨rfl, rfl⟩ := yields_pure hyields
      rwa [hl, List.append_nil]
    | cons a rest ih =>
      rw [List.foldlM_cons]
      obtain ⟨hfirst, hkeeps⟩ := hstep done a rest b s hl h
      have hnext {b' : β} {s' : Store} (hyields : (g b a).Yields s b' s') :=
        ih (done ++ [a]) (by simp [hl]) (hkeeps b' s' hyields)
      refine ⟨failsOnly_bind hfirst fun b' s' hyields => (hnext hyields).1, fun b' s' hyields => ?_⟩
      obtain ⟨b₁, s₁, hfirst, hrest⟩ := yields_bind hyields
      exact (hnext hfirst).2 b' s' hrest
  exact hall [] l rfl h

end Run

/-! ## Blocks -/

section Failures

variable {E : RunError → Prop} {call : CallFunction} {f : DeleteFunction} {batch ids : List Int}
variable {caller : Caller} {frame : Frame} {s : Store}

theorem failsOnly_deleteOwned {callee : Callee}
    (h : ids ≠ [] → (call callee.function ids .fromOwner).FailsOnly E s) :
    (deleteOwned call callee ids).FailsOnly E s := by
  unfold deleteOwned
  split
  · exact Run.failsOnly_pure _
  · rename_i hsome
    exact h (by simpa using hsome)

namespace Block

/-- Parts are called for after they are cut off, if they are. -/
theorem failsOnly_selfParts {b : SelfParts Callee}
    (hclear : b.detach = true → ∀ e,
      s.setNullWhere f.table b.column (f.isPart batch b.column) = .error e → E (.store e))
    (hselect : b.detach = false → ∀ e,
      s.select f.table (f.isPart batch b.column) = .error e → E (.store e))
    (hcall : ∀ parts s₁,
      s.Takes f.table b.column (f.isPart batch b.column) b.detach parts s₁ →
      (call b.callee.function (parts.filterMap (·.get? f.keyColumn)) .fromOwner).FailsOnly E s₁) :
    (b.run call f batch frame).FailsOnly E s := by
  have hfinish {parts : List Row} {s₁ : Store}
      (htake : s.Takes f.table b.column (f.isPart batch b.column) b.detach parts s₁) : (do
        let deleted ← deleteOwned call b.callee (parts.filterMap (·.get? f.keyColumn))
        return { frame with deletedParts := frame.deletedParts ++ deleted } :
          Run Frame).FailsOnly E s₁ :=
    Run.failsOnly_bind (failsOnly_deleteOwned fun _ => hcall parts s₁ htake)
      fun _ _ _ => Run.failsOnly_pure _
  unfold SelfParts.run
  dsimp only
  split
  · rename_i hdetach
    exact Run.failsOnly_bind (Run.failsOnly_statement (hclear hdetach)) fun parts s₁ hyields =>
      hfinish (hdetach ▸ takes_of_statement hyields)
  · rename_i hdetach
    rw [Bool.not_eq_true] at hdetach
    exact Run.failsOnly_bind (Run.failsOnly_query (hselect hdetach)) fun parts s₁ hyields =>
      hfinish (hdetach ▸ takes_of_query hyields)

/-- Children are called for after they are cut off, if they are. -/
theorem failsOnly_childCascade {b : ChildCascade Callee}
    (hselect : ∀ e, s.select b.child (pointsInto batch b.column) = .error e → E (.store e))
    (hclear : b.detach = true → ∀ e,
      s.setNullWhere b.child b.column (pointsInto batch b.column) = .error e → E (.store e))
    (hcall : ∀ children s₁,
      s.Takes b.child b.column (pointsInto batch b.column) b.detach children s₁ →
      (call b.callee.function (s₁.unowned b.child b.childKey b.ownerCheck
        (children.filterMap (·.get? b.childKey))) .fromOwner).FailsOnly E s₁) :
    (b.run call batch frame).FailsOnly E s := by
  unfold ChildCascade.run
  refine Run.failsOnly_bind (Run.failsOnly_query hselect) fun children s₁ hyields => ?_
  obtain ⟨hchildren, rfl⟩ := Run.yields_query hyields
  obtain rfl := Store.select_eq_ok hchildren
  have hfinish {s₁ : Store} (htake : s.Takes b.child b.column (pointsInto batch b.column) b.detach
      ((s.rows b.child).filter (pointsInto batch b.column)) s₁) : (do
        let ids ← stillUnowned b.child b.childKey b.ownerCheck
          (((s.rows b.child).filter (pointsInto batch b.column)).filterMap (·.get? b.childKey))
        let _ ← deleteOwned call b.callee ids
        return frame : Run Frame).FailsOnly E s₁ := by
    refine Run.failsOnly_bind (Run.failsOnly_stillUnowned _ _ _ _) fun ids s₂ hids => ?_
    obtain ⟨rfl, rfl⟩ := Run.yields_stillUnowned hids
    exact Run.failsOnly_bind (failsOnly_deleteOwned fun _ => hcall _ _ htake)
      fun _ _ _ => Run.failsOnly_pure _
  dsimp only
  split
  · rename_i hdetach
    refine Run.failsOnly_bind (Run.failsOnly_statement (hclear hdetach)) fun cleared s₁ hyields => ?_
    obtain ⟨-, rfl⟩ := Store.setNullWhere_eq_ok (Run.yields_statement hyields)
    exact hfinish ⟨rfl, by rw [if_pos hdetach]⟩
  · rename_i hdetach
    exact hfinish ⟨rfl, by rw [if_neg hdetach]⟩

/-- What is behind a bridge is called for after the links are gone. -/
theorem failsOnly_bridgeCascade {b : BridgeCascade Callee}
    (hdelete : ∀ e, s.deleteWhere b.bridge (pointsInto batch b.nearColumn) = .error e →
      E (.store e))
    (hcall : ∀ callee, b.callee = some callee → ∀ links s₁,
      s.deleteWhere b.bridge (pointsInto batch b.nearColumn) = .ok (links, s₁) →
      (call callee.function (s₁.unowned b.target b.targetKey b.ownerCheck
        (links.filterMap (·.get? b.farColumn))) .fromOwner).FailsOnly E s₁) :
    (b.run call batch frame).FailsOnly E s := by
  unfold BridgeCascade.run
  refine Run.failsOnly_bind (Run.failsOnly_statement hdelete) fun links s₁ hyields => ?_
  have hremoved := Run.yields_statement hyields
  split
  · exact Run.failsOnly_pure _
  · rename_i callee hcallee
    refine Run.failsOnly_bind (Run.failsOnly_stillUnowned _ _ _ _) fun ids s₂ hids => ?_
    obtain ⟨rfl, rfl⟩ := Run.yields_stillUnowned hids
    exact Run.failsOnly_bind (failsOnly_deleteOwned fun _ => hcall callee hcallee _ _ hremoved)
      fun _ _ _ => Run.failsOnly_pure _

/-- A typed subtype is called for, if the class of the object is one of its
own. -/
theorem failsOnly_runTyped {b : SubtypeDispatch Callee} {d : Discriminator} {id : Int}
    (hselect : ∀ e, (s.select d.table fun r => r.get? d.keyColumn == some id) = .error e →
      E (.store e))
    (hcall : ∀ case ∈ b.cases, (call case.callee.function [id] .fromParent).FailsOnly E s) :
    (b.runTyped call d frame id).FailsOnly E s := by
  unfold SubtypeDispatch.runTyped
  refine Run.failsOnly_bind (Run.failsOnly_query hselect) fun found s₁ hyields => ?_
  obtain ⟨-, rfl⟩ := Run.yields_query hyields
  split
  · exact Run.failsOnly_pure _
  · split
    · exact Run.failsOnly_pure _
    · rename_i case hfind
      exact Run.failsOnly_bind (hcall case (List.mem_of_find?_eq_some hfind))
        fun _ _ _ => Run.failsOnly_pure _

/-- The subtypes without classes are called for one after the other, where
each call keeps what the next one needs. -/
theorem failsOnly_hooks {hooks : List Callee} {P : Store → Prop}
    (hcall : ∀ hook ∈ hooks, ∀ s, P s →
      (call hook.function batch .fromParent).FailsOnly E s ∧
        ∀ deleted s', (call hook.function batch .fromParent).Yields s deleted s' → P s')
    (h : P s) :
    (hooks.forM fun hook => do
      let _ ← call hook.function batch .fromParent : Run Unit).FailsOnly E s := by
  induction hooks generalizing s with
  | nil => exact Run.failsOnly_pure ()
  | cons hook hooks ih =>
    obtain ⟨hfirst, hkeeps⟩ := hcall hook (by simp) s h
    refine Run.failsOnly_bind (Run.failsOnly_bind hfirst fun _ _ _ => Run.failsOnly_pure ())
      fun u s₁ hyields => ?_
    obtain ⟨deleted, s₂, hcalled, hpure⟩ := Run.yields_bind hyields
    obtain ⟨-, rfl⟩ := Run.yields_pure hpure
    exact ih (fun c hc => hcall c (by simp [hc])) (hkeeps _ _ hcalled)

/-- **A dispatch fails only as the calls of its subtypes do**, which keep
what the next ones need. -/
theorem failsOnly_subtypeDispatch {b : SubtypeDispatch Callee} {P : Store → Prop}
    (hselect : ∀ d, b.discriminator = some d → ∀ id s, P s → ∀ e,
      (s.select d.table fun r => r.get? d.keyColumn == some id) = .error e → E (.store e))
    (htyped : caller.skipsSubtypes = false → ∀ case ∈ b.cases, ∀ id ∈ batch, ∀ s, P s →
      (call case.callee.function [id] .fromParent).FailsOnly E s)
    (hhooks : ∀ hook ∈ b.hooks, ∀ s, P s →
      (call hook.function batch .fromParent).FailsOnly E s)
    (hkeeps : ∀ c ∈ (Block.subtypeDispatch b).callees, ∀ ids, ids ⊆ batch → ∀ s deleted s', P s →
      (call c.function ids .fromParent).Yields s deleted s' → P s') (h : P s) :
    (b.run call batch caller frame).FailsOnly E s := by
  have hdispatches {noted noted' : List Int} {s s' : Store} (hcalls : Dispatches call.calls
      (Block.subtypeDispatch b).callees batch noted s noted' s') (hs : P s) : P s' := by
    induction hcalls with
    | done => exact hs
    | call callee ids_subset run _ _ ih => exact ih (hkeeps _ callee _ ids_subset _ _ _ hs run)
  have hfinish (frame₁ : Frame) {s₁ : Store} (hs₁ : P s₁) : (do
      b.hooks.forM fun hook => do
        let _ ← call hook.function batch .fromParent
      return frame₁ : Run Frame).FailsOnly E s₁ := by
    refine Run.failsOnly_bind (failsOnly_hooks (P := P) (fun hook hhook s hs =>
      ⟨hhooks hook hhook s hs, fun deleted s' hcalled => hkeeps hook (List.mem_append_right _ hhook)
        batch (fun _ hi => hi) _ _ _ hs hcalled⟩) hs₁)
      fun _ _ _ => Run.failsOnly_pure _
  have hidle : (do
      let frame₁ ← (pure frame : Run Frame)
      b.hooks.forM fun hook => do
        let _ ← call hook.function batch .fromParent
      return frame₁ : Run Frame).FailsOnly E s :=
    Run.failsOnly_bind (Run.failsOnly_pure _) fun frame₁ s₁ hyields => by
      obtain ⟨rfl, rfl⟩ := Run.yields_pure hyields
      exact hfinish frame₁ h
  unfold SubtypeDispatch.run
  dsimp only
  split
  · rename_i d hd
    split
    · exact hidle
    · rename_i hskips
      obtain ⟨hchain, -⟩ := Run.failsOnly_foldlM (E := E) (g := b.runTyped call d) (b := frame)
        (l := batch) (P := fun _ _ s => P s) (fun done id rest frame s hbatch hs => by
          have hid : id ∈ batch := by simp [hbatch]
          refine ⟨failsOnly_runTyped (hselect d hd id s hs) fun case hcase =>
            htyped (by simpa using hskips) case hcase id hid s hs, fun frame' s' hyields => ?_⟩
          obtain ⟨noted, -, hcalls⟩ := dispatches_runTyped hid hyields
          exact hdispatches hcalls hs) h
      refine Run.failsOnly_bind hchain fun frame₁ s₁ hyields => hfinish frame₁ ?_
      obtain ⟨noted, -, hcalls⟩ := dispatches_typed (fun _ h => h) hyields
      exact hdispatches hcalls h
  · exact hidle

theorem failsOnly_localDelete {captured : List String}
    (hdelete : ∀ e, s.deleteWhere f.table (pointsInto batch f.keyColumn) = .error e →
      E (.store e)) : (runLocalDelete captured f batch frame).FailsOnly E s := by
  unfold runLocalDelete
  exact Run.failsOnly_bind (Run.failsOnly_statement hdelete) fun _ _ _ => Run.failsOnly_pure _

theorem failsOnly_referencedCleanup {b : ReferencedCleanup Callee}
    (hcall : (call b.callee.function (s.unowned b.target b.targetKey b.ownerCheck
      ((frame.captured[b.slot]?).getD [])) .fromOwner).FailsOnly E s) :
    (b.run call frame).FailsOnly E s := by
  unfold ReferencedCleanup.run
  refine Run.failsOnly_bind (Run.failsOnly_stillUnowned _ _ _ _) fun ids s₁ hids => ?_
  obtain ⟨rfl, rfl⟩ := Run.yields_stillUnowned hids
  exact Run.failsOnly_bind (failsOnly_deleteOwned fun _ => hcall) fun _ _ _ => Run.failsOnly_pure _

theorem failsOnly_parentCascade {callee : Callee}
    (hcall : caller.skipsParent = false →
      (call callee.function frame.deleted .fromSubtype).FailsOnly E s) :
    (runParentCascade callee call caller frame).FailsOnly E s := by
  unfold runParentCascade
  dsimp only
  split
  · exact Run.failsOnly_pure _
  · rename_i hcalls
    simp only [Bool.or_eq_true, not_or, Bool.not_eq_true] at hcalls
    exact Run.failsOnly_bind (hcall hcalls.1) fun _ _ _ => Run.failsOnly_pure _

end Block

end Failures

/-! ## Calls -/

namespace Program

variable {E : RunError → Prop} {p : Program} {name : String} {ids : List Int} {caller : Caller}
variable {s : Store} {f : DeleteFunction} {deeper : Nat} {e : RunError}

theorem failsOnly_call_zero (h : E (.tooDeep name (p.maxDepth + 1))) :
    (p.call 0 name ids caller).FailsOnly E s := by
  intro trace e st hrun
  cases hrun
  exact h

/-- A call of a function that there is fails only as its body does. -/
theorem failsOnly_call_succ (hf : p.lookup name = some f)
    (hbody : (f.blocks.foldlM (fun frame (b : Block Callee) =>
      b.run (p.call deeper) f (ascending ids) caller frame) .empty).FailsOnly E s) :
    (p.call (deeper + 1) name ids caller).FailsOnly E s := by
  unfold call
  rw [hf]
  dsimp only
  refine Run.failsOnly_bind (Run.failsOnly_enter _) fun u s₁ hyields => ?_
  obtain rfl := Run.yields_enter hyields
  split
  · exact Run.failsOnly_pure _
  · exact Run.failsOnly_bind hbody fun _ _ _ => Run.failsOnly_pure _

/-- The error that a client is told is one of the call. -/
theorem error_of_delete (h : (p.delete s name ids).result = .error e)
    (hcall : (p.call (p.maxDepth + 1) name ids .external).FailsOnly E s) : E e := by
  unfold delete at h
  split at h
  · cases h
  · rename_i e' st' hrun
    cases h
    exact hcall _ _ _ hrun

/-- A deletion that fails leaves the store as it was. -/
theorem store_of_delete (h : (p.delete s name ids).result = .error e) :
    (p.delete s name ids).store = s := by
  unfold delete at h ⊢
  split at h
  · cases h
  · rfl

end Program

end DeleteCascade
