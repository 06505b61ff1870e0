import DeleteCascade.Proofs.Store.Statements
import DeleteCascade.Run.Delete
/-!
# Runs — what a run that succeeds has done

`Run.Yields` forgets the trace of a run and keeps what it did to the store.
What a block, a list of blocks and a function did is given by the relations
`Block.Runs`, `Block.RunsAll` and `DeleteFunction.Runs`, one case for each
course a block can take, with the nested calls left open. A fact about all
calls of a program is proved by `Program.call_induction`: it may be assumed
of the calls that a body makes.
-/

namespace DeleteCascade

/-! ## Steps -/

namespace Run

variable {α β : Type}

/-- **A run started on a store yields a result and a store.** -/
def Yields (m : Run α) (s : Store) (a : α) (s' : Store) : Prop :=
  ∃ trace trace', m ⟨s, trace⟩ = .ok a ⟨s', trace'⟩

variable {m : Run α} {s s' s'' : Store} {a a' : α} {b : β}

theorem yields_pure (h : (pure a : Run α).Yields s a' s') : a' = a ∧ s' = s := by
  obtain ⟨trace, trace', h⟩ := h
  cases h
  exact ⟨rfl, rfl⟩

theorem yields_bind {f : α → Run β} (h : (m >>= f).Yields s b s'') :
    ∃ a s', m.Yields s a s' ∧ (f a).Yields s' b s'' := by
  obtain ⟨trace, trace', h⟩ := h
  change EStateM.bind m f ⟨s, trace⟩ = _ at h
  unfold EStateM.bind at h
  split at h
  · rename_i a st hm
    obtain ⟨s', trace₁⟩ := st
    exact ⟨a, s', ⟨trace, trace₁, hm⟩, ⟨trace₁, trace', h⟩⟩
  · cases h

theorem yields_statement {change : Store → Except StoreError (α × Store)}
    (h : (statement change).Yields s a s') : change s = .ok (a, s') := by
  obtain ⟨trace, trace', h⟩ := h
  unfold statement at h
  split at h
  · rename_i hchange
    cases h
    exact hchange
  · cases h

theorem yields_query {read : Store → Except StoreError α} (h : (query read).Yields s a s') :
    read s = .ok a ∧ s = s' := by
  obtain ⟨trace, trace', h⟩ := h
  unfold query at h
  split at h
  · rename_i hread
    cases h
    exact ⟨hread, rfl⟩
  · cases h

theorem yields_enter {call : CallRecord} {u : Unit} (h : (enter call).Yields s u s') : s = s' := by
  obtain ⟨trace, trace', h⟩ := h
  cases h
  rfl

/-- What a step keeps is kept by a chain of steps, with the items that are
left. -/
theorem foldlM_yields {g : β → α → Run β} {P : List α → β → Store → Prop}
    (hstep : ∀ {a rest b s b' s'}, P (a :: rest) b s → (g b a).Yields s b' s' → P rest b' s')
    {l : List α} {b b' : β} (h : P l b s) (hl : (l.foldlM g b).Yields s b' s') : P [] b' s' := by
  induction l generalizing b s with
  | nil =>
    rw [List.foldlM_nil] at hl
    obtain ⟨rfl, rfl⟩ := yields_pure hl
    exact h
  | cons a rest ih =>
    rw [List.foldlM_cons] at hl
    obtain ⟨b₁, s₁, hfirst, hrest⟩ := yields_bind hl
    exact ih (hstep h hfirst) hrest

/-- A chain over two lists is one chain after the other. -/
theorem yields_foldlM_append {g : β → α → Run β} {l l' : List α} {b b' : β}
    (h : ((l ++ l').foldlM g b).Yields s b' s') :
    ∃ b₁ s₁, (l.foldlM g b).Yields s b₁ s₁ ∧ (l'.foldlM g b₁).Yields s₁ b' s' := by
  rw [List.foldlM_append] at h
  exact yields_bind h

/-- A chain has come to each of its items. -/
theorem yields_foldlM_mem {g : β → α → Run β} {l : List α} {a : α} (ha : a ∈ l) {b b' : β}
    (h : (l.foldlM g b).Yields s b' s') : ∃ before after b₁ s₁ b₂ s₂, l = before ++ a :: after ∧
      (before.foldlM g b).Yields s b₁ s₁ ∧ (g b₁ a).Yields s₁ b₂ s₂ ∧
      (after.foldlM g b₂).Yields s₂ b' s' := by
  obtain ⟨before, after, rfl⟩ := List.append_of_mem ha
  obtain ⟨b₁, s₁, hbefore, hrest⟩ := yields_foldlM_append h
  rw [List.foldlM_cons] at hrest
  obtain ⟨b₂, s₂, hitem, hafter⟩ := yields_bind hrest
  exact ⟨before, after, b₁, s₁, b₂, s₂, rfl, hbefore, hitem, hafter⟩

theorem yields_stillUnowned {t : TableName} {key : String} {owners : Option (List Owner)}
    {ids ids' : List Int} (h : (stillUnowned t key owners ids).Yields s ids' s') :
    ids' = s.unowned t key owners ids ∧ s' = s := by
  obtain ⟨trace, trace', h⟩ := h
  cases h
  exact ⟨rfl, rfl⟩

end Run

/-- Whether a row points into a batch. -/
theorem pointsInto_iff {batch : List Int} {column : String} {r : Row} :
    pointsInto batch column r = true ↔ ∃ v ∈ batch, r.get? column = some v := by
  unfold pointsInto
  cases r.get? column <;> simp

/-! ## Blocks -/

/-- What calls of functions do to the store. -/
abbrev Calls := (function : String) → (ids : List Int) → (caller : Caller) → (s : Store) →
  (deleted : List Int) → (s' : Store) → Prop

/-- What calls made in this way do. -/
def CallFunction.calls (call : CallFunction) : Calls :=
  fun function ids caller s deleted s' => (call function ids caller).Yields s deleted s'

/-- Owned rows are deleted by a call unless there are none. -/
inductive DeletesOwned (C : Calls) (callee : Callee) : (ids : List Int) → (s : Store) →
    (deleted : List Int) → (s' : Store) → Prop
  | idle {s : Store} : DeletesOwned C callee [] s [] s
  | call {ids deleted : List Int} {s s' : Store}
      (run : C callee.function ids .fromOwner s deleted s') : DeletesOwned C callee ids s deleted s'

/-- Rows that pass a test are taken note of, and cut off if so wanted. -/
structure Store.Takes (s : Store) (t : TableName) (column : String) (test : Row → Bool)
    (detach : Bool) (rows : List Row) (s' : Store) : Prop where
  rows : rows = (s.rows t).filter test
  store : s' = if detach = true then s.clearWhere t column test else s

/-- Subtypes are called one after the other, each with ids of the batch.
Some of the ids that a call reports are noted. -/
inductive Dispatches (C : Calls) (callees : List Callee) (batch : List Int) :
    (noted : List Int) → (s : Store) → (noted' : List Int) → (s' : Store) → Prop
  | done {noted : List Int} {s : Store} : Dispatches C callees batch noted s noted s
  | call {c : Callee} {ids deleted new noted noted' : List Int} {s s₁ s' : Store}
      (callee : c ∈ callees) (ids_subset : ids ⊆ batch)
      (run : C c.function ids .fromParent s deleted s₁)
      (reported : ∀ id ∈ new, id ∈ batch ∧ id ∈ deleted)
      (rest : Dispatches C callees batch (noted ++ new) s₁ noted' s') :
      Dispatches C callees batch noted s noted' s'

theorem Dispatches.trans {C : Calls} {callees : List Callee} {batch noted noted' noted'' : List Int}
    {s s' s'' : Store} (h : Dispatches C callees batch noted s noted' s')
    (h' : Dispatches C callees batch noted' s' noted'' s'') :
    Dispatches C callees batch noted s noted'' s'' := by
  induction h with
  | done => exact h'
  | call callee ids_subset run reported _ ih => exact .call callee ids_subset run reported (ih h')

/-- A row of the function's own table that is part of a row of the batch. -/
def DeleteFunction.isPart (f : DeleteFunction) (batch : List Int) (column : String) (r : Row) :
    Bool :=
  pointsInto batch column r && r.get? column != r.get? f.keyColumn

/-- **What a block does** to the frame and to the store. -/
inductive Block.Runs (C : Calls) (f : DeleteFunction) (batch : List Int) (caller : Caller) :
    Block Callee → Frame → Store → Frame → Store → Prop
  | selfParts {b : SelfParts Callee} {frame : Frame} {s s₁ s' : Store} {parts : List Row}
      {deleted : List Int}
      (take : s.Takes f.table b.column (f.isPart batch b.column) b.detach parts s₁)
      (call : DeletesOwned C b.callee (parts.filterMap (·.get? f.keyColumn)) s₁ deleted s') :
      Runs C f batch caller (.selfParts b) frame s
        { frame with deletedParts := frame.deletedParts ++ deleted } s'
  | childCascade {b : ChildCascade Callee} {frame : Frame} {s s₁ s' : Store} {children : List Row}
      {deleted : List Int}
      (take : s.Takes b.child b.column (pointsInto batch b.column) b.detach children s₁)
      (call : DeletesOwned C b.callee (s₁.unowned b.child b.childKey b.ownerCheck
        (children.filterMap (·.get? b.childKey))) s₁ deleted s') :
      Runs C f batch caller (.childCascade b) frame s frame s'
  | bridgeOnly {b : BridgeCascade Callee} {frame : Frame} {s s' : Store} {links : List Row}
      (remove : s.deleteWhere b.bridge (pointsInto batch b.nearColumn) = .ok (links, s'))
      (callee : b.callee = none) : Runs C f batch caller (.bridgeCascade b) frame s frame s'
  | bridgeCascade {b : BridgeCascade Callee} {frame : Frame} {s s₁ s' : Store} {links : List Row}
      {deleted : List Int} {c : Callee}
      (remove : s.deleteWhere b.bridge (pointsInto batch b.nearColumn) = .ok (links, s₁))
      (callee : b.callee = some c)
      (call : DeletesOwned C c (s₁.unowned b.target b.targetKey b.ownerCheck
        (links.filterMap (·.get? b.farColumn))) s₁ deleted s') :
      Runs C f batch caller (.bridgeCascade b) frame s frame s'
  | subtypeDispatch {b : SubtypeDispatch Callee} {frame : Frame} {s s' : Store} {noted : List Int}
      (calls : Dispatches C (Block.subtypeDispatch b).callees batch frame.deleted s noted s') :
      Runs C f batch caller (.subtypeDispatch b) frame s { frame with deleted := noted } s'
  | localDelete {captured : List String} {frame : Frame} {s s' : Store} {rows : List Row}
      (remove : s.deleteWhere f.table (pointsInto batch f.keyColumn) = .ok (rows, s')) :
      Runs C f batch caller (.localDelete captured) frame s
        { frame with
          deleted := frame.deleted ++ rows.filterMap (·.get? f.keyColumn)
          captured := captured.map fun column => ascending (rows.filterMap (·.get? column)) } s'
  | referencedCleanup {b : ReferencedCleanup Callee} {frame : Frame} {s s' : Store}
      {deleted : List Int}
      (call : DeletesOwned C b.callee (s.unowned b.target b.targetKey b.ownerCheck
        ((frame.captured[b.slot]?).getD [])) s deleted s') :
      Runs C f batch caller (.referencedCleanup b) frame s frame s'
  | noParent {callee : Callee} {frame : Frame} {s : Store}
      (idle : caller.skipsParent = true ∨ frame.deleted = []) :
      Runs C f batch caller (.parentCascade callee) frame s frame s
  | parentCascade {callee : Callee} {frame : Frame} {s s' : Store} {deleted : List Int}
      (calls : caller.skipsParent = false)
      (run : C callee.function frame.deleted .fromSubtype s deleted s') :
      Runs C f batch caller (.parentCascade callee) frame s frame s'

/-- **What blocks do one after the other.** -/
inductive Block.RunsAll (C : Calls) (f : DeleteFunction) (batch : List Int) (caller : Caller) :
    List (Block Callee) → Frame → Store → Frame → Store → Prop
  | nil {frame : Frame} {s : Store} : RunsAll C f batch caller [] frame s frame s
  | cons {b : Block Callee} {rest : List (Block Callee)} {frame frame₁ frame' : Frame}
      {s s₁ s' : Store} (first : b.Runs C f batch caller frame s frame₁ s₁)
      (others : RunsAll C f batch caller rest frame₁ s₁ frame' s') :
      RunsAll C f batch caller (b :: rest) frame s frame' s'

/-- **What a function does** with a batch. -/
inductive DeleteFunction.Runs (C : Calls) (f : DeleteFunction) (batch : List Int)
    (caller : Caller) (s : Store) : List Int → Store → Prop
  | idle (empty : batch = []) : Runs C f batch caller s [] s
  | body {frame : Frame} {s' : Store}
      (run : Block.RunsAll C f batch caller f.blocks .empty s frame s') :
      Runs C f batch caller s frame.result s'

section Courses

variable {call : CallFunction} {f : DeleteFunction} {batch : List Int} {caller : Caller}
variable {frame frame' : Frame} {s s' : Store}

theorem deletesOwned_of_yields {callee : Callee} {ids deleted : List Int}
    (h : (deleteOwned call callee ids).Yields s deleted s') :
    DeletesOwned call.calls callee ids s deleted s' := by
  unfold deleteOwned at h
  split at h
  · rename_i hnone
    obtain ⟨rfl, rfl⟩ := Run.yields_pure h
    rw [List.isEmpty_iff.1 hnone]
    exact .idle
  · exact .call h

theorem takes_of_statement {t : TableName} {column : String} {test : Row → Bool} {rows : List Row}
    (h : (Run.statement (·.setNullWhere t column test)).Yields s rows s') :
    s.Takes t column test true rows s' := by
  obtain ⟨rfl, rfl⟩ := Store.setNullWhere_eq_ok (Run.yields_statement h)
  exact ⟨rfl, rfl⟩

theorem takes_of_query {t : TableName} {column : String} {test : Row → Bool} {rows : List Row}
    (h : (Run.query (·.select t test)).Yields s rows s') : s.Takes t column test false rows s' := by
  obtain ⟨hselect, rfl⟩ := Run.yields_query h
  exact ⟨Store.select_eq_ok hselect, rfl⟩

namespace Block

theorem runs_selfParts {b : SelfParts Callee} (h : (b.run call f batch frame).Yields s frame' s') :
    (Block.selfParts b).Runs call.calls f batch caller frame s frame' s' := by
  unfold SelfParts.run at h
  dsimp only at h
  split at h
  · rename_i hdetach
    obtain ⟨parts, s₁, htake, h⟩ := Run.yields_bind h
    obtain ⟨deleted, s₂, hcall, h⟩ := Run.yields_bind h
    obtain ⟨rfl, rfl⟩ := Run.yields_pure h
    exact .selfParts (hdetach ▸ takes_of_statement htake) (deletesOwned_of_yields hcall)
  · rename_i hdetach
    obtain ⟨parts, s₁, htake, h⟩ := Run.yields_bind h
    obtain ⟨deleted, s₂, hcall, h⟩ := Run.yields_bind h
    obtain ⟨rfl, rfl⟩ := Run.yields_pure h
    rw [Bool.not_eq_true] at hdetach
    exact .selfParts (hdetach ▸ takes_of_query htake) (deletesOwned_of_yields hcall)

theorem runs_childCascade {b : ChildCascade Callee}
    (h : (b.run call batch frame).Yields s frame' s') :
    (Block.childCascade b).Runs call.calls f batch caller frame s frame' s' := by
  unfold ChildCascade.run at h
  obtain ⟨children, s₁, htake, h⟩ := Run.yields_bind h
  obtain ⟨hchildren, rfl⟩ := Run.yields_query htake
  have hrows := Store.select_eq_ok hchildren
  dsimp only at h
  split at h
  · rename_i hdetach
    obtain ⟨cleared, s₂, hclear, h⟩ := Run.yields_bind h
    obtain ⟨ids, s₃, hids, h⟩ := Run.yields_bind h
    obtain ⟨rfl, rfl⟩ := Run.yields_stillUnowned hids
    obtain ⟨deleted, s₄, hcall, h⟩ := Run.yields_bind h
    obtain ⟨rfl, rfl⟩ := Run.yields_pure h
    obtain ⟨-, rfl⟩ := Store.setNullWhere_eq_ok (Run.yields_statement hclear)
    exact .childCascade ⟨hrows, by rw [if_pos hdetach]⟩ (deletesOwned_of_yields hcall)
  · rename_i hdetach
    obtain ⟨ids, s₂, hids, h⟩ := Run.yields_bind h
    obtain ⟨rfl, rfl⟩ := Run.yields_stillUnowned hids
    obtain ⟨deleted, s₃, hcall, h⟩ := Run.yields_bind h
    obtain ⟨rfl, rfl⟩ := Run.yields_pure h
    exact .childCascade ⟨hrows, by rw [if_neg hdetach]⟩ (deletesOwned_of_yields hcall)

theorem runs_bridgeCascade {b : BridgeCascade Callee}
    (h : (b.run call batch frame).Yields s frame' s') :
    (Block.bridgeCascade b).Runs call.calls f batch caller frame s frame' s' := by
  unfold BridgeCascade.run at h
  obtain ⟨links, s₁, hremove, h⟩ := Run.yields_bind h
  have hremoved := Run.yields_statement hremove
  split at h
  · rename_i hcallee
    obtain ⟨rfl, rfl⟩ := Run.yields_pure h
    exact .bridgeOnly hremoved hcallee
  · rename_i c hcallee
    obtain ⟨ids, s₂, hids, h⟩ := Run.yields_bind h
    obtain ⟨rfl, rfl⟩ := Run.yields_stillUnowned hids
    obtain ⟨deleted, s₃, hcall, h⟩ := Run.yields_bind h
    obtain ⟨rfl, rfl⟩ := Run.yields_pure h
    exact .bridgeCascade hremoved hcallee (deletesOwned_of_yields hcall)

/-- One typed subtype is called for one id, or none is. -/
theorem dispatches_runTyped {b : SubtypeDispatch Callee} {d : Discriminator} {id : Int}
    (hid : id ∈ batch) (h : (b.runTyped call d frame id).Yields s frame' s') :
    ∃ noted, frame' = { frame with deleted := noted } ∧
      Dispatches call.calls (Block.subtypeDispatch b).callees batch frame.deleted s noted s' := by
  unfold SubtypeDispatch.runTyped at h
  obtain ⟨rows, s₁, hquery, h⟩ := Run.yields_bind h
  obtain ⟨-, rfl⟩ := Run.yields_query hquery
  split at h
  · obtain ⟨rfl, rfl⟩ := Run.yields_pure h
    exact ⟨_, rfl, .done⟩
  · split at h
    · obtain ⟨rfl, rfl⟩ := Run.yields_pure h
      exact ⟨_, rfl, .done⟩
    · rename_i subtype hfind
      obtain ⟨deleted, s₂, hcall, h⟩ := Run.yields_bind h
      obtain ⟨rfl, rfl⟩ := Run.yields_pure h
      have hcallee : subtype.callee ∈ (Block.subtypeDispatch b).callees :=
        List.mem_append_left _ (List.mem_map.2 ⟨_, List.mem_of_find?_eq_some hfind, rfl⟩)
      split
      · rename_i hreported
        refine ⟨_, rfl, .call hcallee (by simpa using hid) hcall (fun i hi => ?_) .done⟩
        obtain rfl := List.mem_singleton.1 hi
        exact ⟨hid, by simpa using hreported⟩
      · have hnone : ∀ i ∈ ([] : List Int), i ∈ batch ∧ i ∈ deleted := by simp
        refine ⟨_, rfl, .call hcallee (by simpa using hid) hcall hnone ?_⟩
        rw [List.append_nil]
        exact .done

/-- The typed subtypes are called for one id of the batch after the other. -/
theorem dispatches_typed {b : SubtypeDispatch Callee} {d : Discriminator} {ids : List Int}
    (hids : ids ⊆ batch) (h : (ids.foldlM (b.runTyped call d) frame).Yields s frame' s') :
    ∃ noted, frame' = { frame with deleted := noted } ∧
      Dispatches call.calls (Block.subtypeDispatch b).callees batch frame.deleted s noted s' := by
  have hchain := Run.foldlM_yields (P := fun ids fr st => ids ⊆ batch ∧
      ∃ noted, fr = { frame with deleted := noted } ∧
        Dispatches call.calls (Block.subtypeDispatch b).callees batch frame.deleted s noted st)
    (fun {id rest fr st fr' st'} hP hstep => by
      obtain ⟨hsub, noted, rfl, hsofar⟩ := hP
      obtain ⟨hid, hrest⟩ := List.cons_subset.1 hsub
      obtain ⟨noted', rfl, hnext⟩ := dispatches_runTyped hid hstep
      exact ⟨hrest, noted', rfl, hsofar.trans hnext⟩)
    ⟨hids, frame.deleted, rfl, .done⟩ h
  exact hchain.2

/-- The subtypes without classes are called with the whole batch. -/
theorem dispatches_hooks {b : SubtypeDispatch Callee} {noted : List Int} {hooks : List Callee}
    (hhooks : hooks ⊆ b.hooks) {u : Unit} (h : (hooks.forM fun hook => do
      let _ ← call hook.function batch .fromParent : Run Unit).Yields s u s') :
    Dispatches call.calls (Block.subtypeDispatch b).callees batch noted s noted s' := by
  induction hooks generalizing s with
  | nil =>
    obtain ⟨-, rfl⟩ := Run.yields_pure h
    exact .done
  | cons hook hooks ih =>
    change ((do let _ ← call hook.function batch .fromParent) >>= fun _ =>
      hooks.forM fun hook => do let _ ← call hook.function batch .fromParent).Yields s u s' at h
    obtain ⟨u₁, s₁, hfirst, hrest⟩ := Run.yields_bind h
    obtain ⟨deleted, s₂, hcall, hpure⟩ := Run.yields_bind hfirst
    obtain ⟨-, rfl⟩ := Run.yields_pure hpure
    obtain ⟨hhook, hhooks⟩ := List.cons_subset.1 hhooks
    have hnone : ∀ i ∈ ([] : List Int), i ∈ batch ∧ i ∈ deleted := by simp
    refine .call (List.mem_append_right _ hhook) (fun _ hi => hi) hcall hnone ?_
    rw [List.append_nil]
    exact ih hhooks hrest

theorem runs_subtypeDispatch {b : SubtypeDispatch Callee}
    (h : (b.run call batch caller frame).Yields s frame' s') :
    (Block.subtypeDispatch b).Runs call.calls f batch caller frame s frame' s' := by
  unfold SubtypeDispatch.run at h
  have hfinish {frame₁ : Frame} {s₁ : Store} {noted : List Int}
      (hframe : frame₁ = { frame with deleted := noted })
      (htyped : Dispatches call.calls (Block.subtypeDispatch b).callees batch frame.deleted s noted s₁)
      (h : (do
        b.hooks.forM fun hook => do
          let _ ← call hook.function batch .fromParent
        return frame₁ : Run Frame).Yields s₁ frame' s') :
      (Block.subtypeDispatch b).Runs call.calls f batch caller frame s frame' s' := by
    obtain ⟨u, s₂, hhooks, hpure⟩ := Run.yields_bind h
    obtain ⟨rfl, rfl⟩ := Run.yields_pure hpure
    subst hframe
    exact .subtypeDispatch (htyped.trans (dispatches_hooks (fun _ hi => hi) hhooks))
  dsimp only at h
  split at h
  · rename_i d hd
    split at h
    · obtain ⟨frame₁, s₁, hfirst, h⟩ := Run.yields_bind h
      obtain ⟨rfl, rfl⟩ := Run.yields_pure hfirst
      exact hfinish rfl .done h
    · obtain ⟨frame₁, s₁, hfirst, h⟩ := Run.yields_bind h
      obtain ⟨noted, hframe, htyped⟩ := dispatches_typed (fun _ hi => hi) hfirst
      exact hfinish hframe htyped h
  · obtain ⟨frame₁, s₁, hfirst, h⟩ := Run.yields_bind h
    obtain ⟨rfl, rfl⟩ := Run.yields_pure hfirst
    exact hfinish rfl .done h

theorem runs_localDelete {captured : List String}
    (h : (runLocalDelete captured f batch frame).Yields s frame' s') :
    (Block.localDelete captured).Runs call.calls f batch caller frame s frame' s' := by
  unfold runLocalDelete at h
  obtain ⟨rows, s₁, hremove, h⟩ := Run.yields_bind h
  obtain ⟨rfl, rfl⟩ := Run.yields_pure h
  exact .localDelete (Run.yields_statement hremove)

theorem runs_referencedCleanup {b : ReferencedCleanup Callee}
    (h : (b.run call frame).Yields s frame' s') :
    (Block.referencedCleanup b).Runs call.calls f batch caller frame s frame' s' := by
  unfold ReferencedCleanup.run at h
  obtain ⟨ids, s₁, hids, h⟩ := Run.yields_bind h
  obtain ⟨rfl, rfl⟩ := Run.yields_stillUnowned hids
  obtain ⟨deleted, s₂, hcall, h⟩ := Run.yields_bind h
  obtain ⟨rfl, rfl⟩ := Run.yields_pure h
  exact .referencedCleanup (deletesOwned_of_yields hcall)

theorem runs_parentCascade {callee : Callee}
    (h : (runParentCascade callee call caller frame).Yields s frame' s') :
    (Block.parentCascade callee).Runs call.calls f batch caller frame s frame' s' := by
  unfold runParentCascade at h
  dsimp only at h
  split at h
  · rename_i hidle
    obtain ⟨rfl, rfl⟩ := Run.yields_pure h
    simp only [Bool.or_eq_true, List.isEmpty_iff] at hidle
    exact .noParent hidle
  · rename_i hcalls
    simp only [Bool.or_eq_true, not_or, Bool.not_eq_true] at hcalls
    obtain ⟨deleted, s₁, hcall, h⟩ := Run.yields_bind h
    obtain ⟨rfl, rfl⟩ := Run.yields_pure h
    exact .parentCascade hcalls.1 hcall

/-- **A block that was carried out took one of its courses.** -/
theorem runs_of_yields {b : Block Callee}
    (h : (b.run call f batch caller frame).Yields s frame' s') :
    b.Runs call.calls f batch caller frame s frame' s' := by
  cases b with
  | selfParts b => exact runs_selfParts h
  | childCascade b => exact runs_childCascade h
  | bridgeCascade b => exact runs_bridgeCascade h
  | subtypeDispatch b => exact runs_subtypeDispatch h
  | localDelete captured => exact runs_localDelete h
  | referencedCleanup b => exact runs_referencedCleanup h
  | parentCascade callee => exact runs_parentCascade h

theorem runsAll_of_yields {bs : List (Block Callee)}
    (h : (bs.foldlM (fun frame (b : Block Callee) => b.run call f batch caller frame) frame).Yields s frame' s') :
    RunsAll call.calls f batch caller bs frame s frame' s' := by
  induction bs generalizing frame s with
  | nil =>
    rw [List.foldlM_nil] at h
    obtain ⟨rfl, rfl⟩ := Run.yields_pure h
    exact .nil
  | cons b bs ih =>
    rw [List.foldlM_cons] at h
    obtain ⟨frame₁, s₁, hfirst, hrest⟩ := Run.yields_bind h
    exact .cons (runs_of_yields hfirst) (ih hrest)

/-- Blocks in two lists are carried out list by list. -/
theorem RunsAll.append {C : Calls} {front back : List (Block Callee)}
    (h : RunsAll C f batch caller (front ++ back) frame s frame' s') :
    ∃ frame₁ s₁, RunsAll C f batch caller front frame s frame₁ s₁ ∧
      RunsAll C f batch caller back frame₁ s₁ frame' s' := by
  induction front generalizing frame s with
  | nil => exact ⟨frame, s, .nil, h⟩
  | cons b front ih =>
    cases h with
    | cons first others =>
      obtain ⟨frame₁, s₁, hfront, hback⟩ := ih others
      exact ⟨frame₁, s₁, .cons first hfront, hback⟩

end Block

end Courses

/-! ## Calls -/

namespace Program

variable {p : Program} {name : String} {ids deleted : List Int} {caller : Caller} {s s' : Store}

/-- A call of a function that there is has nothing to do, or carries out the
function's blocks. -/
theorem call_succ_yields {deeper : Nat} {f : DeleteFunction} (hf : p.lookup name = some f)
    (h : (p.call (deeper + 1) name ids caller).Yields s deleted s') :
    (ascending ids = [] ∧ deleted = [] ∧ s' = s) ∨ ∃ frame : Frame,
      (f.blocks.foldlM (fun frame (b : Block Callee) =>
        b.run (p.call deeper) f (ascending ids) caller frame) .empty).Yields s frame s' ∧
      deleted = frame.result := by
  unfold call at h
  rw [hf] at h
  dsimp only at h
  obtain ⟨u, s₁, henter, h⟩ := Run.yields_bind h
  obtain rfl := Run.yields_enter henter
  split at h
  · rename_i hempty
    obtain ⟨rfl, rfl⟩ := Run.yields_pure h
    exact Or.inl ⟨List.isEmpty_iff.1 hempty, rfl, rfl⟩
  · obtain ⟨frame, s₂, hblocks, h⟩ := Run.yields_bind h
    obtain ⟨rfl, rfl⟩ := Run.yields_pure h
    exact Or.inr ⟨frame, hblocks, rfl⟩

/-- A call that succeeds runs the function of its name. -/
theorem call_yields {levels : Nat} (h : (p.call levels name ids caller).Yields s deleted s') :
    ∃ deeper f, levels = deeper + 1 ∧ p.lookup name = some f ∧
      f.Runs (CallFunction.calls (p.call deeper)) (ascending ids) caller s deleted s' := by
  cases levels with
  | zero =>
    obtain ⟨trace, trace', h⟩ := h
    cases h
  | succ deeper =>
    cases hf : p.lookup name with
    | none =>
      unfold call at h
      rw [hf] at h
      obtain ⟨trace, trace', h⟩ := h
      cases h
    | some f =>
      refine ⟨deeper, f, rfl, rfl, ?_⟩
      rcases call_succ_yields hf h with ⟨hempty, rfl, rfl⟩ | ⟨frame, hblocks, rfl⟩
      · exact .idle hempty
      · exact .body (Block.runsAll_of_yields hblocks)

/-- **What each function does if the functions it calls do it, all calls
do.** -/
theorem call_induction {S : DeleteFunction → List Int → Caller → Store → List Int → Store → Prop}
    (step : ∀ {deeper name f}, p.lookup name = some f →
      (∀ {n ids caller s deleted s'}, (p.call deeper n ids caller).Yields s deleted s' →
        ∃ g, p.lookup n = some g ∧ S g ids caller s deleted s') →
      ∀ {ids caller s deleted s'},
        f.Runs (CallFunction.calls (p.call deeper)) (ascending ids) caller s deleted s' →
        S f ids caller s deleted s')
    {levels : Nat} (h : (p.call levels name ids caller).Yields s deleted s') :
    ∃ f, p.lookup name = some f ∧ S f ids caller s deleted s' := by
  induction levels generalizing name ids caller s deleted s' with
  | zero =>
    obtain ⟨deeper, f, hlevels, -⟩ := call_yields h
    cases hlevels
  | succ levels ih =>
    obtain ⟨deeper, f, hlevels, hf, hrun⟩ := call_yields h
    cases hlevels
    exact ⟨f, hf, step hf ih hrun⟩

/-- A client's call that succeeds is a call that succeeds. -/
theorem yields_of_delete (h : (p.delete s name ids).result = .ok deleted) :
    (p.call (p.maxDepth + 1) name ids .external).Yields s deleted (p.delete s name ids).store := by
  unfold delete at h ⊢
  split at h
  · rename_i deleted' st hcall
    cases h
    exact ⟨[], st.trace, by rw [hcall]⟩
  · cases h

end Program

end DeleteCascade
