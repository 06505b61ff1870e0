import DeleteCascade.Proofs.Deletion.Keeps
import DeleteCascade.Proofs.Deletion.Ownership
import DeleteCascade.Proofs.Synthesis.Cycles
/-!
# Deletion — which call reports a row

A call reports the rows that its own statement deleted, and those that the
subtypes reported to it. A row of its batch may be gone by then: where rows
own each other, a call of the same function further down was asked for it
first, and what that one reports is dropped on the way. So a row that goes
is reported, or such a call is on the trace (`Setting.delete_reports`). The
run that only appends to the trace `Accounts` for the rows of one table;
each block does (`Block.accounts`), the deletion of the batch with what the
frame has gathered, and so does a whole call (`Program.call_accounts`).
-/

namespace DeleteCascade

/-- **Only statements take rows from the table**: none of its foreign keys
deletes its rows or makes their key NULL. -/
def Schema.HoldsRows (g : Schema) (t : TableName) : Prop :=
  ∀ fk ∈ g.foreignKeys, fk.source.same t → fk.onDelete ≠ .cascade ∧
    ∀ c p k, fk.onDelete = .setNull → fk.columns? = some (c, p) → g.key? t = some k →
      sameName c k = false

/-! ## Statements -/

namespace Store.HasRow

variable {s s' : Store} {t u : TableName} {c : String} {v : Int} {test : Row → Bool}
variable {removed : List Row}

theorem clearWhere (h : s.HasRow t v) (hkey : u.same t → ∀ k, s.schema.key? t = some k →
      ∀ r ∈ s.rows t, test r = true → sameName c k = false) :
    (s.clearWhere u c test).HasRow t v := by
  obtain ⟨k, hk, r, hr, hv⟩ := h
  by_cases hu : u.same t
  · refine ⟨k, hk, if test r = true then r.clear c else r, ?_, ?_⟩
    · rw [rows_clearWhere, if_pos hu]
      exact List.mem_map_of_mem hr
    · split
      · rename_i htest
        rw [Row.get?_clear, hkey hu k hk r hr htest]
        exact hv
      · exact hv
  · refine ⟨k, hk, r, ?_, hv⟩
    rw [rows_clearWhere, if_neg hu]
    exact hr

theorem removeRows (h : s.HasRow t v) (u : TableName) (test : Row → Bool) :
    (s.removeRows u test).HasRow t v ∨
      (u.same t ∧ ∃ k, s.schema.key? t = some k ∧
        ∃ r ∈ (s.rows u).filter test, r.get? k = some v) := by
  obtain ⟨k, hk, r, hr, hv⟩ := h
  by_cases hu : u.same t
  · by_cases htest : test r = true
    · exact Or.inr ⟨hu, k, hk, r, List.mem_filter.2 ⟨by rwa [rows_congr s hu], htest⟩, hv⟩
    · refine Or.inl ⟨k, hk, r, ?_, hv⟩
      rw [rows_removeRows, if_pos hu]
      exact List.mem_filter.2 ⟨hr, by simpa using htest⟩
  · refine Or.inl ⟨k, hk, r, ?_, hv⟩
    rw [rows_removeRows, if_neg hu]
    exact hr

/-- Enforcement takes no row from a table that holds its rows. -/
theorem enforce (h : s.HasRow t v) (ht : s.schema.HoldsRows t) {pending : List Enforcement}
    (hpending : ∀ e ∈ pending, e.foreignKey ∈ s.schema.foreignKeys ∧
      ∃ p, e.foreignKey.columns? = some (e.column, p))
    (henforce : s.enforce pending = .ok s') : s'.HasRow t v := by
  refine (enforce_keeps (P := fun s' => s'.schema = s.schema ∧ s'.HasRow t v) (Q := fun e =>
    e.foreignKey ∈ s.schema.foreignKeys ∧ ∃ p, e.foreignKey.columns? = some (e.column, p))
    ?_ ?_ s pending hpending ⟨rfl, h⟩ henforce).2
  · rintro s₁ e ⟨hfk, -⟩ hact ⟨hs₁, h₁⟩
    refine ⟨⟨hs₁, ?_⟩, fun removed e' he' => ?_⟩
    · refine (h₁.removeRows _ _).resolve_right fun ⟨hsame, _⟩ => ?_
      exact (ht _ hfk hsame).1 hact
    · obtain ⟨fk, hfk, c, p, hcols, -, rfl⟩ := mem_enforcements.1 he'
      rw [hs₁] at hfk
      exact ⟨(Schema.mem_foreignKeysTo.1 hfk).1, p, hcols⟩
  · rintro s₁ e touched ⟨hfk, p, hcols⟩ hact - ⟨hs₁, h₁⟩
    refine ⟨hs₁, h₁.clearWhere fun hsame k hk _ _ _ => ?_⟩
    rw [hs₁] at hk
    exact (ht _ hfk hsame).2 _ p k hact hcols hk

/-- A row is deleted only by a statement on its table. -/
theorem deleteWhere (h : s.HasRow t v) (ht : s.schema.HoldsRows t)
    (hdelete : s.deleteWhere u test = .ok (removed, s')) :
    s'.HasRow t v ∨
      (u.same t ∧ ∃ k, s.schema.key? t = some k ∧ ∃ r ∈ removed, r.get? k = some v) := by
  obtain ⟨rfl, henforce⟩ := deleteWhere_eq_ok hdelete
  refine (h.removeRows u test).imp_left fun h₁ => h₁.enforce ht (fun e he => ?_) henforce
  obtain ⟨fk, hfk, c, p, hcols, -, rfl⟩ := mem_enforcements.1 he
  exact ⟨(Schema.mem_foreignKeysTo.1 hfk).1, p, hcols⟩

end Store.HasRow

/-! ## Rows accounted for -/

/-- **What became of the rows of a table** during a run: a row that is gone
is known, or a call of the function has been asked for it. -/
structure RunState.Accounts (t : TableName) (name : String) (known : Int → Prop)
    (st st' : RunState) : Prop where
  schema : st'.store.schema = st.store.schema
  rows : ∃ calls, st'.trace = st.trace ++ calls ∧ ∀ v, st.store.HasRow t v →
    st'.store.HasRow t v ∨ known v ∨ ∃ call ∈ calls, call.function = name ∧ v ∈ call.ids

namespace RunState.Accounts

variable {t : TableName} {name : String} {known known' : Int → Prop} {st st' st'' : RunState}

theorem refl (st : RunState) : st.Accounts t name known st :=
  ⟨rfl, [], by simp, fun _ h => Or.inl h⟩

theorem mono (h : st.Accounts t name known st') (hknown : ∀ v, known v → known' v) :
    st.Accounts t name known' st' := by
  obtain ⟨calls, htrace, hrows⟩ := h.rows
  exact ⟨h.schema, calls, htrace, fun v hv => (hrows v hv).imp_right (.imp_left (hknown v))⟩

theorem trans (h : st.Accounts t name known st') (h' : st'.Accounts t name known st'') :
    st.Accounts t name known st'' := by
  obtain ⟨calls, htrace, hrows⟩ := h.rows
  obtain ⟨calls', htrace', hrows'⟩ := h'.rows
  refine ⟨h'.schema.trans h.schema, calls ++ calls', by rw [htrace', htrace, List.append_assoc],
    fun v hv => ?_⟩
  rcases hrows v hv with hv' | hknown | ⟨call, hcall, hasked⟩
  · rcases hrows' v hv' with hv'' | hknown | ⟨call, hcall, hasked⟩
    · exact Or.inl hv''
    · exact Or.inr (Or.inl hknown)
    · exact Or.inr (Or.inr ⟨call, List.mem_append_right _ hcall, hasked⟩)
  · exact Or.inr (Or.inl hknown)
  · exact Or.inr (Or.inr ⟨call, List.mem_append_left _ hcall, hasked⟩)

/-- What a noted call was asked for need not be known. -/
theorem enter {call : CallRecord}
    (h : RunState.Accounts t name known ⟨st.store, st.trace ++ [call]⟩ st')
    (hasked : ∀ v, known v → call.function = name ∧ v ∈ call.ids) :
    st.Accounts t name (fun _ => False) st' := by
  obtain ⟨calls, htrace, hrows⟩ := h.rows
  refine ⟨h.schema, call :: calls, by simpa using htrace, fun v hv => ?_⟩
  rcases hrows v hv with hv' | hknown | ⟨call', hcall', hasked'⟩
  · exact Or.inl hv'
  · exact Or.inr (Or.inr ⟨call, by simp, hasked v hknown⟩)
  · exact Or.inr (Or.inr ⟨call', by simp [hcall'], hasked'⟩)

end RunState.Accounts

namespace Run

variable {α β : Type} {g : Schema} {t : TableName} {name : String} {m : Run α}

/-- **A run accounts for the rows of a table**: where it succeeds, a call of
the function was asked for each row that is gone. -/
def Accounts (g : Schema) (t : TableName) (name : String) (m : Run α) : Prop :=
  ∀ st a st', st.store.schema = g → m st = .ok a st' → st.Accounts t name (fun _ => False) st'

theorem accounts_pure (a : α) : (pure a : Run α).Accounts g t name := by
  intro st _ st' _ h
  cases h
  exact .refl st

theorem accounts_bind {f : α → Run β} (hm : m.Accounts g t name)
    (hf : ∀ a, (f a).Accounts g t name) : (m >>= f).Accounts g t name := by
  intro st b st'' hst h
  change EStateM.bind m f st = _ at h
  unfold EStateM.bind at h
  split at h
  · rename_i a st' hma
    have hfirst := hm st a st' hst hma
    exact hfirst.trans (hf a st' b st'' (hfirst.schema.trans hst) h)
  · cases h

/-- A statement accounts for the rows if it takes none. -/
theorem accounts_statement {change : Store → Except StoreError (α × Store)}
    (hkeeps : ∀ s a s', s.schema = g → change s = .ok (a, s') →
      s'.schema = s.schema ∧ ∀ v, s.HasRow t v → s'.HasRow t v) :
    (statement change).Accounts g t name := by
  intro st a st' hst h
  unfold statement at h
  split at h
  · rename_i hchange
    cases h
    obtain ⟨hschema, hrows⟩ := hkeeps _ _ _ hst hchange
    exact ⟨hschema, [], by simp, fun v hv => Or.inl (hrows v hv)⟩
  · cases h

theorem accounts_query (read : Store → Except StoreError α) :
    (query read).Accounts g t name := by
  intro st a st' _ h
  unfold query at h
  split at h
  · cases h
    exact .refl st
  · cases h

theorem accounts_stillUnowned (u : TableName) (key : String) (owners : Option (List Owner))
    (ids : List Int) : (stillUnowned u key owners ids).Accounts g t name := by
  intro st a st' _ h
  cases h
  exact .refl st

theorem accounts_foldlM {step : β → α → Run β} (hstep : ∀ b a, (step b a).Accounts g t name)
    (l : List α) (b : β) : (l.foldlM step b).Accounts g t name := by
  induction l generalizing b with
  | nil => exact accounts_pure b
  | cons a l ih =>
    rw [List.foldlM_cons]
    exact accounts_bind (hstep b a) fun b' => ih b'

end Run

/-! ## Blocks -/

theorem Dispatches.subset {C : Calls} {callees : List Callee} {batch noted noted' : List Int}
    {s s' : Store} (h : Dispatches C callees batch noted s noted' s') : noted ⊆ noted' := by
  induction h with
  | done => exact fun _ h => h
  | call _ _ _ _ _ ih => exact fun _ h => ih (List.mem_append_left _ h)

section Blocks

variable {σ : Setting} {t : TableName} {name : String} {call : CallFunction}
variable {f : DeleteFunction} {batch : List Int} {caller : Caller} {frame frame' : Frame}
variable {notes captured : List String}

/-- Making a column NULL that is not the key takes no row. -/
theorem accounts_setNullWhere {u : TableName} {c k : String} {test : Row → Bool}
    (hk : σ.schema.key? u = some k) (hkey : ∀ r, test r = true → sameName c k = false) :
    (Run.statement (·.setNullWhere u c test)).Accounts σ.schema t name := by
  refine Run.accounts_statement fun s rows s' hs h => ?_
  obtain ⟨-, rfl⟩ := Store.setNullWhere_eq_ok h
  refine ⟨rfl, fun v hv => hv.clearWhere fun hsame l hl r _ htest => ?_⟩
  rw [hs, ← Schema.key?_congr hsame, hk] at hl
  cases hl
  exact hkey r htest

/-- Deleting rows of another table takes none of this one. -/
theorem accounts_deleteWhere (ht : σ.schema.HoldsRows t) {u : TableName} {test : Row → Bool}
    (hother : u.same t = false) :
    (Run.statement (·.deleteWhere u test)).Accounts σ.schema t name := by
  refine Run.accounts_statement fun s rows s' hs h => ?_
  refine ⟨(Store.within_deleteWhere h).schema, fun v hv => ?_⟩
  refine (hv.deleteWhere (hs ▸ ht) h).resolve_right fun ⟨hsame, _⟩ => ?_
  rw [hother] at hsame
  cases hsame

variable (hcall : ∀ n ids caller, (call n ids caller).Accounts σ.schema t name)
include hcall

theorem accounts_deleteOwned (callee : Callee) (ids : List Int) :
    (deleteOwned call callee ids).Accounts σ.schema t name := by
  unfold deleteOwned
  split
  · exact Run.accounts_pure _
  · exact hcall _ _ _

namespace Block

theorem accounts_selfParts (b : SelfParts Callee) (hk : σ.schema.key? f.table = some f.keyColumn) :
    (b.run call f batch frame).Accounts σ.schema t name := by
  unfold SelfParts.run
  dsimp only
  split
  · exact Run.accounts_bind (accounts_setNullWhere hk fun r => f.isPart_key (r := r)) fun parts =>
      Run.accounts_bind (accounts_deleteOwned hcall _ _) fun deleted => Run.accounts_pure _
  · exact Run.accounts_bind (Run.accounts_query _) fun parts =>
      Run.accounts_bind (accounts_deleteOwned hcall _ _) fun deleted => Run.accounts_pure _

theorem accounts_childCascade (b : ChildCascade Callee) (hk : σ.schema.key? b.child = some b.childKey)
    (hkey : sameName b.childKey b.column = false) :
    (b.run call batch frame).Accounts σ.schema t name := by
  unfold ChildCascade.run
  refine Run.accounts_bind (Run.accounts_query _) fun children => ?_
  dsimp only
  have hrest : (do
      let ids ← stillUnowned b.child b.childKey b.ownerCheck (children.filterMap (·.get? b.childKey))
      let _ ← deleteOwned call b.callee ids
      return frame : Run Frame).Accounts σ.schema t name :=
    Run.accounts_bind (Run.accounts_stillUnowned _ _ _ _) fun ids =>
      Run.accounts_bind (accounts_deleteOwned hcall _ _) fun deleted => Run.accounts_pure _
  split
  · exact Run.accounts_bind (accounts_setNullWhere hk fun r _ => by rwa [sameName_comm]) fun _ => hrest
  · exact hrest

/-- A bridge has no key, so its links are rows of another table. -/
theorem accounts_bridgeCascade (b : BridgeCascade Callee) (ht : σ.schema.HoldsRows t)
    (hother : b.bridge.same t = false) : (b.run call batch frame).Accounts σ.schema t name := by
  unfold BridgeCascade.run
  refine Run.accounts_bind (accounts_deleteWhere ht hother) fun links => ?_
  split
  · exact Run.accounts_pure _
  · exact Run.accounts_bind (Run.accounts_stillUnowned _ _ _ _) fun ids =>
      Run.accounts_bind (accounts_deleteOwned hcall _ _) fun deleted => Run.accounts_pure _

theorem accounts_runTyped (b : SubtypeDispatch Callee) (d : Discriminator) (id : Int) :
    (b.runTyped call d frame id).Accounts σ.schema t name := by
  unfold SubtypeDispatch.runTyped
  refine Run.accounts_bind (Run.accounts_query _) fun rows => ?_
  split
  · exact Run.accounts_pure _
  · split
    · exact Run.accounts_pure _
    · exact Run.accounts_bind (hcall _ _ _) fun deleted => Run.accounts_pure _

theorem accounts_hooks (hooks : List Callee) : (hooks.forM fun hook => do
    let _ ← call hook.function batch .fromParent : Run Unit).Accounts σ.schema t name := by
  induction hooks with
  | nil => exact Run.accounts_pure ()
  | cons hook hooks ih =>
    exact Run.accounts_bind (Run.accounts_bind (hcall _ _ _) fun _ => Run.accounts_pure ()) fun _ => ih

theorem accounts_subtypeDispatch (b : SubtypeDispatch Callee) :
    (b.run call batch caller frame).Accounts σ.schema t name := by
  have hfinish (m : Run Frame) (hm : m.Accounts σ.schema t name) : (do
      let frame ← m
      b.hooks.forM fun hook => do
        let _ ← call hook.function batch .fromParent
      return frame : Run Frame).Accounts σ.schema t name :=
    Run.accounts_bind hm fun frame =>
      Run.accounts_bind (accounts_hooks hcall b.hooks) fun _ => Run.accounts_pure _
  unfold SubtypeDispatch.run
  dsimp only
  split
  · split
    · exact hfinish _ (Run.accounts_pure _)
    · exact hfinish _ (Run.accounts_foldlM (fun frame id => accounts_runTyped hcall b _ id) _ _)
  · exact hfinish _ (Run.accounts_pure _)

theorem accounts_referencedCleanup (b : ReferencedCleanup Callee) :
    (b.run call frame).Accounts σ.schema t name := by
  unfold ReferencedCleanup.run
  exact Run.accounts_bind (Run.accounts_stillUnowned _ _ _ _) fun ids =>
    Run.accounts_bind (accounts_deleteOwned hcall _ _) fun deleted => Run.accounts_pure _

theorem accounts_parentCascade (callee : Callee) :
    (runParentCascade callee call caller frame).Accounts σ.schema t name := by
  unfold runParentCascade
  dsimp only
  split
  · exact Run.accounts_pure _
  · exact Run.accounts_bind (hcall _ _ _) fun deleted => Run.accounts_pure _

omit hcall in
/-- The rows that a function deletes itself are those of its batch, and its
frame has them. -/
theorem accounts_localDelete (ht : σ.schema.HoldsRows t)
    (hk : σ.schema.key? f.table = some f.keyColumn) {st st' : RunState}
    (hst : st.store.schema = σ.schema)
    (h : runLocalDelete captured f batch frame st = .ok frame' st') :
    st.Accounts t name (fun v => f.table.same t ∧ v ∈ batch ∧ v ∈ frame'.deleted) st' := by
  change EStateM.bind _ _ st = _ at h
  unfold EStateM.bind Run.statement at h
  split at h
  · rename_i rows st₁ hstatement
    split at hstatement
    · rename_i hdelete
      cases hstatement
      cases h
      refine ⟨(Store.within_deleteWhere hdelete).schema, [], by simp, fun v hv => ?_⟩
      refine (hv.deleteWhere (hst ▸ ht) hdelete).imp_right fun ⟨hsame, k, hkt, r, hr, hrv⟩ => ?_
      rw [hst, ← Schema.key?_congr hsame, hk] at hkt
      cases hkt
      refine Or.inl ⟨hsame, ?_, ?_⟩
      · obtain ⟨rfl, -⟩ := Store.deleteWhere_eq_ok hdelete
        obtain ⟨w, hw, hrw⟩ := pointsInto_iff.1 (List.mem_filter.1 hr).2
        rw [hrv] at hrw
        cases hrw
        exact hw
      · exact List.mem_append_right _ (List.mem_filterMap.2 ⟨r, hr, hrv⟩)
    · cases hstatement
  · cases h

omit hcall in
theorem Runs.deleted_subset {C : Calls} {b : Block Callee} {s s' : Store}
    (h : b.Runs C f batch caller frame s frame' s') : frame.deleted ⊆ frame'.deleted := by
  cases h with
  | subtypeDispatch calls => exact calls.subset
  | localDelete => exact fun _ h => List.mem_append_left _ h
  | _ => exact fun _ h => h

/-- **A block accounts for the rows of a table**: what it takes itself is of
the batch and in the frame. -/
theorem accounts (ht : σ.schema.HoldsRows t) {k : String} (hkt : σ.schema.key? t = some k)
    (hk : σ.schema.key? f.table = some f.keyColumn) {b : Block Callee}
    (hplan : σ.Plans f.table (·.table) notes captured b) {st st' : RunState}
    (hst : st.store.schema = σ.schema)
    (h : b.run call f batch caller frame st = .ok frame' st') :
    st.Accounts t name (fun v => f.table.same t ∧ v ∈ batch ∧ v ∈ frame'.deleted) st' := by
  have hquiet (hb : (b.run call f batch caller frame).Accounts σ.schema t name) :
      st.Accounts t name (fun v => f.table.same t ∧ v ∈ batch ∧ v ∈ frame'.deleted) st' :=
    (hb st frame' st' hst h).mono fun _ hfalse => hfalse.elim
  cases b with
  | selfParts b => exact hquiet (accounts_selfParts hcall b hk)
  | childCascade b =>
    cases hplan with
    | childCascade link other key notKey => exact hquiet (accounts_childCascade hcall b key notKey)
  | bridgeCascade b =>
    cases hplan with
    | bridgeCascade isBridge table =>
      refine hquiet (accounts_bridgeCascade hcall b ht (Bool.eq_false_iff.2 fun hsame => ?_))
      have hnone := isBridge.key?_eq_none
      rw [← table, Schema.key?_congr hsame, hkt] at hnone
      cases hnone
  | subtypeDispatch b => exact hquiet (accounts_subtypeDispatch hcall b)
  | localDelete columns => exact accounts_localDelete ht hk hst h
  | referencedCleanup b => exact hquiet (accounts_referencedCleanup hcall b)
  | parentCascade callee => exact hquiet (accounts_parentCascade hcall callee)

/-- **So do blocks that are carried out one after the other.** -/
theorem accounts_all (ht : σ.schema.HoldsRows t) {k : String} (hkt : σ.schema.key? t = some k)
    (hk : σ.schema.key? f.table = some f.keyColumn) {bs : List (Block Callee)}
    (hplans : ∀ b ∈ bs, σ.Plans f.table (·.table) notes captured b) {st st' : RunState}
    (hst : st.store.schema = σ.schema)
    (h : bs.foldlM (fun frame (b : Block Callee) => b.run call f batch caller frame) frame st =
      .ok frame' st') :
    frame.deleted ⊆ frame'.deleted ∧
      st.Accounts t name (fun v => f.table.same t ∧ v ∈ batch ∧ v ∈ frame'.deleted) st' := by
  induction bs generalizing frame st with
  | nil =>
    cases h
    exact ⟨fun _ h => h, .refl _⟩
  | cons b bs ih =>
    rw [List.foldlM_cons] at h
    change EStateM.bind _ _ st = _ at h
    unfold EStateM.bind at h
    split at h
    · rename_i frame₁ st₁ hfirst
      have haccounts := accounts hcall ht hkt hk (hplans b (by simp)) hst hfirst
      obtain ⟨hsub, hrest⟩ := ih (fun b hb => hplans b (by simp [hb])) (haccounts.schema.trans hst) h
      have hgathered : frame.deleted ⊆ frame₁.deleted :=
        (runs_of_yields ⟨st.trace, st₁.trace, hfirst⟩).deleted_subset
      refine ⟨fun v hv => hsub (hgathered hv), .trans (haccounts.mono ?_) hrest⟩
      exact fun v ⟨hsame, hbatch, hv⟩ => ⟨hsame, hbatch, hsub hv⟩
    · cases h

end Block

end Blocks

/-! ## Calls -/

namespace Program

variable {p : Program} {σ : Setting} {notes : List String} {t : TableName} {name n : String}
variable {f : DeleteFunction} {ids deleted : List Int} {caller : Caller} {levels : Nat}
variable {st st' : RunState}

/-- A call that succeeds notes itself and runs the function of its name. -/
theorem call_eq_ok (h : p.call (levels + 1) n ids caller st = .ok deleted st') :
    ∃ f, p.lookup n = some f ∧ ∃ call : CallRecord,
      call.function = n ∧ call.ids = ascending ids ∧
      ((ascending ids = [] ∧ deleted = [] ∧ st' = ⟨st.store, st.trace ++ [call]⟩) ∨
        ∃ frame, deleted = frame.result ∧
          f.blocks.foldlM (fun frame (b : Block Callee) =>
            b.run (p.call levels) f (ascending ids) caller frame) .empty
            ⟨st.store, st.trace ++ [call]⟩ = .ok frame st') := by
  unfold call at h
  cases hf : p.lookup n with
  | none =>
    rw [hf] at h
    cases h
  | some f =>
    rw [hf] at h
    refine ⟨f, rfl, ⟨n, caller, ascending ids, p.maxDepth - levels⟩, rfl, rfl, ?_⟩
    change EStateM.bind _ _ st = _ at h
    unfold EStateM.bind Run.enter at h
    dsimp only at h
    split at h
    · rename_i hempty
      cases h
      exact Or.inl ⟨List.isEmpty_iff.1 hempty, rfl, rfl⟩
    · change EStateM.bind _ _ _ = _ at h
      unfold EStateM.bind at h
      split at h
      · rename_i frame st₁ hblocks
        cases h
        exact Or.inr ⟨frame, rfl, hblocks⟩
      · cases h

/-- **A call accounts for the rows of a table** whose only function this is. -/
theorem call_accounts (hserves : ∀ {name f}, p.lookup name = some f → p.Serves σ notes f)
    (ht : σ.schema.HoldsRows t) {k : String} (hkt : σ.schema.key? t = some k)
    (honly : ∀ n g, p.lookup n = some g → g.table.same t → n = name) (levels : Nat) (n : String)
    (ids : List Int) (caller : Caller) : (p.call levels n ids caller).Accounts σ.schema t name := by
  induction levels generalizing n ids caller with
  | zero =>
    intro st deleted st' _ h
    cases h
  | succ levels ih =>
    intro st deleted st' hst h
    obtain ⟨f, hf, call, hname, hids, hcourse⟩ := call_eq_ok h
    rcases hcourse with ⟨-, -, rfl⟩ | ⟨frame, -, hblocks⟩
    · have hnothing : RunState.Accounts t name (fun _ => False) ⟨st.store, st.trace ++ [call]⟩
          ⟨st.store, st.trace ++ [call]⟩ := .refl _
      exact hnothing.enter fun _ hfalse => hfalse.elim
    · obtain ⟨captured, front, back, hbody, hshape⟩ := (hserves hf).body
      have hentered : (RunState.mk st.store (st.trace ++ [call])).store.schema = σ.schema := hst
      obtain ⟨-, haccounts⟩ := Block.accounts_all ih ht hkt (hserves hf).key
        (fun b hb => hshape.plans b (hbody ▸ hb)) hentered hblocks
      refine haccounts.enter fun v ⟨hsame, hbatch, _⟩ => ?_
      exact ⟨hname.trans (honly n f hf hsame), by rwa [hids]⟩

end Program

namespace Setting

variable {σ : Setting} {namer : Namer} {start : TableName} {result : Synthesis} {depth : Nat}

/-- A table has one function, under one name. -/
theorem name_eq_of_same (h : σ.synthesize namer start = .ok result) {name n : String}
    {f g : DeleteFunction} (hf : (Program.mk result.registry.functions depth).lookup name = some f)
    (hg : (Program.mk result.registry.functions depth).lookup n = some g)
    (hsame : g.table.same f.table) : n = name := by
  obtain ⟨hfmem, hfname⟩ := Program.mem_of_lookup hf
  obtain ⟨hgmem, hgname⟩ := Program.mem_of_lookup hg
  obtain ⟨e, he, -, rfl, -⟩ := Registry.mem_functions hfmem
  obtain ⟨e', he', -, rfl, -⟩ := Registry.mem_functions hgmem
  rw [← hgname, ← hfname, (sound_of_synthesize h).distinct.eq_of_mem he' he (Or.inl hsame)]

/-- **A row that goes is reported, unless a call further down was asked for
it**: if a deletion succeeds, each id of the batch whose row was there is
among the reported ones, or in the batch of another call of the function. -/
theorem delete_reports {name : String} {ids deleted : List Int} {st : Store} {f : DeleteFunction}
    (h : σ.synthesize namer start = .ok result) (hst : st.schema = σ.schema)
    (hf : (Program.mk result.registry.functions depth).lookup name = some f)
    (hholds : σ.schema.HoldsRows f.table)
    (hrun : ((Program.mk result.registry.functions depth).delete st name ids).result =
      .ok deleted) :
    ∀ v ∈ ids, st.HasRow f.table v → v ∈ deleted ∨
      ∃ call ∈ ((Program.mk result.registry.functions depth).delete st name ids).trace.tail,
        call.function = name ∧ v ∈ call.ids := by
  intro v hv hrow
  have hserves {n : String} {g : DeleteFunction}
      (hg : (Program.mk result.registry.functions depth).lookup n = some g) :=
    Program.serves_of_synthesize h hg
  have hkey := (hserves hf).key
  unfold Program.delete at hrun ⊢
  split at hrun
  · rename_i reported st' hcalled
    cases hrun
    dsimp only
    obtain ⟨f', hf', call, -, -, hcourse⟩ := Program.call_eq_ok hcalled
    rw [hf] at hf'
    cases hf'
    -- nothing is left of the batch at the end
    obtain ⟨f', hf', hgone⟩ := Program.call_gone hserves hst ⟨[], st'.trace, hcalled⟩
    rw [hf] at hf'
    cases hf'
    rcases hcourse with ⟨hempty, -, -⟩ | ⟨frame, rfl, hblocks⟩
    · have hmem := mem_ascending.2 hv
      rw [hempty] at hmem
      cases hmem
    · obtain ⟨captured, front, back, hbody, hshape⟩ := (hserves hf).body
      have hentered : (RunState.mk st ([] ++ [call])).store.schema = σ.schema := hst
      obtain ⟨-, haccounts⟩ := Block.accounts_all
        (Program.call_accounts hserves hholds hkey (fun n g hg => name_eq_of_same h hf hg) depth)
        hholds hkey hkey (fun b hb => hshape.plans b (hbody ▸ hb)) hentered hblocks
      obtain ⟨calls, htrace, hrows⟩ := haccounts.rows
      rw [htrace]
      rcases hrows v hrow with hleft | ⟨-, -, hknown⟩ | hasked
      · exact absurd hleft (hgone v hv)
      · exact Or.inl (mem_ascending.2 (List.mem_append_left _ hknown))
      · exact Or.inr hasked
  · cases hrun

end Setting

/-! ## Rows that own each other -/

/-- Pages belong to a folder, and a folder to its cover page: each owns the
other. -/
def archive : Setting where
  schema := ⟨"archive",
    [({ Table.empty ⟨"archive", "folder"⟩ with
        columns := [⟨"id", "bigint", false⟩, ⟨"cover", "bigint", true⟩]
        primaryKey := ["id"] }).addReference "cover" "page" "id" .noAction,
      ({ Table.empty ⟨"archive", "page"⟩ with
        columns := [⟨"id", "bigint", false⟩, ⟨"folder", "bigint", true⟩]
        primaryKey := ["id"] }).addReference "folder" "folder" "id" .noAction], []⟩
  classifier := .ofRecords [⟨"page", "folder", some "folder", .composition⟩,
    ⟨"folder", "page", some "cover", .composition⟩] true
  discriminator := "class"

/-- A folder with its cover page. -/
def archiveStore : Store where
  schema := archive.schema
  contents := [(("archive", "folder"), [⟨[("id", 1), ("cover", 1)]⟩]),
    (("archive", "page"), [⟨[("id", 1), ("folder", 1)]⟩])]

/-- The folder is deleted by a function of the archive. -/
def archiveDeletion (result : Synthesis) : Deletion :=
  Program.delete ⟨result.registry.functions, 8⟩ archiveStore "del_folder" [1]

/-- The page has the folder deleted that has it deleted, and what that call
reports is dropped. -/
theorem exists_archiveDeletion : ∃ result f,
    archive.synthesize (.new "del_" 63) ⟨"archive", "folder"⟩ = .ok result ∧
      (Program.mk result.registry.functions 8).lookup "del_folder" = some f ∧
      f.table = ⟨"archive", "folder"⟩ ∧ (archiveDeletion result).result = .ok [] ∧
      (archiveDeletion result).trace =
        [⟨"del_folder", .external, [1], 0⟩, ⟨"del_page", .fromOwner, [1], 1⟩,
          ⟨"del_folder", .fromOwner, [1], 2⟩] := by
  have hrun : ((archive.synthesize (.new "del_" 63) ⟨"archive", "folder"⟩).toOption.any fun result =>
      (((Program.mk result.registry.functions 8).lookup "del_folder").map (·.table) =
          some ⟨"archive", "folder"⟩) ∧ (archiveDeletion result).result = .ok [] ∧
        (archiveDeletion result).trace =
          [⟨"del_folder", .external, [1], 0⟩, ⟨"del_page", .fromOwner, [1], 1⟩,
            ⟨"del_folder", .fromOwner, [1], 2⟩]) = true := by
    -- the recursions that do not evaluate are followed for as long as they last here
    delta Setting.synthesize Setting.cutCycles Setting.cutTable Setting.leadsBack Setting.cutBlock
      Setting.cutNote? Registry.ownerCallReaches archiveDeletion Program.delete Program.call
      Program.call._f Block.run BridgeCascade.run runLocalDelete Store.deleteWhere
    rw [← Setting.visitFor_eq archive 12, ← Registry.searchFor_eq 12, ← Store.enforceFor_eq 9]
    decide +kernel
  cases hsyn : archive.synthesize (.new "del_" 63) ⟨"archive", "folder"⟩ with
  | error e =>
    rw [hsyn] at hrun
    cases hrun
  | ok result =>
    rw [hsyn] at hrun
    obtain ⟨htable, hresult, htrace⟩ := of_decide_eq_true hrun
    obtain ⟨f, hf, htable⟩ := Option.map_eq_some_iff.1 htable
    exact ⟨result, f, rfl, hf, htable, hresult, htrace⟩

theorem archiveStore_valid : archiveStore.UniqueKeys ∧ archiveStore.NoDangling ∧
    archiveStore.HasRow ⟨"archive", "folder"⟩ 1 :=
  ⟨by decide +kernel, by decide +kernel, "id", by decide +kernel, ⟨[("id", 1), ("cover", 1)]⟩,
    by decide +kernel, by decide +kernel⟩

/-- The folder is in the batch of the call that deleted it. -/
theorem Setting.delete_reports_archive : ∃ result,
    archive.synthesize (.new "del_" 63) ⟨"archive", "folder"⟩ = .ok result ∧
      (1 ∈ ([] : List Int) ∨ ∃ call ∈ (archiveDeletion result).trace.tail,
        call.function = "del_folder" ∧ 1 ∈ call.ids) := by
  obtain ⟨result, f, hsyn, hf, htable, hrun, -⟩ := exists_archiveDeletion
  have hholds : archive.schema.HoldsRows f.table := fun fk hfk _ => by
    have hplain : ∀ fk ∈ archive.schema.foreignKeys,
        fk.onDelete ≠ .cascade ∧ fk.onDelete ≠ .setNull := by decide +kernel
    exact ⟨(hplain fk hfk).1, fun _ _ _ hact => absurd hact (hplain fk hfk).2⟩
  exact ⟨result, hsyn, Setting.delete_reports hsyn rfl hf hholds hrun 1 (by simp)
    (htable ▸ archiveStore_valid.2.2)⟩

/-- **Not every row that goes is reported**: of a folder that owns its cover
page and is owned by it, nothing is. -/
theorem not_delete_reports_archive : ∃ result f,
    archive.synthesize (.new "del_" 63) ⟨"archive", "folder"⟩ = .ok result ∧
      archiveStore.schema = archive.schema ∧ archiveStore.UniqueKeys ∧ archiveStore.NoDangling ∧
      (Program.mk result.registry.functions 8).lookup "del_folder" = some f ∧
      archiveStore.HasRow f.table 1 ∧ (archiveDeletion result).result = .ok [] := by
  obtain ⟨result, f, hsyn, hf, htable, hrun, -⟩ := exists_archiveDeletion
  obtain ⟨hunique, hwhole, hrow⟩ := archiveStore_valid
  exact ⟨result, f, hsyn, rfl, hunique, hwhole, hf, htable ▸ hrow, hrun⟩

end DeleteCascade
