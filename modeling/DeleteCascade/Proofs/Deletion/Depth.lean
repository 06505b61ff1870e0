import DeleteCascade.Proofs.Deletion.Ownership
import DeleteCascade.Proofs.Store.Load
import DeleteCascade.Proofs.Synthesis.Cycles
/-!
# Deletion — how deep the calls go

A call that reports a row has taken from the load of the store
(`call_spends`), and so has a block before it calls for rows that it has
cut off, unlinked or deleted. The other calls follow the `Leads` of the
program, which come back to no function. So the load and the number of
functions that a function leads to bound the depth together
(`Program.need`), and levels enough for them are enough for the run
(`call_shallow`, `Setting.delete_not_tooDeep`).
-/

namespace DeleteCascade

/-! ## What calls take from the load -/

/-- What a call leaves: no more than there was, and less if it reports a row. -/
def Spends (deleted : List Int) (s s' : Store) : Prop :=
  s'.load ≤ s.load ∧ (deleted ≠ [] → s'.load < s.load)

/-- A frame that has something in it. -/
def Frame.Gathers (frame : Frame) : Prop :=
  frame.deleted ≠ [] ∨ frame.deletedParts ≠ [] ∨ ∃ ids ∈ frame.captured, ids ≠ []

/-- **A frame is paid for** since a call began on `start`: if it has gathered
anything, then the load has become less. -/
def Frame.Paid (start : Store) (frame : Frame) (s : Store) : Prop :=
  s.load ≤ start.load ∧ (frame.Gathers → s.load < start.load)

section Spending

variable {C : Calls} {f : DeleteFunction} {batch ids deleted noted noted' : List Int}
variable {caller : Caller} {frame frame' : Frame} {start s s' : Store} {rows : List Row}
variable {t : TableName} {c : String} {test : Row → Bool} {detach : Bool}

theorem Frame.Paid.empty (s : Store) : Frame.empty.Paid s s :=
  ⟨Nat.le_refl _, by simp [Frame.empty, Frame.Gathers]⟩

/-- A frame stays paid for if what it gathers more takes from the load. -/
theorem Frame.Paid.gather (h : frame.Paid start s) (hs : s'.load ≤ s.load)
    (hmore : frame'.Gathers → frame.Gathers ∨ s'.load < s.load) : frame'.Paid start s' := by
  refine ⟨hs.trans h.1, fun hgathers => ?_⟩
  rcases hmore hgathers with hold | hless
  · exact Nat.lt_of_le_of_lt hs (h.2 hold)
  · exact Nat.lt_of_lt_of_le hless h.1

theorem Frame.Paid.le (h : frame.Paid start s) (hs : s'.load ≤ s.load) : frame.Paid start s' :=
  h.gather hs Or.inl

theorem Store.Takes.load_le (h : s.Takes t c test detach rows s') : s'.load ≤ s.load := by
  rw [h.store]
  split
  · exact Store.load_clearWhere_le _ _ _ _
  · exact Nat.le_refl _

theorem DeletesOwned.spends (hcall : ∀ {name ids caller s deleted s'}, C name ids caller s deleted s' →
    Spends deleted s s') {callee : Callee} (h : DeletesOwned C callee ids s deleted s') :
    Spends deleted s s' := by
  cases h with
  | idle => exact ⟨Nat.le_refl _, fun hne => absurd rfl hne⟩
  | call run => exact hcall run

theorem Dispatches.spends (hcall : ∀ {name ids caller s deleted s'}, C name ids caller s deleted s' →
    Spends deleted s s') {callees : List Callee} (h : Dispatches C callees batch noted s noted' s') :
    s'.load ≤ s.load ∧ (noted' ≠ [] → noted ≠ [] ∨ s'.load < s.load) := by
  induction h with
  | done => exact ⟨Nat.le_refl _, Or.inl⟩
  | @call c ids deleted new noted noted' s s₁ s' _ _ run reported _ ih =>
    obtain ⟨hle, hlt⟩ := hcall run
    refine ⟨ih.1.trans hle, fun hsome => ?_⟩
    rcases ih.2 hsome with happ | hless
    · cases new with
      | nil => exact Or.inl (by simpa using happ)
      | cons id new =>
        have hdeleted : deleted ≠ [] := List.ne_nil_of_mem (reported id (by simp)).2
        exact Or.inr (Nat.lt_of_le_of_lt ih.1 (hlt hdeleted))
    · exact Or.inr (Nat.lt_of_lt_of_le hless hle)

/-- **A block pays for what it gathers.** -/
theorem Block.Runs.paid (hcall : ∀ {name ids caller s deleted s'}, C name ids caller s deleted s' →
    Spends deleted s s') {b : Block Callee} (h : b.Runs C f batch caller frame s frame' s')
    (hpaid : frame.Paid start s) : frame'.Paid start s' := by
  cases h with
  | selfParts take call =>
    obtain ⟨hle, hlt⟩ := call.spends hcall
    refine hpaid.gather (hle.trans take.load_le) fun hgathers => ?_
    rcases hgathers with hdeleted | hparts | hcaptured
    · exact Or.inl (Or.inl hdeleted)
    · rcases not_and_or.1 (mt List.append_eq_nil_iff.2 hparts) with hold | hnew
      · exact Or.inl (Or.inr (Or.inl hold))
      · exact Or.inr (Nat.lt_of_lt_of_le (hlt hnew) take.load_le)
    · exact Or.inl (Or.inr (Or.inr hcaptured))
  | childCascade take call => exact hpaid.le ((call.spends hcall).1.trans take.load_le)
  | bridgeOnly remove _ => exact hpaid.le (Store.load_deleteWhere_le remove)
  | bridgeCascade remove _ call =>
    exact hpaid.le ((call.spends hcall).1.trans (Store.load_deleteWhere_le remove))
  | subtypeDispatch calls =>
    obtain ⟨hle, hlt⟩ := calls.spends hcall
    refine hpaid.gather hle fun hgathers => ?_
    rcases hgathers with hdeleted | hrest
    · exact (hlt hdeleted).imp Or.inl id
    · exact Or.inl (Or.inr hrest)
  | localDelete remove =>
    refine hpaid.gather (Store.load_deleteWhere_le remove) fun hgathers => ?_
    have hrows {rows : List Row} {column : String} {id : Int}
        (h : id ∈ rows.filterMap (·.get? column)) : rows ≠ [] := by
      obtain ⟨r, hr, -⟩ := List.mem_filterMap.1 h
      exact List.ne_nil_of_mem hr
    rcases hgathers with hdeleted | hparts | ⟨ids, hids, hsome⟩
    · rcases not_and_or.1 (mt List.append_eq_nil_iff.2 hdeleted) with hold | hnew
      · exact Or.inl (Or.inl hold)
      · obtain ⟨id, hid⟩ := List.exists_mem_of_ne_nil _ hnew
        exact Or.inr (Store.load_deleteWhere_lt remove (hrows hid))
    · exact Or.inl (Or.inr (Or.inl hparts))
    · obtain ⟨column, -, rfl⟩ := List.mem_map.1 hids
      obtain ⟨id, hid⟩ := List.exists_mem_of_ne_nil _ hsome
      exact Or.inr (Store.load_deleteWhere_lt remove (hrows (mem_ascending.1 hid)))
  | referencedCleanup call => exact hpaid.le (call.spends hcall).1
  | noParent _ => exact hpaid
  | parentCascade _ run => exact hpaid.le (hcall run).1

theorem Block.RunsAll.paid (hcall : ∀ {name ids caller s deleted s'}, C name ids caller s deleted s' →
    Spends deleted s s') {bs : List (Block Callee)}
    (h : Block.RunsAll C f batch caller bs frame s frame' s') (hpaid : frame.Paid start s) :
    frame'.Paid start s' := by
  induction h with
  | nil => exact hpaid
  | cons first _ ih => exact ih (first.paid hcall hpaid)

theorem DeleteFunction.Runs.spends
    (hcall : ∀ {name ids caller s deleted s'}, C name ids caller s deleted s' →
      Spends deleted s s') (h : f.Runs C batch caller s deleted s') : Spends deleted s s' := by
  cases h with
  | idle _ => exact ⟨Nat.le_refl _, fun hne => absurd rfl hne⟩
  | body run =>
    obtain ⟨hle, hlt⟩ := run.paid hcall (.empty s)
    refine ⟨hle, fun hsome => hlt ?_⟩
    obtain ⟨id, hid⟩ := List.exists_mem_of_ne_nil _ hsome
    rw [Frame.result, mem_ascending] at hid
    exact (List.mem_append.1 hid).imp List.ne_nil_of_mem fun hid => Or.inl (List.ne_nil_of_mem hid)

/-- **A call that reports a row has taken from the load.** -/
theorem call_spends {p : Program} {levels : Nat} {name : String}
    (h : (p.call levels name ids caller).Yields s deleted s') : Spends deleted s s' := by
  obtain ⟨f, -, hspends⟩ := Program.call_induction
    (S := fun _ _ _ s deleted s' => Spends deleted s s')
    (fun _ ih _ _ _ _ _ hruns => hruns.spends fun hcall => by
      obtain ⟨g, -, hspends⟩ := ih hcall
      exact hspends) h
  exact hspends

end Spending

/-! ## Runs that do not go too deep -/

namespace Run

variable {α β : Type}

/-- **A run started on a store does not go too deep**, whatever else may
become of it. -/
def Shallow (m : Run α) (s : Store) : Prop :=
  ∀ trace function depth st, m ⟨s, trace⟩ ≠ .error (.tooDeep function depth) st

variable {m : Run α} {s : Store}

theorem shallow_pure (a : α) : (pure a : Run α).Shallow s := by
  intro trace function depth st h
  cases h

theorem shallow_statement (change : Store → Except StoreError (α × Store)) :
    (statement change).Shallow s := by
  intro trace function depth st h
  unfold statement at h
  split at h <;> cases h

theorem shallow_query (read : Store → Except StoreError α) : (query read).Shallow s := by
  intro trace function depth st h
  unfold query at h
  split at h <;> cases h

theorem shallow_stillUnowned (t : TableName) (key : String) (owners : Option (List Owner))
    (ids : List Int) : (stillUnowned t key owners ids).Shallow s := by
  intro trace function depth st h
  cases h

theorem shallow_enter (call : CallRecord) : (enter call).Shallow s := by
  intro trace function depth st h
  cases h

theorem shallow_bind {f : α → Run β} (hm : m.Shallow s)
    (hf : ∀ a s', m.Yields s a s' → (f a).Shallow s') : (m >>= f).Shallow s := by
  intro trace function depth st h
  change EStateM.bind m f ⟨s, trace⟩ = _ at h
  unfold EStateM.bind at h
  split at h
  · rename_i a st' hma
    exact hf a st'.store ⟨trace, st'.trace, hma⟩ _ _ _ _ h
  · rename_i e st' hma
    cases h
    exact hm _ _ _ _ hma

/-- A chain of steps does not go too deep if no step does, where each step
keeps what the next one needs. -/
theorem shallow_foldlM {g : β → α → Run β} {P : β → Store → Prop} {l : List α} {b : β}
    (hstep : ∀ a ∈ l, ∀ b s, P b s →
      (g b a).Shallow s ∧ ∀ b' s', (g b a).Yields s b' s' → P b' s')
    (h : P b s) : (l.foldlM g b).Shallow s := by
  induction l generalizing b s with
  | nil => exact shallow_pure b
  | cons a l ih =>
    rw [List.foldlM_cons]
    obtain ⟨hfirst, hkeeps⟩ := hstep a (by simp) b s h
    exact shallow_bind hfirst fun b' s' hyields =>
      ih (fun a' ha' => hstep a' (by simp [ha'])) (hkeeps b' s' hyields)

end Run

/-- **Calls can be afforded** below a load: with less there, they do not go
too deep. -/
structure CallFunction.Affords (call : CallFunction) (load : Nat) : Prop where
  spends : ∀ {name ids caller s deleted s'}, (call name ids caller).Yields s deleted s' →
    Spends deleted s s'
  shallow : ∀ {name ids caller s}, s.load < load → (call name ids caller).Shallow s

/-- Calls of a function do not go too deep up to a load. -/
def CallFunction.ShallowUpTo (call : CallFunction) (load : Nat) (name : String) : Prop :=
  ∀ ids caller s, s.load ≤ load → (call name ids caller).Shallow s

section Shallow

variable {call : CallFunction} {f : DeleteFunction} {batch ids : List Int} {caller : Caller}
variable {frame : Frame} {start s : Store}

theorem shallow_deleteOwned {callee : Callee}
    (h : ids ≠ [] → (call callee.function ids .fromOwner).Shallow s) :
    (deleteOwned call callee ids).Shallow s := by
  unfold deleteOwned
  split
  · exact Run.shallow_pure _
  · rename_i hsome
    exact h (by simpa using hsome)

theorem ids_ne_nil_of_unowned {t : TableName} {key : String} {owners : Option (List Owner)}
    (h : s.unowned t key owners ids ≠ []) : ids ≠ [] := by
  rintro rfl
  cases owners <;> exact h rfl

theorem rows_ne_nil_of_values {rows : List Row} {column : String}
    (h : rows.filterMap (·.get? column) ≠ []) : rows ≠ [] := by
  rintro rfl
  exact h rfl

namespace Block

/-- Parts that were cut off are worth the call for them. -/
theorem shallow_selfParts {b : SelfParts Callee} (hcall : call.Affords start.load)
    (hcut : b.detach = true) (hs : s.load ≤ start.load) :
    (b.run call f batch frame).Shallow s := by
  unfold SelfParts.run
  dsimp only
  rw [if_pos hcut]
  refine Run.shallow_bind (Run.shallow_statement _) fun parts s₁ hyields => ?_
  obtain ⟨rfl, rfl⟩ := Store.setNullWhere_eq_ok (Run.yields_statement hyields)
  refine Run.shallow_bind (shallow_deleteOwned fun hsome => hcall.shallow ?_)
    fun deleted s₂ _ => Run.shallow_pure _
  refine Nat.lt_of_lt_of_le (Store.load_clearWhere_lt (fun r hr => ?_) ?_) hs
  · simp only [Bool.and_eq_true] at hr
    obtain ⟨v, -, hv⟩ := pointsInto_iff.1 hr.1
    exact ⟨v, hv⟩
  · exact rows_ne_nil_of_values hsome

/-- So are children that were cut off; others are called for at once. -/
theorem shallow_childCascade {b : ChildCascade Callee} (hcall : call.Affords start.load)
    (hstays : b.detach = false → call.ShallowUpTo start.load b.callee.function)
    (hs : s.load ≤ start.load) : (b.run call batch frame).Shallow s := by
  unfold ChildCascade.run
  refine Run.shallow_bind (Run.shallow_query _) fun children s₁ hyields => ?_
  obtain ⟨hselect, rfl⟩ := Run.yields_query hyields
  obtain rfl := Store.select_eq_ok hselect
  dsimp only
  split
  · refine Run.shallow_bind (Run.shallow_statement _) fun cleared s₁ hyields => ?_
    obtain ⟨-, rfl⟩ := Store.setNullWhere_eq_ok (Run.yields_statement hyields)
    refine Run.shallow_bind (Run.shallow_stillUnowned _ _ _ _) fun ids s₂ hyields => ?_
    obtain ⟨rfl, rfl⟩ := Run.yields_stillUnowned hyields
    refine Run.shallow_bind (shallow_deleteOwned fun hsome => hcall.shallow ?_)
      fun deleted s₃ _ => Run.shallow_pure _
    refine Nat.lt_of_lt_of_le (Store.load_clearWhere_lt (fun r hr => ?_) ?_) hs
    · obtain ⟨v, -, hv⟩ := pointsInto_iff.1 hr
      exact ⟨v, hv⟩
    · exact rows_ne_nil_of_values (ids_ne_nil_of_unowned hsome)
  · rename_i hdetach
    refine Run.shallow_bind (Run.shallow_stillUnowned _ _ _ _) fun ids s₂ hyields => ?_
    obtain ⟨rfl, rfl⟩ := Run.yields_stillUnowned hyields
    exact Run.shallow_bind (shallow_deleteOwned fun _ => hstays (by simpa using hdetach) _ _ _ hs)
      fun deleted s₃ _ => Run.shallow_pure _

/-- Links that were removed are worth the call for the rows behind them. -/
theorem shallow_bridgeCascade {b : BridgeCascade Callee} (hcall : call.Affords start.load)
    (hs : s.load ≤ start.load) : (b.run call batch frame).Shallow s := by
  unfold BridgeCascade.run
  refine Run.shallow_bind (Run.shallow_statement _) fun links s₁ hyields => ?_
  have hremove := Run.yields_statement hyields
  split
  · exact Run.shallow_pure _
  · refine Run.shallow_bind (Run.shallow_stillUnowned _ _ _ _) fun ids s₂ hyields => ?_
    obtain ⟨rfl, rfl⟩ := Run.yields_stillUnowned hyields
    refine Run.shallow_bind (shallow_deleteOwned fun hsome => hcall.shallow ?_)
      fun deleted s₃ _ => Run.shallow_pure _
    exact Nat.lt_of_lt_of_le (Store.load_deleteWhere_lt hremove
      (rows_ne_nil_of_values (ids_ne_nil_of_unowned hsome))) hs

/-- A typed subtype is called for at once. -/
theorem shallow_runTyped {b : SubtypeDispatch Callee} {d : Discriminator} {id : Int}
    (hstays : ∀ c ∈ (Block.subtypeDispatch b).callees, call.ShallowUpTo start.load c.function)
    (hs : s.load ≤ start.load) :
    (b.runTyped call d frame id).Shallow s := by
  unfold SubtypeDispatch.runTyped
  refine Run.shallow_bind (Run.shallow_query _) fun rows s₁ hyields => ?_
  obtain ⟨-, rfl⟩ := Run.yields_query hyields
  split
  · exact Run.shallow_pure _
  · split
    · exact Run.shallow_pure _
    · rename_i subtype hfind
      have hcallee : subtype.callee ∈ (Block.subtypeDispatch b).callees :=
        List.mem_append_left _ (List.mem_map.2 ⟨_, List.mem_of_find?_eq_some hfind, rfl⟩)
      exact Run.shallow_bind (hstays _ hcallee _ _ _ hs) fun _ _ _ => Run.shallow_pure _

/-- So are the subtypes without classes. -/
theorem shallow_hooks {hooks : List Callee} (hcall : call.Affords start.load)
    (hstays : ∀ c ∈ hooks, call.ShallowUpTo start.load c.function) (hs : s.load ≤ start.load) :
    (hooks.forM fun hook => do
      let _ ← call hook.function batch .fromParent : Run Unit).Shallow s := by
  induction hooks generalizing s with
  | nil => exact Run.shallow_pure ()
  | cons hook hooks ih =>
    have hfirst := hstays hook (by simp) batch .fromParent s hs
    refine Run.shallow_bind (Run.shallow_bind hfirst fun _ _ _ => Run.shallow_pure ()) fun u s₁ hyields => ?_
    obtain ⟨deleted, s₂, hcalled, hpure⟩ := Run.yields_bind hyields
    obtain ⟨-, rfl⟩ := Run.yields_pure hpure
    exact ih (fun c hc => hstays c (by simp [hc])) ((hcall.spends hcalled).1.trans hs)

/-- **A dispatch does not go too deep** if its subtypes do not. -/
theorem shallow_subtypeDispatch {b : SubtypeDispatch Callee} (hcall : call.Affords start.load)
    (hstays : ∀ c ∈ (Block.subtypeDispatch b).callees, call.ShallowUpTo start.load c.function)
    (hs : s.load ≤ start.load) :
    (b.run call batch caller frame).Shallow s := by
  have hfinish (frame₁ : Frame) {s₁ : Store} (hs₁ : s₁.load ≤ start.load) :
      (do
        b.hooks.forM fun hook => do
          let _ ← call hook.function batch .fromParent
        return frame₁ : Run Frame).Shallow s₁ :=
    Run.shallow_bind (shallow_hooks hcall
      (fun c hc => hstays c (List.mem_append_right _ hc)) hs₁) fun _ _ _ => Run.shallow_pure _
  have hidle : (do
      let frame₁ ← (pure frame : Run Frame)
      b.hooks.forM fun hook => do
        let _ ← call hook.function batch .fromParent
      return frame₁ : Run Frame).Shallow s :=
    Run.shallow_bind (Run.shallow_pure _) fun frame₁ s₁ hyields => by
      obtain ⟨rfl, rfl⟩ := Run.yields_pure hyields
      exact hfinish frame₁ hs
  unfold SubtypeDispatch.run
  dsimp only
  split
  · rename_i d hd
    split
    · exact hidle
    · have htyped : (batch.foldlM (b.runTyped call d) frame).Shallow s :=
        Run.shallow_foldlM (P := fun _ s => s.load ≤ start.load)
          (fun id hid frame s hs => ⟨shallow_runTyped hstays hs, fun frame' s' hyields => by
            obtain ⟨noted, -, hcalls⟩ := dispatches_runTyped hid hyields
            exact (hcalls.spends hcall.spends).1.trans hs⟩) hs
      refine Run.shallow_bind htyped fun frame₁ s₁ hyields => hfinish frame₁ ?_
      obtain ⟨noted, -, hcalls⟩ := dispatches_typed (fun _ h => h) hyields
      exact (hcalls.spends hcall.spends).1.trans hs
  · exact hidle

theorem shallow_localDelete {captured : List String} :
    (runLocalDelete captured f batch frame).Shallow s := by
  unfold runLocalDelete
  exact Run.shallow_bind (Run.shallow_statement _) fun _ _ _ => Run.shallow_pure _

/-- The rows that pointed at the ones to clean up are gone by then. -/
theorem shallow_referencedCleanup {b : ReferencedCleanup Callee} (hcall : call.Affords start.load)
    (hpaid : frame.Paid start s) : (b.run call frame).Shallow s := by
  unfold ReferencedCleanup.run
  refine Run.shallow_bind (Run.shallow_stillUnowned _ _ _ _) fun ids s₁ hyields => ?_
  obtain ⟨rfl, rfl⟩ := Run.yields_stillUnowned hyields
  refine Run.shallow_bind (shallow_deleteOwned fun hsome => hcall.shallow (hpaid.2 ?_))
    fun deleted s₂ _ => Run.shallow_pure _
  refine Or.inr (Or.inr ?_)
  cases hslot : frame.captured[b.slot]? with
  | none =>
    rw [hslot] at hsome
    exact absurd rfl (ids_ne_nil_of_unowned hsome)
  | some ids =>
    rw [hslot] at hsome
    exact ⟨ids, List.mem_of_getElem? hslot, ids_ne_nil_of_unowned hsome⟩

/-- The supertype is called for rows that are gone. -/
theorem shallow_parentCascade {callee : Callee} (hcall : call.Affords start.load)
    (hpaid : frame.Paid start s) : (runParentCascade callee call caller frame).Shallow s := by
  unfold runParentCascade
  dsimp only
  split
  · exact Run.shallow_pure _
  · rename_i hcalls
    simp only [Bool.or_eq_true, not_or, Bool.not_eq_true, List.isEmpty_eq_false_iff] at hcalls
    exact Run.shallow_bind (hcall.shallow (hpaid.2 (Or.inl hcalls.2))) fun _ _ _ =>
      Run.shallow_pure _

/-- **A block does not go too deep** if the calls do not that it makes while
nothing needs to be lost, and if it cuts parts off. -/
theorem shallow {b : Block Callee} (hcall : call.Affords start.load)
    (hcut : ∀ d, b = .selfParts d → d.detach = true)
    (hstays : b.stays = true → ∀ c ∈ b.callees, call.ShallowUpTo start.load c.function)
    (hpaid : frame.Paid start s) : (b.run call f batch caller frame).Shallow s := by
  cases b with
  | selfParts d => exact shallow_selfParts hcall (hcut d rfl) hpaid.1
  | childCascade d =>
    refine shallow_childCascade hcall (fun hdetach => hstays ?_ _ (by simp [callees])) hpaid.1
    simp [stays, hdetach]
  | bridgeCascade d => exact shallow_bridgeCascade hcall hpaid.1
  | subtypeDispatch d => exact shallow_subtypeDispatch hcall (hstays rfl) hpaid.1
  | localDelete captured => exact shallow_localDelete
  | referencedCleanup d => exact shallow_referencedCleanup hcall hpaid
  | parentCascade callee => exact shallow_parentCascade hcall hpaid

end Block

end Shallow

/-! ## Levels that are enough -/

namespace Program

variable {p : Program} {f g : DeleteFunction} {n levels : Nat}

open Classical in
/-- How many functions a function leads to. -/
noncomputable def rank (p : Program) (f : DeleteFunction) : Nat :=
  p.functions.countP fun g => Relation.TransGen p.Leads f g

/-- **The levels that a call needs** under a load: each time something is
lost, the calls may pass through all functions once more. -/
noncomputable def need (p : Program) (f : DeleteFunction) (load : Nat) : Nat :=
  load * (p.functions.length + 1) + p.rank f + 2

theorem need_mono {m : Nat} (h : m ≤ n) : p.need f m ≤ p.need f n := by
  unfold need
  have := Nat.mul_le_mul_right (p.functions.length + 1) h
  omega

theorem rank_le (p : Program) (f : DeleteFunction) : p.rank f ≤ p.functions.length :=
  List.countP_le_length

/-- With less to lose, any function needs fewer levels. -/
theorem need_lt_of_lt {m : Nat} (h : m < n) : p.need g m < p.need f n := by
  have hrank := p.rank_le g
  have hmul := Nat.mul_le_mul_right (p.functions.length + 1) (Nat.succ_le_of_lt h)
  unfold need
  rw [Nat.succ_mul] at hmul
  omega

open Classical in
/-- A function that others are led to needs fewer levels than they do. -/
theorem need_lt_of_leads (hacyclic : ∀ f, ¬ Relation.TransGen p.Leads f f) (h : p.Leads f g) :
    p.need g n < p.need f n := by
  obtain ⟨b, hb, hstays, c, hc, hg⟩ := id h
  have hrank : p.rank g < p.rank f := by
    refine countP_lt_countP (a := g) (fun x hx => ?_) (mem_of_lookup hg).1 ?_ ?_
    · exact decide_eq_true (.head h (of_decide_eq_true hx))
    · exact decide_eq_true (.single h)
    · exact decide_eq_false (hacyclic g)
  unfold need
  omega

/-- **Levels enough for a function are enough for its calls**, if no
function leads back to itself and parts are cut off. -/
theorem call_shallow (hacyclic : ∀ f, ¬ Relation.TransGen p.Leads f f)
    (hcut : ∀ {name f d}, p.lookup name = some f → .selfParts d ∈ f.blocks → d.detach = true)
    {name : String} {ids : List Int} {caller : Caller} {s : Store} (hlevels : 1 ≤ levels)
    (hneed : ∀ f, p.lookup name = some f → p.need f s.load ≤ levels) :
    (p.call levels name ids caller).Shallow s := by
  induction levels generalizing name ids caller s with
  | zero => omega
  | succ deeper ih =>
    unfold call
    split
    · intro trace function depth st h
      cases h
    · rename_i f hf
      have hroom := hneed f hf
      have hdeeper : 1 ≤ deeper := by
        unfold need at hroom
        omega
      have hcall : CallFunction.Affords (p.call deeper) s.load := by
        refine ⟨call_spends, fun hless => ih hdeeper fun g hg => ?_⟩
        have := need_lt_of_lt (p := p) (f := f) (g := g) hless
        omega
      have hleads {g : DeleteFunction} (h : p.Leads f g) {s' : Store} (hs : s'.load ≤ s.load) :
          p.need g s'.load ≤ deeper := by
        have hless := need_lt_of_leads (n := s'.load) hacyclic h
        have hmono := need_mono (p := p) (f := f) hs
        omega
      dsimp only
      refine Run.shallow_bind (Run.shallow_enter _) fun u s₁ hyields => ?_
      obtain rfl := Run.yields_enter hyields
      split
      · exact Run.shallow_pure _
      · refine Run.shallow_bind (Run.shallow_foldlM (P := fun frame s₁ => frame.Paid s s₁)
          (fun b hb frame s₁ hpaid => ⟨?_, fun frame' s₂ hyields => ?_⟩) (.empty s))
          fun frame s₁ _ => Run.shallow_pure _
        · refine Block.shallow hcall (fun d hd => hcut hf (hd ▸ hb)) (fun hstays c hc => ?_) hpaid
          exact fun ids caller s' hs => ih hdeeper fun g hg => hleads ⟨b, hb, hstays, c, hc, hg⟩ hs
        · exact (Block.runs_of_yields hyields).paid hcall.spends hpaid

end Program

namespace Setting

variable {σ : Setting} {namer : Namer} {root : TableName} {result : Synthesis}

/-- **Generated functions do not recurse for ever**: where subtypes do not
go round in a circle, and no remark was left on a link that cannot be cut,
no run goes too deep, if the calls may be as deep as what is in the store
times the number of functions. -/
theorem delete_not_tooDeep (hacyclic : ∀ t, ¬ Relation.TransGen σ.schema.IsSubtype t t)
    (hsyn : σ.synthesize namer root = .ok result) (hnone : ∀ ref, cycleNote ref ∉ result.notes)
    {depth : Nat} (st : Store)
    (hdepth : (st.size + st.values + 1) * (4 * result.registry.functions.length + 1) ≤ depth)
    (name : String) (ids : List Int) (function : String) (reached : Nat) :
    (Program.delete ⟨result.registry.functions, depth⟩ st name ids).result ≠
      .error (.tooDeep function reached) := by
  have hcut {name : String} {f : DeleteFunction} {d : SelfParts Callee}
      (hf : (Program.mk result.registry.functions depth).lookup name = some f)
      (hd : .selfParts d ∈ f.blocks) : d.detach = true := by
    obtain ⟨captured, front, back, hblocks, hbody⟩ := (Program.serves_of_synthesize hsyn hf).body
    cases hbody.plans _ (hblocks ▸ hd) with
    | selfParts link classified callee cut =>
      exact cut.resolve_right fun ⟨ref, href⟩ => hnone ref href
  have hshallow : ((Program.mk result.registry.functions depth).call (depth + 1) name ids
      .external).Shallow st := by
    refine Program.call_shallow (fun f => Program.not_transGen_leads hacyclic hsyn hnone) hcut
      (by omega) fun f _ => ?_
    have hrank := Program.rank_le ⟨result.registry.functions, depth⟩ f
    have hroom : (st.load + 1) * (result.registry.functions.length + 1) ≤ depth := by
      refine Nat.le_trans (Nat.mul_le_mul_left _ ?_) hdepth
      omega
    rw [Nat.succ_mul] at hroom
    dsimp only at hrank
    unfold Program.need
    dsimp only
    omega
  unfold Program.delete
  split
  · exact fun h => by cases h
  · rename_i e st' hrun
    intro h
    cases h
    exact hshallow _ _ _ _ hrun

/-- No call in the city goes too deep within 221 levels. -/
theorem delete_not_tooDeep_city : ∃ result,
    city.synthesize (.new "del_" 63) ⟨"city", "building"⟩ = .ok result ∧
      ∀ name ids function reached,
        (Program.delete ⟨result.registry.functions, 221⟩ cityStore name ids).result ≠
          .error (.tooDeep function reached) := by
  obtain ⟨result, f, hsyn, hnotes, -, -, -, -, hfunctions⟩ := exists_cityDeletion
  refine ⟨result, hsyn, delete_not_tooDeep (fun t hcycle => ?_) hsyn (by simp [hnotes]) cityStore ?_⟩
  · obtain ⟨u, hu, -⟩ := Relation.TransGen.head'_iff.1 hcycle
    exact city_not_isSubtype _ _ hu
  · rw [hfunctions]
    decide +kernel

end Setting

end DeleteCascade
