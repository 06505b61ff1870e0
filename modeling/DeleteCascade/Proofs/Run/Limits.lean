import DeleteCascade.Run.Delete
/-!
# Runs — the limit on the depth of calls

The limit stops calls that go too deep, and that is all it does: a deletion
that is not stopped comes to the same under every larger limit
(`Program.delete_eq_of_le`), and one that fails for another reason succeeds
under no limit (`Program.result_ne_ok_of_error`). Runs that are put together
in the same way from calls that differ only in what stops them differ only in
that (`Run.Within`), so the proof follows the way runs are put together.
-/

namespace DeleteCascade

namespace Run

variable {α β : Type} {m m' : Run α}

/-- **A run does what another one does** unless its calls go too deep. -/
def Within (m m' : Run α) : Prop :=
  ∀ st, (∃ function reached st', m st = .error (.tooDeep function reached) st') ∨ m st = m' st

namespace Within

protected theorem refl (m : Run α) : m.Within m := fun _ => Or.inr rfl

theorem bind {f f' : α → Run β} (hm : m.Within m') (hf : ∀ a, (f a).Within (f' a)) :
    (m >>= f).Within (m' >>= f') := by
  intro st
  change (∃ function reached st', EStateM.bind m f st = _) ∨
    EStateM.bind m f st = EStateM.bind m' f' st
  unfold EStateM.bind
  rcases hm st with ⟨function, reached, st', hdeep⟩ | heq
  · exact Or.inl ⟨function, reached, st', by rw [hdeep]⟩
  · rw [heq]
    cases m' st with
    | ok a st₁ => exact hf a st₁
    | error e st₁ => exact Or.inr rfl

/-- Steps that come first are the same. -/
theorem andThen {f f' : α → Run β} (h : ∀ a, (f a).Within (f' a)) (m : Run α) :
    (m >>= f).Within (m >>= f') :=
  (Within.refl m).bind h

/-- A result that is made of what a run yields. -/
theorem andReturn {f : α → Run β} (h : m.Within m') : (m >>= f).Within (m' >>= f) :=
  h.bind fun a => .refl (f a)

theorem foldlM {g g' : β → α → Run β} (h : ∀ b a, (g b a).Within (g' b a)) (l : List α) (b : β) :
    (l.foldlM g b).Within (l.foldlM g' b) := by
  induction l generalizing b with
  | nil => exact .refl _
  | cons a rest ih =>
    rw [List.foldlM_cons, List.foldlM_cons]
    exact (h b a).bind ih

theorem forM {g g' : α → Run PUnit} (h : ∀ a, (g a).Within (g' a)) (l : List α) :
    (l.forM g).Within (l.forM g') := by
  induction l with
  | nil => exact .refl _
  | cons a rest ih => exact (h a).bind fun _ => ih

end Within

end Run

/-! ## Blocks -/

/-- Calls do what others do unless they go too deep. -/
def CallFunction.Within (call call' : CallFunction) : Prop :=
  ∀ name ids caller, (call name ids caller).Within (call' name ids caller)

section Blocks

variable {call call' : CallFunction}

theorem within_deleteOwned (h : call.Within call') (callee : Callee) (ids : List Int) :
    (deleteOwned call callee ids).Within (deleteOwned call' callee ids) := by
  unfold deleteOwned
  split
  · exact .refl _
  · exact h _ _ _

theorem within_runTyped (h : call.Within call') (b : SubtypeDispatch Callee) (d : Discriminator)
    (frame : Frame) (id : Int) :
    (b.runTyped call d frame id).Within (b.runTyped call' d frame id) := by
  unfold SubtypeDispatch.runTyped
  refine .andThen (fun rows => ?_) _
  split
  · exact .refl _
  · split
    · exact .refl _
    · exact (h _ _ _).andReturn

theorem within_subtypeDispatch (h : call.Within call') (b : SubtypeDispatch Callee)
    (batch : List Int) (caller : Caller) (frame : Frame) :
    (b.run call batch caller frame).Within (b.run call' batch caller frame) := by
  have hhooks (frame : Frame) := (Run.Within.forM (fun hook : Callee =>
    (h hook.function batch .fromParent).andReturn (f := fun _ => pure ())) b.hooks).andReturn
      (f := fun _ => pure frame)
  unfold SubtypeDispatch.run
  dsimp only
  split
  · split
    · exact .andThen hhooks _
    · exact (Run.Within.foldlM (within_runTyped h b _) _ _).bind hhooks
  · exact .andThen hhooks _

/-- **A block does the same unless its calls go too deep.** -/
theorem Block.within_run (h : call.Within call') (b : Block Callee) (f : DeleteFunction)
    (batch : List Int) (caller : Caller) (frame : Frame) :
    (b.run call f batch caller frame).Within (b.run call' f batch caller frame) := by
  cases b with
  | selfParts b =>
    have hfinish (parts : List Row) := (within_deleteOwned h b.callee
      (parts.filterMap (·.get? f.keyColumn))).andReturn
        (f := fun deleted => pure { frame with deletedParts := frame.deletedParts ++ deleted })
    dsimp only [Block.run, SelfParts.run]
    split
    · exact .andThen hfinish _
    · exact .andThen hfinish _
  | childCascade b =>
    have hfinish (children : List Row) := Run.Within.andThen (fun ids =>
      (within_deleteOwned h b.callee ids).andReturn (f := fun _ => pure frame))
        (stillUnowned b.child b.childKey b.ownerCheck (children.filterMap (·.get? b.childKey)))
    refine .andThen (fun children => ?_) _
    dsimp only
    split
    · exact .andThen (fun _ => hfinish children) _
    · exact hfinish children
  | bridgeCascade b =>
    refine .andThen (fun links => ?_) _
    split
    · exact .refl _
    · exact .andThen (fun ids => (within_deleteOwned h _ ids).andReturn) _
  | subtypeDispatch b => exact within_subtypeDispatch h b batch caller frame
  | localDelete captured => exact .refl _
  | referencedCleanup b => exact .andThen (fun ids => (within_deleteOwned h _ ids).andReturn) _
  | parentCascade callee =>
    dsimp only [Block.run, runParentCascade]
    split
    · exact .refl _
    · exact (h _ _ _).andReturn

end Blocks

/-! ## Calls -/

namespace Program

variable {functions : List DeleteFunction} {depth depth' : Nat} {s : Store} {name : String}
variable {ids : List Int} {e : RunError}

/-- **More levels change nothing** unless there were too few. The calls that
are noted are as deep as before: both limits are larger by the same. -/
theorem within_call (functions : List DeleteFunction) (depth more levels : Nat) :
    CallFunction.Within ((Program.mk functions depth).call levels)
      ((Program.mk functions (depth + more)).call (levels + more)) := by
  induction levels with
  | zero => exact fun name _ _ st => Or.inl ⟨name, depth + 1, st, rfl⟩
  | succ deeper ih =>
    intro name ids caller
    rw [show deeper + 1 + more = deeper + more + 1 by omega]
    -- the functions are the same
    have hlookup : (Program.mk functions (depth + more)).lookup name =
        (Program.mk functions depth).lookup name := rfl
    unfold call
    rw [hlookup]
    cases (Program.mk functions depth).lookup name with
    | none => exact .refl _
    | some f =>
      dsimp only
      rw [Nat.add_sub_add_right]
      refine .andThen (fun _ => ?_) _
      split
      · exact .refl _
      · exact (Run.Within.foldlM (fun frame b => b.within_run ih f _ caller frame) _ _).andReturn

/-- **A deletion that is not stopped by the limit** comes to the same under
every larger one. -/
theorem delete_eq_of_le (hle : depth ≤ depth')
    (h : ∀ function reached,
      (Program.delete ⟨functions, depth⟩ s name ids).result ≠ .error (.tooDeep function reached)) :
    Program.delete ⟨functions, depth'⟩ s name ids =
      Program.delete ⟨functions, depth⟩ s name ids := by
  obtain ⟨more, rfl⟩ := Nat.exists_eq_add_of_le hle
  have hwithin := within_call functions depth more (depth + 1) name ids .external ⟨s, []⟩
  rw [show depth + 1 + more = depth + more + 1 by omega] at hwithin
  unfold delete at h ⊢
  dsimp only at h ⊢
  rcases hwithin with ⟨function, reached, st, hdeep⟩ | heq
  · rw [hdeep] at h
    exact absurd rfl (h function reached)
  · rw [heq]

/-- **A deletion that fails for another reason** succeeds under no limit. -/
theorem result_ne_ok_of_error
    (h : (Program.delete ⟨functions, depth⟩ s name ids).result = .error e)
    (he : ∀ function reached, e ≠ .tooDeep function reached) (depth' : Nat) (deleted : List Int) :
    (Program.delete ⟨functions, depth'⟩ s name ids).result ≠ .ok deleted := by
  intro h'
  rcases Nat.le_total depth depth' with hle | hle
  · rw [delete_eq_of_le hle fun function reached hdeep => ?_, h] at h'
    · cases h'
    · rw [h] at hdeep
      cases hdeep
      exact he function reached rfl
  · rw [← delete_eq_of_le hle fun function reached hdeep => ?_, h] at h'
    · cases h'
    · rw [h'] at hdeep
      cases hdeep

end Program

end DeleteCascade
