import DeleteCascade.Proofs.Deletion.Intact
import DeleteCascade.Proofs.Run.Failures
/-!
# Deletion — runs that do not break off

A run is safe on a store if nothing but the depth of the calls can stop it
there (`Run.Safe`). A block is safe as far as its statements succeed and its
calls are safe. A statement that deletes rows succeeds if every row that
points at one of them goes with it (`Store.exists_deleteWhere`).
-/

namespace DeleteCascade

/-! ## Statements that succeed -/

namespace Store

variable {s : Store} {t : TableName} {c k : String} {test : Row → Bool}

theorem exists_select (ht : (s.schema.table? t).isSome) (test : Row → Bool) :
    ∃ rs, s.select t test = .ok rs := by
  obtain ⟨d, hd⟩ := Option.isSome_iff_exists.1 ht
  exact ⟨_, by simp only [select, table, hd]; rfl⟩

/-- A column that the table lists and that takes NULL can be cleared. -/
theorem exists_setNullWhere {d : Table} (hd : s.schema.table? t = some d)
    (hlisted : (d.column? c).isSome) (hnull : s.schema.isNullable t c = true) (test : Row → Bool) :
    ∃ rs, s.setNullWhere t c test = .ok (rs, s.clearWhere t c test) := by
  obtain ⟨col, hcol⟩ := Option.isSome_iff_exists.1 hlisted
  have hcolnull : col.nullable = true := by
    simpa [Schema.isNullable, hd, Table.isNullable, hcol] using hnull
  refine ⟨(s.rows t).filter test, ?_⟩
  simp only [setNullWhere, table, hd, hcol, hcolnull, Bool.not_true, Bool.false_and]
  rfl

/-- Enforcement succeeds if keys only restrict and no row is concerned. -/
theorem enforce_of_none {pending : List Enforcement}
    (hpending : ∀ e ∈ pending, e.foreignKey.onDelete = .noAction ∨ e.foreignKey.onDelete = .restrict)
    (hnone : ∀ e ∈ pending, ∀ r ∈ s.rows e.foreignKey.source, e.concerns r = false) :
    s.enforce pending = .ok s := by
  induction pending with
  | nil => rw [enforce]
  | cons e rest ih =>
    have hrest := ih (fun e' he' => hpending e' (by simp [he'])) fun e' he' =>
      hnone e' (by simp [he'])
    have hany : (s.rows e.foreignKey.source).any e.concerns = false := by
      simpa using hnone e (by simp)
    rw [enforce]
    rcases hpending e (by simp) with hact | hact <;> simp [hact, hany, hrest]

/-- **Rows can be deleted** if every row that points at one of them is
deleted with it. -/
theorem exists_deleteWhere (hg : s.schema.Regular) (hr : s.schema.Restricts)
    (ht : (s.schema.table? t).isSome)
    (htogether : ∀ u c, s.schema.Link u c t → ∀ q ∈ s.rows u, ∀ v, q.get? c = some v →
      ∀ k, s.schema.key? t = some k → ∀ p ∈ s.rows t, p.get? k = some v → test p = true →
        u.same t ∧ test q = true) :
    ∃ removed s', s.deleteWhere t test = .ok (removed, s') := by
  obtain ⟨d, hd⟩ := Option.isSome_iff_exists.1 ht
  have hkeys {e : Enforcement}
      (he : e ∈ enforcements s.schema t ((s.rows t).filter test)) :
      e.foreignKey.onDelete = .noAction ∨ e.foreignKey.onDelete = .restrict := by
    obtain ⟨fk, hfk, a, p, -, -, rfl⟩ := mem_enforcements.1 he
    exact hr fk (Schema.mem_foreignKeysTo.1 hfk).1
  refine ⟨(s.rows t).filter test, s.removeRows t test, ?_⟩
  have henforce : (s.removeRows t test).enforce
      (enforcements s.schema t ((s.rows t).filter test)) = .ok (s.removeRows t test) := by
    refine enforce_of_none (fun e he => hkeys he) fun e he q hq => ?_
    obtain ⟨fk, hfk, a, p, hcols, -, rfl⟩ := mem_enforcements.1 he
    obtain ⟨hmem, htarget⟩ := Schema.mem_foreignKeysTo.1 hfk
    obtain ⟨a', p', k, hcols', hk, hkp⟩ := hg.columns? hmem
    rw [hcols] at hcols'
    cases hcols'
    rw [rows_removeRows] at hq
    refine Bool.eq_false_iff.2 fun hconcerned => ?_
    have hqs : q ∈ s.rows fk.source := by
      split at hq
      · exact (List.mem_filter.1 hq).1
      · exact hq
    obtain ⟨v, hv, hin⟩ : ∃ v, q.get? a = some v ∧
        v ∈ ((s.rows t).filter test).filterMap (·.get? p) := by
      unfold Enforcement.concerns at hconcerned
      dsimp only at hconcerned
      split at hconcerned
      · rename_i v hv
        exact ⟨v, hv, List.contains_iff_mem.1 hconcerned⟩
      · cases hconcerned
    obtain ⟨r, hrow, hrv⟩ := List.mem_filterMap.1 hin
    obtain ⟨hrs, htest⟩ := List.mem_filter.1 hrow
    -- the row that is concerned would have gone as well
    obtain ⟨hsame, hout⟩ := htogether fk.source a
      ((Schema.link_of_mem_foreignKeys hmem hcols).congr (by simp) (by simp) htarget) q hqs v hv k
      (by rw [← Schema.key?_congr htarget, hk]) r hrs (by rw [Row.get?_congr r hkp, hrv]) htest
    rw [if_pos (by rwa [TableName.same_comm])] at hq
    have hkept := (List.mem_filter.1 hq).2
    rw [hout] at hkept
    cases hkept
  simp only [deleteWhere, table, hd, henforce]
  rfl

end Store

/-! ## Runs -/

namespace Run

variable {α β : Type}

/-- **A run is safe on a store**: if it fails at all, then because the calls
were too deep. -/
def Safe (m : Run α) (s : Store) : Prop :=
  ∀ trace e st, m ⟨s, trace⟩ = .error e st → ∃ function depth, e = .tooDeep function depth

variable {m : Run α} {s : Store}

theorem safe_bind {f : α → Run β} (hm : m.Safe s)
    (hf : ∀ a s', m.Yields s a s' → (f a).Safe s') : (m >>= f).Safe s :=
  failsOnly_bind hm hf

/-- **A chain of steps is safe** if every step is, where each step keeps what
the next one needs, and in the end this holds of all items. -/
theorem safe_foldlM {g : β → α → Run β} {P : List α → β → Store → Prop} {l : List α} {b : β}
    (hstep : ∀ done a rest b s, l = done ++ a :: rest → P done b s →
      (g b a).Safe s ∧ ∀ b' s', (g b a).Yields s b' s' → P (done ++ [a]) b' s')
    (h : P [] b s) :
    (l.foldlM g b).Safe s ∧ ∀ b' s', (l.foldlM g b).Yields s b' s' → P l b' s' :=
  failsOnly_foldlM hstep h

end Run

/-- A statement that succeeds has no errors. -/
theorem Store.error_of_ok {α : Type} {r : Except StoreError α} {E : StoreError → Prop}
    (h : ∃ a, r = .ok a) : ∀ e, r = .error e → E e := by
  obtain ⟨a, rfl⟩ := h
  intro e he
  cases he

/-! ## Blocks -/

section Safe

variable {call : CallFunction} {f : DeleteFunction} {batch ids : List Int} {caller : Caller}
variable {frame : Frame} {s : Store}

namespace Block

/-- Parts that are cut off are called for next. -/
theorem safe_selfParts {b : SelfParts Callee} (hdetach : b.detach = true)
    (hclear : ∃ rs, s.setNullWhere f.table b.column (f.isPart batch b.column) =
      .ok (rs, s.clearWhere f.table b.column (f.isPart batch b.column)))
    (hcall : (call b.callee.function
      (((s.rows f.table).filter (f.isPart batch b.column)).filterMap (·.get? f.keyColumn))
        .fromOwner).Safe (s.clearWhere f.table b.column (f.isPart batch b.column))) :
    (b.run call f batch frame).Safe s := by
  obtain ⟨rs, hset⟩ := hclear
  refine failsOnly_selfParts (fun _ => Store.error_of_ok ⟨_, hset⟩) (fun hkept => ?_)
    fun parts s₁ htake => ?_
  · rw [hdetach] at hkept
    cases hkept
  · obtain ⟨rfl, rfl⟩ := htake
    rw [if_pos hdetach]
    exact hcall

/-- Children are called for after they are cut off, if they are. -/
theorem safe_childCascade {b : ChildCascade Callee} (htable : (s.schema.table? b.child).isSome)
    (hclear : b.detach = true → ∃ rs, s.setNullWhere b.child b.column (pointsInto batch b.column) =
      .ok (rs, s.clearWhere b.child b.column (pointsInto batch b.column)))
    (hcall : ∀ children s₁,
      s.Takes b.child b.column (pointsInto batch b.column) b.detach children s₁ →
      (call b.callee.function (s₁.unowned b.child b.childKey b.ownerCheck
        (children.filterMap (·.get? b.childKey))) .fromOwner).Safe s₁) :
    (b.run call batch frame).Safe s :=
  failsOnly_childCascade (Store.error_of_ok (Store.exists_select htable _))
    (fun hdetach => Store.error_of_ok ((hclear hdetach).imp' _ fun _ h => h)) hcall

/-- What is behind a bridge is called for after the links are gone. -/
theorem safe_bridgeCascade {b : BridgeCascade Callee}
    (hdelete : ∃ links s₁, s.deleteWhere b.bridge (pointsInto batch b.nearColumn) = .ok (links, s₁))
    (hcall : ∀ callee, b.callee = some callee → ∀ links s₁,
      s.deleteWhere b.bridge (pointsInto batch b.nearColumn) = .ok (links, s₁) →
      (call callee.function (s₁.unowned b.target b.targetKey b.ownerCheck
        (links.filterMap (·.get? b.farColumn))) .fromOwner).Safe s₁) :
    (b.run call batch frame).Safe s := by
  obtain ⟨links, s₁, hremove⟩ := hdelete
  exact failsOnly_bridgeCascade (Store.error_of_ok ⟨_, hremove⟩) hcall

/-- **A dispatch is safe** if the calls of its subtypes are, and keep what
the next ones need. -/
theorem safe_subtypeDispatch {b : SubtypeDispatch Callee} {P : Store → Prop}
    (htable : ∀ d, b.discriminator = some d → ∀ s, P s → (s.schema.table? d.table).isSome)
    (htyped : caller.skipsSubtypes = false → ∀ case ∈ b.cases, ∀ id ∈ batch, ∀ s, P s →
      (call case.callee.function [id] .fromParent).Safe s)
    (hhooks : ∀ hook ∈ b.hooks, ∀ s, P s → (call hook.function batch .fromParent).Safe s)
    (hkeeps : ∀ c ∈ (Block.subtypeDispatch b).callees, ∀ ids, ids ⊆ batch → ∀ s deleted s', P s →
      (call c.function ids .fromParent).Yields s deleted s' → P s') (h : P s) :
    (b.run call batch caller frame).Safe s :=
  failsOnly_subtypeDispatch
    (fun d hd _ s hs => Store.error_of_ok (Store.exists_select (htable d hd s hs) _))
    htyped hhooks hkeeps h

theorem safe_localDelete {captured : List String}
    (hdelete : ∃ rows s', s.deleteWhere f.table (pointsInto batch f.keyColumn) = .ok (rows, s')) :
    (runLocalDelete captured f batch frame).Safe s := by
  obtain ⟨rows, s', hremove⟩ := hdelete
  exact failsOnly_localDelete (Store.error_of_ok ⟨_, hremove⟩)

theorem safe_referencedCleanup {b : ReferencedCleanup Callee}
    (hcall : (call b.callee.function (s.unowned b.target b.targetKey b.ownerCheck
      ((frame.captured[b.slot]?).getD [])) .fromOwner).Safe s) : (b.run call frame).Safe s :=
  failsOnly_referencedCleanup hcall

theorem safe_parentCascade {callee : Callee}
    (hcall : caller.skipsParent = false → (call callee.function frame.deleted .fromSubtype).Safe s) :
    (runParentCascade callee call caller frame).Safe s :=
  failsOnly_parentCascade hcall

end Block

end Safe

end DeleteCascade
