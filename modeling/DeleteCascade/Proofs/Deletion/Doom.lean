import DeleteCascade.Proofs.Deletion.Closure
import DeleteCascade.Proofs.Run.Steps
import DeleteCascade.Proofs.Synthesis.Program
/-!
# Deletion — rows that are gone or will be

A run only takes rows and values away (`call_within`), and a function that
was called has deleted every row of its batch (`call_gone`). While it runs
its batch is doomed: whatever the row is needed for, it will not be there in
the end. `Going` says that a row is gone or doomed. It is what the proofs
about whole runs have in place of `gone`, since links are cut and callers
are left behind before the rows they belong to are deleted.
-/

namespace DeleteCascade

/-- Rows that will be deleted in any case, by table and key. -/
abbrev Doom := TableName → Int → Prop

namespace Doom

/-- With the rows of one more batch. -/
def add (D : Doom) (t : TableName) (ids : List Int) : Doom := fun u v => D u v ∨ (t.same u ∧ v ∈ ids)

/-- Nothing is doomed. -/
def nothing : Doom := fun _ _ => False

end Doom

namespace Store

variable {s s' : Store} {D D' : Doom} {t u : TableName} {v : Int} {ids : List Int}

/-- **A row is gone or will be.** -/
def Going (s : Store) (D : Doom) (t : TableName) (v : Int) : Prop := ¬ s.HasRow t v ∨ D t v

theorem Going.of_within (h : s.Going D t v) (hw : s'.Within s) : s'.Going D t v :=
  h.imp (fun hgone hrow => hgone (hrow.of_within hw)) id

theorem Going.mono (h : s.Going D t v) (hD : ∀ u v, D u v → D' u v) : s.Going D' t v :=
  h.imp id (hD t v)

theorem Going.add (h : s.Going D t v) (u : TableName) (ids : List Int) :
    s.Going (D.add u ids) t v :=
  h.mono fun _ _ => Or.inl

theorem going_add (hsame : t.same u) (hv : v ∈ ids) : s.Going (D.add t ids) u v :=
  Or.inr (Or.inr ⟨hsame, hv⟩)

/-- A doomed batch that is gone need not be doomed. -/
theorem Going.of_add (h : s.Going (D.add u ids) t v) (hgone : ∀ id ∈ ids, ¬ s.HasRow u id) :
    s.Going D t v := by
  rcases h with h | h | ⟨hsame, hv⟩
  · exact Or.inl h
  · exact Or.inr h
  · exact Or.inl fun hrow => hgone v hv ((hasRow_congr hsame).2 hrow)

end Store

/-! ## Runs take rows and values away -/

section Within

variable {C : Calls} {f : DeleteFunction} {batch : List Int} {caller : Caller} {s s' : Store}

theorem Store.Takes.within {t : TableName} {column : String} {test : Row → Bool} {detach : Bool}
    {rows : List Row} (h : s.Takes t column test detach rows s') : s'.Within s := by
  rw [h.store]
  split
  · exact Store.within_clearWhere s t column test
  · exact .refl s

theorem DeletesOwned.within {callee : Callee} {ids deleted : List Int}
    (h : DeletesOwned C callee ids s deleted s')
    (hC : ∀ {n ids caller s deleted s'}, C n ids caller s deleted s' → s'.Within s) :
    s'.Within s := by
  cases h with
  | idle => exact .refl s
  | call run => exact hC run

theorem Dispatches.within {callees : List Callee} {noted noted' : List Int}
    (h : Dispatches C callees batch noted s noted' s')
    (hC : ∀ {n ids caller s deleted s'}, C n ids caller s deleted s' → s'.Within s) :
    s'.Within s := by
  induction h with
  | done => exact .refl _
  | call callee ids_subset run reported _ ih => exact ih.trans (hC run)

theorem Block.Runs.within {b : Block Callee} {frame frame' : Frame}
    (h : b.Runs C f batch caller frame s frame' s')
    (hC : ∀ {n ids caller s deleted s'}, C n ids caller s deleted s' → s'.Within s) :
    s'.Within s := by
  cases h with
  | selfParts take call => exact (call.within hC).trans take.within
  | childCascade take call => exact (call.within hC).trans take.within
  | bridgeOnly remove => exact Store.within_deleteWhere remove
  | bridgeCascade remove _ call => exact (call.within hC).trans (Store.within_deleteWhere remove)
  | subtypeDispatch calls => exact calls.within hC
  | localDelete remove => exact Store.within_deleteWhere remove
  | referencedCleanup call => exact call.within hC
  | noParent => exact .refl s
  | parentCascade _ run => exact hC run

theorem Block.RunsAll.within {bs : List (Block Callee)} {frame frame' : Frame}
    (h : Block.RunsAll C f batch caller bs frame s frame' s')
    (hC : ∀ {n ids caller s deleted s'}, C n ids caller s deleted s' → s'.Within s) :
    s'.Within s := by
  induction h with
  | nil => exact .refl _
  | cons first _ ih => exact ih.trans (first.within hC)

theorem DeleteFunction.Runs.within {deleted : List Int} (h : f.Runs C batch caller s deleted s')
    (hC : ∀ {n ids caller s deleted s'}, C n ids caller s deleted s' → s'.Within s) :
    s'.Within s := by
  cases h with
  | idle => exact .refl s
  | body run => exact run.within hC

end Within

/-! ## Batches are gone -/

namespace Program

variable {p : Program} {σ : Setting} {notes : List String} {name : String} {ids deleted : List Int}
variable {caller : Caller} {s s' : Store} {levels : Nat}

/-- **A run only takes rows and values away.** -/
theorem call_within (h : (p.call levels name ids caller).Yields s deleted s') : s'.Within s := by
  obtain ⟨-, -, hwithin⟩ := p.call_induction (S := fun _ _ _ s _ s' => s'.Within s)
    (fun _ hcalls _ _ _ _ _ hrun => hrun.within fun hcall => by
      obtain ⟨-, -, hwithin⟩ := hcalls hcall
      exact hwithin) h
  exact hwithin

/-- Deleting the rows of a batch by their key leaves none of them. -/
theorem not_hasRow_of_deleteWhere {t : TableName} {k : String} {batch : List Int}
    {removed : List Row} (hk : s.schema.key? t = some k)
    (h : s.deleteWhere t (pointsInto batch k) = .ok (removed, s')) {v : Int} (hv : v ∈ batch) :
    ¬ s'.HasRow t v := by
  intro hrow
  obtain ⟨l, hl, r, hr, hrv⟩ := hrow.of_within (Store.within_enforce (Store.deleteWhere_eq_ok h).2)
  rw [Store.schema_removeRows, hk] at hl
  cases hl
  rw [Store.rows_removeRows, if_pos (by simp)] at hr
  have htest := (List.mem_filter.1 hr).2
  rw [pointsInto_iff.2 ⟨v, hv, hrv⟩] at htest
  cases htest

/-- **A function leaves no row of its batch.** -/
theorem gone_of_runs {f : DeleteFunction} (hserves : p.Serves σ notes f)
    (hs : s.schema = σ.schema)
    (h : f.Runs (CallFunction.calls (p.call levels)) (ascending ids) caller s deleted s') :
    ∀ id ∈ ids, ¬ s'.HasRow f.table id := by
  intro id hid
  obtain ⟨captured, front, back, hblocks, -⟩ := hserves.body
  cases h with
  | idle hempty =>
    have hmem := mem_ascending.2 hid
    rw [hempty] at hmem
    cases hmem
  | body hrun =>
    rw [hblocks] at hrun
    obtain ⟨frame₁, s₁, hfront, hrest⟩ := hrun.append
    cases hrest with
    | cons hlocal hback =>
      cases hlocal with
      | localDelete remove =>
        have hschema : s₁.schema = σ.schema := (hfront.within call_within).schema.trans hs
        have hgone := not_hasRow_of_deleteWhere (by rw [hschema]; exact hserves.key) remove
          (mem_ascending.2 hid)
        exact fun hrow => hgone (hrow.of_within (hback.within call_within))

/-- **A function that was called has deleted its batch.** -/
theorem call_gone (hserves : ∀ {name f}, p.lookup name = some f → p.Serves σ notes f)
    (hs : s.schema = σ.schema) (h : (p.call levels name ids caller).Yields s deleted s') :
    ∃ f, p.lookup name = some f ∧ ∀ id ∈ ids, ¬ s'.HasRow f.table id := by
  obtain ⟨deeper, f, -, hf, hrun⟩ := call_yields h
  exact ⟨f, hf, gone_of_runs (hserves hf) hs hrun⟩

/-- The rows that a call of an owner was made for are gone. -/
theorem gone_of_deletesOwned {callee : Callee}
    (hserves : ∀ {name f}, p.lookup name = some f → p.Serves σ notes f)
    (hcallee : ∀ g, p.lookup callee.function = some g → g.table.same callee.table)
    (hs : s.schema = σ.schema)
    (h : DeletesOwned (CallFunction.calls (p.call levels)) callee ids s deleted s') :
    ∀ id ∈ ids, ¬ s'.HasRow callee.table id := by
  cases h with
  | idle => simp
  | call run =>
    obtain ⟨g, hg, hgone⟩ := call_gone hserves hs run
    exact fun id hid hrow => hgone id hid ((Store.hasRow_congr (hcallee g hg)).2 hrow)

end Program

end DeleteCascade
