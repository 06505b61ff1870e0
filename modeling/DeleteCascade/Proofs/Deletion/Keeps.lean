import DeleteCascade.Proofs.Deletion.Doom
/-!
# Deletion — what every statement keeps

The functions of a script change a store in two ways: they delete rows, and
they make a column NULL (`Block.Clears`). What both keep, a whole run keeps
(`Program.call_keeps_of_statements`), whatever the foreign keys do on their
own. Functions that were synthesized clear only columns of links that are not
the key, and so keep every `Invariant` of the schema (`Program.call_keeps`).
-/

namespace DeleteCascade

/-- **The columns that a block makes NULL**, in the rows that pass a test. -/
inductive Block.Clears (f : DeleteFunction) (batch : List Int) :
    Block Callee → TableName → String → (Row → Bool) → Prop
  | selfParts {b : SelfParts Callee} (detach : b.detach = true) :
      Clears f batch (.selfParts b) f.table b.column (f.isPart batch b.column)
  | childCascade {b : ChildCascade Callee} (detach : b.detach = true) :
      Clears f batch (.childCascade b) b.child b.column (pointsInto batch b.column)

/-- **What every statement keeps**, of the stores over a schema. A column
that becomes NULL is that of a link. -/
structure Store.Invariant (g : Schema) (P : Store → Prop) : Prop where
  schema : ∀ {s}, P s → s.schema = g
  delete : ∀ {s s' t test removed}, P s → s.deleteWhere t test = .ok (removed, s') → P s'
  clear : ∀ {s t k c test}, P s → g.key? t = some k →
    (∀ r ∈ s.rows t, test r = true → sameName c k = false) →
    (g.Regular → ∃ u, g.Link t c u) → P (s.clearWhere t c test)

section Keeps

variable {σ : Setting} {P : Store → Prop} {C : Calls} {f : DeleteFunction} {batch : List Int}
variable {caller : Caller} {s s' : Store} {notes captured : List String}

/-- A row is no part by its own key. -/
theorem DeleteFunction.not_isPart_key {c : String} (hc : sameName c f.keyColumn) (r : Row) :
    f.isPart batch c r = false := by
  simp [isPart, Row.get?_congr r hc]

/-- The column that ties parts to a row is not the key, or nothing is a part. -/
theorem DeleteFunction.isPart_key {c : String} {r : Row} (h : f.isPart batch c r = true) :
    sameName c f.keyColumn = false := by
  by_contra hc
  rw [f.not_isPart_key (by simpa using hc) r] at h
  cases h

theorem Store.Takes.keeps_of_clear {t : TableName} {c : String} {test : Row → Bool}
    {detach : Bool} {rows : List Row} (h : s.Takes t c test detach rows s')
    (hclear : detach = true → P s → P (s.clearWhere t c test)) (hs : P s) : P s' := by
  rw [h.store]
  split
  · rename_i hdetach
    exact hclear hdetach hs
  · exact hs

theorem DeletesOwned.keeps {callee : Callee} {ids deleted : List Int}
    (h : DeletesOwned C callee ids s deleted s')
    (hC : ∀ {n ids caller s deleted s'}, C n ids caller s deleted s' → P s → P s') (hs : P s) :
    P s' := by
  cases h with
  | idle => exact hs
  | call run => exact hC run hs

theorem Dispatches.keeps {callees : List Callee} {noted noted' : List Int}
    (h : Dispatches C callees batch noted s noted' s')
    (hC : ∀ {n ids caller s deleted s'}, C n ids caller s deleted s' → P s → P s') (hs : P s) :
    P s' := by
  induction h with
  | done => exact hs
  | call callee ids_subset run reported _ ih => exact ih (hC run hs)

/-- **A block keeps what its statements and its calls keep.** -/
theorem Block.Runs.keeps_of_statements {b : Block Callee} {frame frame' : Frame}
    (hdelete : ∀ {s s' t test removed}, P s → s.deleteWhere t test = .ok (removed, s') → P s')
    (hclear : ∀ t c test s, b.Clears f batch t c test → P s → P (s.clearWhere t c test))
    (hC : ∀ {n ids caller s deleted s'}, C n ids caller s deleted s' → P s → P s')
    (h : b.Runs C f batch caller frame s frame' s') (hs : P s) : P s' := by
  cases h with
  | selfParts take call =>
    exact call.keeps hC
      (take.keeps_of_clear (fun hdetach => hclear _ _ _ _ (.selfParts hdetach)) hs)
  | childCascade take call =>
    exact call.keeps hC
      (take.keeps_of_clear (fun hdetach => hclear _ _ _ _ (.childCascade hdetach)) hs)
  | bridgeOnly remove => exact hdelete hs remove
  | bridgeCascade remove _ call => exact call.keeps hC (hdelete hs remove)
  | subtypeDispatch calls => exact calls.keeps hC hs
  | localDelete remove => exact hdelete hs remove
  | referencedCleanup call => exact call.keeps hC hs
  | noParent => exact hs
  | parentCascade _ run => exact hC run hs

theorem Block.RunsAll.keeps_of_statements {bs : List (Block Callee)} {frame frame' : Frame}
    (hdelete : ∀ {s s' t test removed}, P s → s.deleteWhere t test = .ok (removed, s') → P s')
    (hclear : ∀ b ∈ bs, ∀ t c test s, b.Clears f batch t c test → P s → P (s.clearWhere t c test))
    (hC : ∀ {n ids caller s deleted s'}, C n ids caller s deleted s' → P s → P s')
    (h : Block.RunsAll C f batch caller bs frame s frame' s') (hs : P s) : P s' := by
  induction h with
  | nil => exact hs
  | cons first _ ih =>
    exact ih (fun b hb => hclear b (by simp [hb]))
      (first.keeps_of_statements hdelete (hclear _ (by simp)) hC hs)

/-- **A call keeps what every statement of the program keeps.** -/
theorem Program.call_keeps_of_statements {p : Program} {name : String} {ids deleted : List Int}
    {levels : Nat}
    (hdelete : ∀ {s s' t test removed}, P s → s.deleteWhere t test = .ok (removed, s') → P s')
    (hclear : ∀ name f, p.lookup name = some f → ∀ b ∈ f.blocks, ∀ batch t c test s,
      Block.Clears f batch b t c test → P s → P (s.clearWhere t c test))
    (h : (p.call levels name ids caller).Yields s deleted s') (hs : P s) : P s' := by
  suffices hall : ∃ f, p.lookup name = some f ∧ (P s → P s') by
    obtain ⟨-, -, hkeeps⟩ := hall
    exact hkeeps hs
  refine p.call_induction (S := fun _ _ _ s _ s' => P s → P s') ?_ h
  intro deeper name f hf hcalls ids caller s deleted s' hrun hs
  cases hrun with
  | idle => exact hs
  | body hrun =>
    refine hrun.keeps_of_statements hdelete (fun b hb => hclear name f hf b hb _)
      (fun hcall hs => ?_) hs
    obtain ⟨-, -, hkeeps⟩ := hcalls hcall
    exact hkeeps hs

/-! ## Functions that were synthesized -/

theorem Store.Takes.keeps (hP : Store.Invariant σ.schema P) {t : TableName} {k c : String}
    {test : Row → Bool} {detach : Bool} {rows : List Row}
    (h : s.Takes t c test detach rows s') (hk : σ.schema.key? t = some k)
    (hkey : ∀ r ∈ s.rows t, test r = true → sameName c k = false)
    (hlink : σ.schema.Regular → ∃ u, σ.schema.Link t c u) (hs : P s) : P s' :=
  h.keeps_of_clear (fun _ hs => hP.clear hs hk hkey hlink) hs

/-- **A planned block clears no key**, and only columns of links. -/
theorem Block.Clears.notKey (hkey : σ.schema.key? f.table = some f.keyColumn) {b : Block Callee}
    (hplan : σ.Plans f.table (·.table) notes captured b) {t : TableName} {c : String}
    {test : Row → Bool} (h : b.Clears f batch t c test) : ∃ k, σ.schema.key? t = some k ∧
      (∀ r, test r = true → sameName c k = false) ∧
        (σ.schema.Regular → ∃ u, σ.schema.Link t c u) := by
  cases h with
  | selfParts =>
    cases hplan with
    | selfParts link =>
      exact ⟨_, hkey, fun r htest => f.isPart_key htest, fun hg => ⟨_, link hg⟩⟩
  | childCascade =>
    cases hplan with
    | childCascade link other key notKey =>
      refine ⟨_, key, fun r _ => ?_, fun _ => ⟨_, link⟩⟩
      rw [sameName_comm]
      exact notKey

theorem Store.Invariant.clears (hP : Store.Invariant σ.schema P)
    (hkey : σ.schema.key? f.table = some f.keyColumn) {b : Block Callee}
    (hplan : σ.Plans f.table (·.table) notes captured b) {t : TableName} {c : String}
    {test : Row → Bool} (h : b.Clears f batch t c test) (hs : P s) : P (s.clearWhere t c test) := by
  obtain ⟨k, hk, hother, hlink⟩ := h.notKey hkey hplan
  exact hP.clear hs hk (fun r _ => hother r) hlink

/-- **Every block keeps what the statements keep.** -/
theorem Block.Runs.keeps (hP : Store.Invariant σ.schema P)
    (hkey : σ.schema.key? f.table = some f.keyColumn) {b : Block Callee} {frame frame' : Frame}
    (hplan : σ.Plans f.table (·.table) notes captured b)
    (hC : ∀ {n ids caller s deleted s'}, C n ids caller s deleted s' → P s → P s')
    (h : b.Runs C f batch caller frame s frame' s') (hs : P s) : P s' :=
  h.keeps_of_statements hP.delete (fun _ _ _ _ => hP.clears hkey hplan) hC hs

theorem Block.RunsAll.keeps (hP : Store.Invariant σ.schema P)
    (hkey : σ.schema.key? f.table = some f.keyColumn) {bs : List (Block Callee)}
    {frame frame' : Frame} (hplans : ∀ b ∈ bs, σ.Plans f.table (·.table) notes captured b)
    (hC : ∀ {n ids caller s deleted s'}, C n ids caller s deleted s' → P s → P s')
    (h : Block.RunsAll C f batch caller bs frame s frame' s') (hs : P s) : P s' :=
  h.keeps_of_statements hP.delete (fun b hb _ _ _ _ => hP.clears hkey (hplans b hb)) hC hs

end Keeps

/-- **Every call keeps what the statements keep.** -/
theorem Program.call_keeps {p : Program} {σ : Setting} {notes : List String} {P : Store → Prop}
    {name : String} {ids deleted : List Int} {caller : Caller} {levels : Nat} {s s' : Store}
    (hP : Store.Invariant σ.schema P)
    (hserves : ∀ {name f}, p.lookup name = some f → p.Serves σ notes f)
    (h : (p.call levels name ids caller).Yields s deleted s') (hs : P s) : P s' := by
  refine call_keeps_of_statements hP.delete (fun name f hf b hb _ _ _ _ _ => ?_) h hs
  obtain ⟨hkey, ⟨captured, front, back, hblocks, hbody⟩, -⟩ := hserves hf
  exact hP.clears hkey (hbody.plans b (hblocks ▸ hb))

end DeleteCascade
