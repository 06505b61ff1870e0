import DeleteCascade.Proofs.Synthesis.Cuts
import DeleteCascade.Proofs.Synthesis.Inheritance
import Mathlib.Data.Set.List
/-!
# Programs — how a body is laid out

A body goes through its sections in a fixed order, with one local delete, and
its cleanups are numbered in the order of the columns that the local delete
captures (`Layout`). Drafting lays a body out in this way, and naming what it
calls and cutting loops of owners touch neither the order nor the numbers
(`IsLaidOut.written`). A run looks a captured column up by its number alone;
that this is the column of the cleanup, with its values in the rows that went
in this very call, is `IsLaidOut.readsOwnColumns`.
-/

namespace DeleteCascade

/-- **What a body consists of**, section by section. -/
structure Layout (κ : Type) where
  parts : List (SelfParts κ)
  /-- The children and bridges, in any mix. -/
  children : List (Block κ)
  subtypes : Option (SubtypeDispatch κ)
  cleanups : List (ReferencedCleanup κ)
  parent : Option κ
  children_kind : ∀ b ∈ children, b.kind = .childCascade
  /-- The cleanups are numbered in order. -/
  slot_eq : ∀ (k : Nat) (c : ReferencedCleanup κ), cleanups[k]? = some c → c.slot = k

namespace Layout

variable {κ : Type}

/-- What comes before the rows themselves go. -/
def front (l : Layout κ) : List (Block κ) :=
  l.parts.map .selfParts ++ l.children ++ l.subtypes.toList.map .subtypeDispatch

/-- What comes after the rows themselves are gone. -/
def back (l : Layout κ) : List (Block κ) :=
  l.cleanups.map .referencedCleanup ++ l.parent.toList.map .parentCascade

/-- What the local delete captures: one column for each cleanup. -/
def captured (l : Layout κ) : List String := l.cleanups.map (·.column)

/-- **The body**: its sections in their order around one local delete. -/
def blocks (l : Layout κ) : List (Block κ) := l.front ++ .localDelete l.captured :: l.back

/-- The captured column with the number of a cleanup is the cleanup's. -/
theorem captured_slot {l : Layout κ} {b : ReferencedCleanup κ} (hb : b ∈ l.cleanups) :
    l.captured[b.slot]? = some b.column := by
  obtain ⟨k, hk⟩ := List.mem_iff_getElem?.1 hb
  rw [l.slot_eq k b hk, captured, List.getElem?_map, hk, Option.map_some]

theorem referencedCleanup_notMem_front {l : Layout κ} {b : ReferencedCleanup κ} :
    .referencedCleanup b ∉ l.front := by
  intro hb
  simp only [front, List.mem_append, List.mem_map, reduceCtorEq, and_false, exists_false, or_false,
    false_or] at hb
  have hkind := l.children_kind _ hb
  cases hkind

theorem mem_back {l : Layout κ} {b : Block κ} (hb : b ∈ l.back) :
    (∃ c ∈ l.cleanups, b = .referencedCleanup c) ∨ ∃ c, b = .parentCascade c := by
  simp only [back, List.mem_append, List.mem_map] at hb
  rcases hb with ⟨c, hc, rfl⟩ | ⟨c, -, rfl⟩
  · exact Or.inl ⟨c, hc, rfl⟩
  · exact Or.inr ⟨c, rfl⟩

/-- A cleanup in a body comes after the local delete, and is one of the
cleanups laid out. -/
theorem split_at_cleanup {l : Layout κ} {before after : List (Block κ)} {b : ReferencedCleanup κ}
    (h : l.blocks = before ++ .referencedCleanup b :: after) :
    b ∈ l.cleanups ∧ ∃ late, before = l.front ++ .localDelete l.captured :: late ∧
      ∀ c ∈ late, c.kind ≠ .localDelete := by
  rcases List.append_eq_append_iff.1 h with ⟨gap, rfl, hrest⟩ | ⟨gap, hfront, hrest⟩
  · cases gap with
    | nil => cases hrest
    | cons c late =>
      obtain ⟨rfl, hback⟩ := List.cons_eq_cons.1 hrest
      have hmem : ∀ c ∈ late ++ .referencedCleanup b :: after, (∃ d ∈ l.cleanups,
          c = .referencedCleanup d) ∨ ∃ d, c = .parentCascade d := fun c hc => mem_back (hback ▸ hc)
      refine ⟨?_, late, rfl, fun c hc => ?_⟩
      · rcases hmem (.referencedCleanup b) (by simp) with ⟨d, hd, heq⟩ | ⟨d, heq⟩
        · cases heq
          exact hd
        · cases heq
      · rcases hmem c (List.mem_append_left _ hc) with ⟨d, -, rfl⟩ | ⟨d, rfl⟩ <;> simp [Block.kind]
  · cases gap with
    | nil => cases hrest
    | cons c late =>
      obtain ⟨rfl, -⟩ := List.cons_eq_cons.1 hrest
      exact absurd (hfront ▸ by simp) (referencedCleanup_notMem_front (l := l) (b := b))

end Layout

/-- **Blocks are laid out** as a body. -/
def IsLaidOut {κ : Type} (blocks : List (Block κ)) : Prop := ∃ l : Layout κ, blocks = l.blocks

/-! ## Drafted and written bodies -/

/-- Blocks that are all of one form are listed by what is in them. -/
theorem exists_map_eq {α β : Type} {f : α → β} {bs : List β} (h : ∀ b ∈ bs, ∃ a, f a = b) :
    ∃ as : List α, bs = as.map f := by
  have hrange : bs ∈ Set.range (List.map f) := by
    rw [Set.range_list_map]
    exact h
  obtain ⟨as, rfl⟩ := hrange
  exact ⟨as, rfl⟩

namespace Setting

variable {s : Setting} {t : TableName} {blocks : List (Block TableName)}

/-- Cleanups are numbered, and have the captured columns in their order. -/
theorem exists_cleanups (targets : List (Reference × Option (List Owner))) :
    ∃ cs : List (ReferencedCleanup TableName), cleanups targets = cs.map .referencedCleanup ∧
      cs.map (·.column) = targets.map (·.1.childColumn) ∧
        ∀ (k : Nat) (c : ReferencedCleanup TableName), cs[k]? = some c → c.slot = k := by
  refine ⟨targets.mapIdx fun slot target => ⟨target.1.childColumn, slot, target.1.parent,
    target.1.parentColumn, target.2, target.1.parent⟩, List.ext_getElem? fun k => ?_,
    List.ext_getElem? fun k => ?_, fun k c hc => ?_⟩
  · simp only [cleanups, List.getElem?_map, List.getElem?_mapIdx, Option.map_map, Function.comp_def]
  · simp only [List.getElem?_map, List.getElem?_mapIdx, Option.map_map, Function.comp_def]
  · rw [List.getElem?_mapIdx] at hc
    obtain ⟨target, -, rfl⟩ := Option.map_eq_some_iff.1 hc
    rfl

/-- **A drafted body is laid out.** -/
theorem isLaidOut_of_body (h : (s.body t).outcome = .ok blocks) : IsLaidOut blocks := by
  obtain ⟨parts, children, subtypes, targets, parent, hsections, rfl⟩ := sections_of_body h
  obtain ⟨hparts, hchildren, -, -, -⟩ := hsections.kinds
  obtain ⟨is, -, -, hsubtypes⟩ := hsections.entering
  obtain ⟨ps, rfl⟩ : ∃ ps : List (SelfParts TableName), parts = ps.map .selfParts :=
    exists_map_eq fun b hb => by
      have hkind := hparts b hb
      cases b with
      | selfParts b => exact ⟨b, rfl⟩
      | _ => cases hkind
  obtain ⟨d, rfl⟩ : ∃ d : Option (SubtypeDispatch TableName),
      subtypes = d.toList.map .subtypeDispatch := by
    rcases dispatch_eq_ok hsubtypes with ⟨-, rfl⟩ | ⟨classes, place, -, rfl, -⟩
    · exact ⟨none, rfl⟩
    · exact ⟨some _, rfl⟩
  obtain ⟨cs, hcs, hcolumns, hslots⟩ := exists_cleanups targets
  obtain ⟨link, -, rfl⟩ := parentBlock_eq_ok hsections.parent
  have hparent : (link.map fun r => Block.parentCascade r.parent).toList =
      (link.map (·.parent)).toList.map .parentCascade := by
    cases link <;> rfl
  refine ⟨⟨ps, children, d, cs, link.map (·.parent), hchildren, hslots⟩, ?_⟩
  simp only [Layout.blocks, Layout.front, Layout.back, Layout.captured, hcolumns, hcs, hparent,
    List.append_assoc, List.cons_append, List.nil_append]

end Setting

/-- **Writing and cutting a body leave its layout.** -/
theorem IsLaidOut.written {blocks : List (Block TableName)} {callee : TableName → Callee}
    {w : Block TableName → Block Callee} (h : IsLaidOut blocks)
    (hw : ∀ b, Written callee b (w b)) : IsLaidOut (blocks.map w) := by
  obtain ⟨l, rfl⟩ := h
  refine ⟨⟨l.parts.map fun b => ⟨b.column, b.detach, callee b.callee⟩, l.children.map w,
    l.subtypes.map fun b =>
      ⟨b.discriminator, b.cases.map fun c => ⟨c.classes, callee c.callee⟩, b.hooks.map callee⟩,
    l.cleanups.map fun b =>
      ⟨b.column, b.slot, b.target, b.targetKey, b.ownerCheck, callee b.callee⟩,
    l.parent.map callee, ?_, ?_⟩, ?_⟩
  · intro b' hb'
    obtain ⟨b, hb, rfl⟩ := List.mem_map.1 hb'
    rw [(hw b).kind, l.children_kind b hb]
  · intro k c hc
    rw [List.getElem?_map] at hc
    obtain ⟨c₀, hc₀, rfl⟩ := Option.map_eq_some_iff.1 hc
    exact l.slot_eq k c₀ hc₀
  · simp only [Layout.blocks, Layout.front, Layout.back, Layout.captured, List.map_append,
      List.map_cons, List.map_map, (hw (.localDelete _)).localDelete, Option.toList_map]
    simp only [Function.comp_def, (hw (.selfParts _)).selfParts,
      (hw (.subtypeDispatch _)).subtypeDispatch, (hw (.referencedCleanup _)).referencedCleanup,
      (hw (.parentCascade _)).parentCascade]

/-! ## What a cleanup reads -/

/-- Blocks of a function, carried out one after the other. -/
def Block.runEach (bs : List (Block Callee)) (call : CallFunction) (f : DeleteFunction)
    (batch : List Int) (caller : Caller) (frame : Frame) : Run Frame :=
  bs.foldlM (fun frame (b : Block Callee) => b.run call f batch caller frame) frame

/-- Only a local delete captures columns. -/
theorem Block.Runs.captured {C : Calls} {f : DeleteFunction} {batch : List Int} {caller : Caller}
    {b : Block Callee} {frame frame' : Frame} {s s' : Store}
    (h : b.Runs C f batch caller frame s frame' s') (hb : b.kind ≠ .localDelete) :
    frame'.captured = frame.captured := by
  cases h with
  | localDelete => exact absurd rfl hb
  | _ => rfl

theorem Block.RunsAll.captured {C : Calls} {f : DeleteFunction} {batch : List Int} {caller : Caller}
    {bs : List (Block Callee)} {frame frame' : Frame} {s s' : Store}
    (h : Block.RunsAll C f batch caller bs frame s frame' s')
    (hbs : ∀ b ∈ bs, b.kind ≠ .localDelete) : frame'.captured = frame.captured := by
  induction h with
  | nil => rfl
  | cons first others ih =>
    rw [ih fun b hb => hbs b (List.mem_cons_of_mem _ hb), first.captured (hbs _ List.mem_cons_self)]

/-- **A cleanup reads its own column**: in every run that comes to a cleanup of
the function, whatever the functions do that are called on the way, the ids
it starts from are the different values of its column, other than NULL, in the
rows that the local delete of this call removed. -/
def DeleteFunction.ReadsOwnColumns (f : DeleteFunction) : Prop :=
  ∀ (call : CallFunction) (batch : List Int) (caller : Caller) (before after : List (Block Callee))
    (b : ReferencedCleanup Callee) (frame : Frame) (s s' : Store),
    f.blocks = before ++ .referencedCleanup b :: after →
    (Block.runEach before call f batch caller .empty).Yields s frame s' →
    ∃ (early late : List (Block Callee)) (captured : List String) (frame₀ : Frame)
        (s₀ s₁ : Store) (rows : List Row) (ids : List Int),
      before = early ++ .localDelete captured :: late ∧
      (Block.runEach early call f batch caller .empty).Yields s frame₀ s₀ ∧
      s₀.deleteWhere f.table (pointsInto batch f.keyColumn) = .ok (rows, s₁) ∧
      ids.Pairwise (· < ·) ∧ (∀ v, v ∈ ids ↔ ∃ row ∈ rows, row.get? b.column = some v) ∧
      b.run call frame = (do
        let unowned ← stillUnowned b.target b.targetKey b.ownerCheck ids
        let _ ← deleteOwned call b.callee unowned
        return frame)

/-- **The cleanups of a body that is laid out read their own columns.** -/
theorem IsLaidOut.readsOwnColumns {f : DeleteFunction} (h : IsLaidOut f.blocks) :
    f.ReadsOwnColumns := by
  obtain ⟨l, hl⟩ := h
  intro call batch caller before after b frame s s' hblocks hrun
  obtain ⟨hb, late, rfl, hlate⟩ := Layout.split_at_cleanup (hl ▸ hblocks)
  obtain ⟨frame₀, s₀, hfront, hrest⟩ := Run.yields_foldlM_append hrun
  rw [List.foldlM_cons] at hrest
  obtain ⟨frame₁, s₁, hlocal, hbetween⟩ := Run.yields_bind hrest
  obtain ⟨rows, s₂, hremove, hpure⟩ := Run.yields_bind
    (show (runLocalDelete l.captured f batch frame₀).Yields s₀ frame₁ s₁ from hlocal)
  obtain ⟨rfl, rfl⟩ := Run.yields_pure hpure
  have hcaptured := (Block.runsAll_of_yields hbetween).captured hlate
  refine ⟨l.front, late, l.captured, frame₀, s₀, s₁, rows,
    ascending (rows.filterMap (·.get? b.column)), rfl, hfront, Run.yields_statement hremove,
    pairwise_ascending _, fun v => by simp, ?_⟩
  have hslot : frame.captured[b.slot]? = some (ascending (rows.filterMap (·.get? b.column))) := by
    rw [hcaptured, List.getElem?_map, Layout.captured_slot hb, Option.map_some]
  unfold ReferencedCleanup.run
  rw [hslot, Option.getD_some]

namespace Setting

variable {s : Setting} {namer : Namer} {root : TableName} {f : DeleteFunction}

/-- **Synthesized bodies have the fixed shape**, before the loops of owners
are cut and after, and their cleanups read their own columns in every run. -/
theorem isLaidOut_of_synthesize {result : Synthesis} (h : s.synthesize namer root = .ok result) :
    (∃ visited, s.visit [root] (.new namer) [] = .ok visited ∧
      ∀ f ∈ visited.registry.functions, IsLaidOut f.blocks) ∧
    ∀ f ∈ result.registry.functions, IsLaidOut f.blocks ∧ f.ReadsOwnColumns := by
  obtain ⟨visited, hvisit, -⟩ := synthesize_eq_ok h
  refine ⟨⟨visited, hvisit, fun f hf => ?_⟩, fun f hf => ?_⟩
  · obtain ⟨t, drafted, callee, hdrafts, -⟩ := drafts_of_visit hvisit hf
    rw [hdrafts.blocks]
    exact (isLaidOut_of_body (body_of_draft hdrafts.draft)).written .named
  · obtain ⟨t, drafted, callee, w, hwrites⟩ := writes_of_synthesize h hf
    have hlaid : IsLaidOut f.blocks := by
      rw [hwrites.blocks]
      exact (isLaidOut_of_body (body_of_draft hwrites.draft)).written hwrites.written
    exact ⟨hlaid, hlaid.readsOwnColumns⟩

end Setting

/-- The function of buildings captures the address, and cleans up after it with
what it captured. -/
theorem Setting.isLaidOut_of_synthesize_city : ∃ result f,
    city.synthesize (.new "del_" 63) ⟨"city", "building"⟩ = .ok result ∧
      f ∈ result.registry.functions ∧ f.name = "del_building" ∧
      f.captured? = some ["address"] ∧ IsLaidOut f.blocks ∧ f.ReadsOwnColumns := by
  have hfound : ∃ result f g, city.synthesize (.new "del_" 63) ⟨"city", "building"⟩ = .ok result ∧
      f ∈ result.registry.functions ∧ g ∈ result.registry.functions ∧
      f.name = "del_building" ∧ f.captured? = some ["address"] ∧ g = f := by
    refine exists_functions ?_
    -- the recursion that does not evaluate is followed for as long as it lasts here
    delta Setting.synthesize
    rw [← Setting.visitFor_eq city 12]
    decide +kernel
  obtain ⟨result, f, -, hsyn, hf, -, hname, hcaptured, -⟩ := hfound
  exact ⟨result, f, hsyn, hf, hname, hcaptured, (Setting.isLaidOut_of_synthesize hsyn).2 f hf⟩

end DeleteCascade
