import DeleteCascade.Proofs.Script.Emitted
import DeleteCascade.Proofs.Synthesis.Layout
import Mathlib.Data.List.Nodup
/-!
# Scripts — the variables of a function

What a PostgreSQL function declares is worked out from the kinds of its blocks
(`Postgres.locals`), and what a block uses is decided again where its text is
written (`Postgres.used`). The two agree on a body that is laid out: there is
one local delete, and the cleanups take what it captures. `Postgres.Declares`
says so of the variables put into a text and of the words that stand in it.
-/

namespace DeleteCascade

/-! ## The variables of texts put together -/

namespace Sql

@[simp] theorem variablesUsed_concat (parts : List Sql) :
    (concat parts).variablesUsed = parts.flatMap variablesUsed := by
  unfold concat
  induction parts with
  | nil => rfl
  | cons part parts ih => rw [List.foldr_cons, variablesUsed, ih, List.flatMap_cons]

@[simp] theorem variablesUsed_separated (separator : String) (parts : List Sql) :
    (separated separator parts).variablesUsed = parts.flatMap variablesUsed := by
  induction parts using separated.induct with
  | case1 => rfl
  | case2 part => simp [separated]
  | case3 part rest hrest ih => simp [separated, variablesUsed, ih]

end Sql

namespace Postgres

open Sql (variablesUsed)

variable {f : DeleteFunction} {b : Block Callee} {v : Variable}

/-- Tests for owners use no variable besides the ids they are made for. -/
@[simp] theorem variablesUsed_unowned (table : TableName) (keyColumn : String)
    (owners : Option (List Owner)) (ids : Variable) :
    (unowned table keyColumn owners ids).variablesUsed = [ids] := by
  rcases owners with _ | _ | ⟨o, owners⟩ <;>
    simp [unowned, ownerTests, variablesUsed, List.flatMap_map]

@[simp] theorem variablesUsed_deleteUnowned (table : TableName) (keyColumn : String)
    (owners : Option (List Owner)) (ids : Variable) (callee : Callee) :
    (deleteUnowned table keyColumn owners ids callee).variablesUsed = [ids, ids] := by
  simp [deleteUnowned, Sql.guardVariables, variablesUsed]

/-- **The text of a block uses these variables**, whatever its columns, owners
and subtypes. -/
theorem mem_variablesUsed_block : v ∈ (block f b).variablesUsed ↔ v ∈ used b := by
  cases b with
  | selfParts b =>
    cases hd : b.detach <;>
      simp [block, selfParts, addDeletedParts, hd, used, variablesUsed, Sql.guardVariables] <;>
      tauto
  | childCascade b =>
    simp only [block, childCascade, used]
    cases hd : b.detach <;> cases ho : b.ownerCheck <;> simp [variablesUsed]
  | bridgeCascade b =>
    cases hc : b.callee <;> simp [block, bridgeCascade, hc, used, variablesUsed]
  | subtypeDispatch b =>
    obtain ⟨_ | d, _ | ⟨c, cases⟩, hooks⟩ := b <;>
      simp [block, subtypeDispatch, typedDispatch, subtypeCase, hook, used, variablesUsed,
        Sql.guardVariables, List.flatMap_map]
    tauto
  | localDelete captured =>
    have hslots : (∃ column slot, (column, slot) ∈ captured.zipIdx ∧ v = .refIds slot) ↔
        ∃ slot < captured.length, Variable.refIds slot = v := by
      constructor
      · rintro ⟨column, slot, hslot, rfl⟩
        exact ⟨slot, (List.mem_zipIdx' hslot).1, rfl⟩
      · rintro ⟨slot, hlt, rfl⟩
        exact ⟨captured[slot], slot, List.mem_zipIdx_iff_getElem?.2 (List.getElem?_eq_getElem hlt),
          rfl⟩
    simpa [block, localDelete, used, variablesUsed, List.flatMap_map] using
      or_congr_right hslots
  | referencedCleanup b => simp [block, referencedCleanup, used, variablesUsed]
  | parentCascade callee =>
    simp [block, parentCascade, used, variablesUsed, Sql.guardVariables]

/-! ## What is declared -/

/-- Which variables a function declares, by the needs of its blocks. -/
theorem mem_locals : v ∈ locals f ↔
    (v = .deletedIds ∨ v = .deletedChildIds) ∨
      (v = .candidateIds ∧ ∃ b ∈ f.blocks, b.collects = true) ∨
      (∃ slot < f.capturedCount, v = .refIds slot) ∨
      ((v = .dummyIds ∨ v = .record) ∧ ∃ b ∈ f.blocks, b.dispatches = true) := by
  have hcandidates : v ∈ (if f.blocks.any (·.collects) then [Variable.candidateIds] else []) ↔
      v = .candidateIds ∧ ∃ b ∈ f.blocks, b.collects = true := by
    rw [← List.any_eq_true]
    split <;> simp_all
  have hdispatch : v ∈ (if f.blocks.any (·.dispatches) then [Variable.dummyIds, .record] else []) ↔
      (v = .dummyIds ∨ v = .record) ∧ ∃ b ∈ f.blocks, b.dispatches = true := by
    rw [← List.any_eq_true]
    split <;> simp_all
  have hslots : v ∈ (List.range f.capturedCount).map Variable.refIds ↔
      ∃ slot < f.capturedCount, v = .refIds slot := by
    simp [eq_comm]
  simp only [locals, List.mem_append, hcandidates, hdispatch, hslots, List.mem_cons,
    List.not_mem_nil, or_false, or_assoc]

/-- No variable is declared twice. -/
theorem nodup_locals (f : DeleteFunction) : (locals f).Nodup := by
  have hslots : ((List.range f.capturedCount).map Variable.refIds).Nodup :=
    List.nodup_range.map fun _ _ h => Variable.refIds.inj h
  unfold locals
  split <;> split <;> simp [List.nodup_append, hslots]

end Postgres

/-! ## Bodies that are laid out -/

namespace Block

/-- Only a local delete captures columns. -/
theorem captures?_eq_none {κ : Type} {b : Block κ} (h : b.kind ≠ .localDelete) :
    b.captures? = none := by
  cases b with
  | localDelete => exact absurd rfl h
  | _ => rfl

end Block

namespace Layout

variable {l : Layout Callee} {captured : List String}

theorem kind_ne_of_mem_front {b : Block Callee} (hb : b ∈ l.front) : b.kind ≠ .localDelete := by
  simp only [front, List.mem_append, List.mem_map] at hb
  rcases hb with (⟨_, -, rfl⟩ | hb) | ⟨_, -, rfl⟩
  · simp [Block.kind]
  · simp [l.children_kind b hb]
  · simp [Block.kind]

theorem kind_ne_of_mem_back {b : Block Callee} (hb : b ∈ l.back) : b.kind ≠ .localDelete := by
  rcases mem_back hb with ⟨_, -, rfl⟩ | ⟨_, rfl⟩ <;> simp [Block.kind]

/-- There is one local delete. -/
theorem localDelete_mem_blocks : .localDelete captured ∈ l.blocks ↔ captured = l.captured := by
  have hfront : Block.localDelete captured ∉ l.front := fun h => kind_ne_of_mem_front h rfl
  have hback : Block.localDelete captured ∉ l.back := fun h => kind_ne_of_mem_back h rfl
  simp [blocks, hfront, hback]

/-- What a function declares for captured columns is what its local delete
captures. -/
theorem capturedCount_eq {f : DeleteFunction} (h : f.blocks = l.blocks) :
    f.capturedCount = l.captured.length := by
  -- the last one that captures is the only one
  have hfront : l.front.filterMap (·.captures?) = [] :=
    List.filterMap_eq_nil_iff.2 fun b hb => Block.captures?_eq_none (kind_ne_of_mem_front hb)
  have hback : l.back.filterMap (·.captures?) = [] :=
    List.filterMap_eq_nil_iff.2 fun b hb => Block.captures?_eq_none (kind_ne_of_mem_back hb)
  have hcaptures : f.blocks.filterMap (·.captures?) = [l.captured] := by
    rw [h, blocks, List.filterMap_append, hfront, List.nil_append, List.filterMap_cons, hback]
    rfl
  unfold DeleteFunction.capturedCount
  rw [hcaptures]
  rfl

/-- A cleanup takes one of the captured columns. -/
theorem slot_lt {b : ReferencedCleanup Callee} (hb : b ∈ l.cleanups) :
    b.slot < l.captured.length :=
  (List.getElem?_eq_some_iff.1 (captured_slot hb)).1

end Layout

theorem intercalate_cons (separator first : String) (rest : List String) :
    separator.intercalate (first :: rest) = first ++ String.join (rest.map (separator ++ ·)) := by
  induction rest generalizing first with
  | nil => simp
  | cons second rest ih =>
    rw [String.intercalate_cons_cons, ih]
    simp [String.append_assoc]

namespace Postgres

variable {ctx : ScriptContext} {f : DeleteFunction} {b : Block Callee} {v : Variable}

/-- **A body that is laid out uses what its function declares.** -/
theorem mem_locals_of_used (h : IsLaidOut f.blocks) (hb : b ∈ f.blocks) (hv : v ∈ used b) :
    v ∈ locals f := by
  obtain ⟨l, hl⟩ := h
  rw [mem_locals, Layout.capturedCount_eq hl]
  cases b with
  | selfParts b =>
    simp only [used, List.mem_cons, List.not_mem_nil, or_false] at hv
    rcases hv with rfl | rfl
    · exact Or.inr (Or.inl ⟨rfl, _, hb, rfl⟩)
    · exact Or.inl (Or.inr rfl)
  | childCascade b =>
    simp only [used] at hv
    split at hv
    · rename_i hcollects
      simp only [List.mem_cons, List.not_mem_nil, or_false] at hv
      exact Or.inr (Or.inl ⟨hv, _, hb, hcollects⟩)
    · simp at hv
  | bridgeCascade b =>
    simp only [used] at hv
    split at hv
    · simp only [List.mem_cons, List.not_mem_nil, or_false] at hv
      exact Or.inr (Or.inl ⟨hv, _, hb, rfl⟩)
    · simp at hv
  | subtypeDispatch b =>
    simp only [used] at hv
    split at hv
    · simp only [List.mem_cons, List.not_mem_nil, or_false] at hv
      rcases hv with rfl | rfl | rfl
      · exact Or.inr (Or.inr (Or.inr ⟨Or.inr rfl, _, hb, rfl⟩))
      · exact Or.inr (Or.inr (Or.inr ⟨Or.inl rfl, _, hb, rfl⟩))
      · exact Or.inl (Or.inl rfl)
    · simp at hv
  | localDelete captured =>
    obtain rfl := Layout.localDelete_mem_blocks.1 (hl ▸ hb)
    simp only [used, List.mem_cons, List.mem_map, List.mem_range] at hv
    rcases hv with rfl | ⟨slot, hlt, rfl⟩
    · exact Or.inl (Or.inl rfl)
    · exact Or.inr (Or.inr (Or.inl ⟨slot, hlt, rfl⟩))
  | referencedCleanup b =>
    simp only [used, List.mem_cons, List.not_mem_nil, or_false] at hv
    -- the slot is one of those that the local delete before the cleanup fills
    obtain ⟨before, after, hsplit⟩ := List.append_of_mem hb
    have hslot := Layout.slot_lt (Layout.split_at_cleanup (hl ▸ hsplit)).1
    exact Or.inr (Or.inr (Or.inl ⟨b.slot, hslot, hv⟩))
  | parentCascade callee =>
    simp only [used, List.mem_cons, List.not_mem_nil, or_false] at hv
    exact Or.inl (Or.inl hv)

/-! ## What the text says -/

/-- The declarations as they are written, between two lines of their own. -/
theorem render_opening (ctx : ScriptContext) (f : DeleteFunction) : ∃ front back,
    (spelling ctx).render (opening f) =
      front ++ "DECLARE\n" ++ String.join ((locals f).map declaration) ++ "BEGIN\n" ++ back := by
  refine ⟨"CREATE OR REPLACE FUNCTION " ++ ((spelling ctx).function f.name ++
    ("(pid_array int[], caller INTEGER DEFAULT 0) RETURNS SETOF int AS\n" ++ ("$body$\n" ++
      ("-- deletes " ++ ((spelling ctx).table f.table ++ " rows and everything they own\n"))))),
    "  IF cardinality(pid_array) = 0 THEN\n" ++ ("    RETURN;\n" ++ "  END IF;\n"), ?_⟩
  simp only [opening, Sql.concat, List.foldr, Spelling.render, String.append_assoc,
    String.append_empty]

/-- What a local delete assigns: the ids deleted, and the values of each
captured column. -/
def assigned (captured : List String) : List Variable :=
  .deletedIds :: (List.range captured.length).map .refIds

/-- The assignments are what the text of a local delete ends with. -/
theorem render_localDelete (ctx : ScriptContext) (f : DeleteFunction) (captured : List String) :
    ∃ front, (spelling ctx).render (localDelete f captured) =
      front ++ "    INTO " ++ ", ".intercalate ((assigned captured).map (·.name)) ++
        "\n    FROM deleted;\n" := by
  have hnames : (captured.zipIdx.map fun slot =>
        (spelling ctx).render (.concat [", ", .var (.refIds slot.2)])) =
      (List.range captured.length).map fun slot => ", " ++ (Variable.refIds slot).name := by
    rw [List.range_eq_range', ← List.zipIdx_map_snd, List.map_map]
    simp [Sql.concat, Spelling.render, Function.comp_def]
  -- the part that assigns begins after the first eighteen pieces of the text
  have hparts (parts : List String) :
      String.join parts = String.join (parts.take 18) ++ String.join (parts.drop 18) := by
    rw [← String.join_append, List.take_append_drop]
  have hend : ("\n" ++ ("    FROM deleted;\n" ++ "") : String) = "\n    FROM deleted;\n" := by decide
  rw [assigned, List.map_cons, intercalate_cons, List.map_map, List.map_map]
  simp only [localDelete, Spelling.render_concat _ (_ :: _), String.append_assoc]
  refine ⟨_, (hparts _).trans (congrArg _ ?_)⟩
  simp only [List.map_cons, List.map_nil, List.drop_succ_cons, List.drop_zero, Spelling.render,
    List.map_map, Spelling.render_concat _ (List.map _ _), String.join_cons, String.join_nil,
    Function.comp_def, hnames, hend]

/-- **A function uses what it declares.** -/
structure Declares (ctx : ScriptContext) (f : DeleteFunction) : Prop where
  /-- The variables are declared where the text begins. -/
  declared : ∃ front back, (spelling ctx).render (opening f) =
    front ++ "DECLARE\n" ++ String.join ((locals f).map declaration) ++ "BEGIN\n" ++ back
  /-- None is declared twice. -/
  once : (locals f).Nodup
  /-- Those that a block uses are declared. -/
  used : ∀ b ∈ f.blocks, ∀ v ∈ (block f b).variablesUsed, v ∈ locals f
  /-- The text of a block names no others, unless something that it names in
  the schema is called like a variable. -/
  named : ∀ b ∈ f.blocks,
    NamesOnly (locals f) (namesIn ctx f b) ((spelling ctx).render (block f b))
  /-- Neither does the text that the function ends with. -/
  ending : NamesOnly (locals f) [] ((spelling ctx).render closing)
  /-- What a cleanup reads is assigned by the one local delete before it. -/
  assigned : ∀ before c after, f.blocks = before ++ .referencedCleanup c :: after →
    ∃ early captured late front, before = early ++ .localDelete captured :: late ∧
      (∀ b ∈ early ++ late, b.kind ≠ .localDelete) ∧
      (spelling ctx).render (block f (.localDelete captured)) =
        front ++ "    INTO " ++ ", ".intercalate ((assigned captured).map (·.name)) ++
          "\n    FROM deleted;\n" ∧
      (∀ v ∈ (block f (.referencedCleanup c)).variablesUsed, v ∈ assigned captured) ∧
      NamesOnly (assigned captured) (namesIn ctx f (.referencedCleanup c))
        ((spelling ctx).render (block f (.referencedCleanup c)))

/-- **A body that is laid out uses what its function declares.** -/
theorem declares_of_isLaidOut (ctx : ScriptContext) (h : IsLaidOut f.blocks) : Declares ctx f where
  declared := render_opening ctx f
  once := nodup_locals f
  used b hb v hv := mem_locals_of_used h hb (mem_variablesUsed_block.1 hv)
  named b hb := (finished_block ctx f b).only.mono fun v hv => mem_locals_of_used h hb hv
  ending := by
    refine (finished_closing ctx).only.mono fun v hv => mem_locals.2 (Or.inl ?_)
    simpa using hv
  assigned before c after hsplit := by
    obtain ⟨l, hl⟩ := h
    obtain ⟨hc, late, rfl, hlate⟩ := Layout.split_at_cleanup (hl ▸ hsplit)
    obtain ⟨front, hfront⟩ := render_localDelete ctx f l.captured
    have hslot : ∀ v ∈ Postgres.used (.referencedCleanup c), v ∈ Postgres.assigned l.captured := by
      intro v hv
      rw [List.mem_singleton.1 hv]
      exact List.mem_cons_of_mem _
        (List.mem_map.2 ⟨c.slot, List.mem_range.2 (Layout.slot_lt hc), rfl⟩)
    refine ⟨l.front, l.captured, late, front, rfl, fun b hb => ?_, hfront,
      fun v hv => hslot v (mem_variablesUsed_block.1 hv), (finished_block ctx f _).only.mono hslot⟩
    rcases List.mem_append.1 hb with hb | hb
    · exact Layout.kind_ne_of_mem_front hb
    · exact hlate b hb

end Postgres

namespace Setting

variable {s : Setting} {namer : Namer} {root : TableName} {result : Synthesis} {f : DeleteFunction}

/-- **Every function that is synthesized uses what it declares**, wherever its
script goes. -/
theorem declares_of_synthesize (h : s.synthesize namer root = .ok result)
    (hf : f ∈ result.registry.functions) (ctx : ScriptContext) : Postgres.Declares ctx f := by
  obtain ⟨t, drafted, callee, w, hwrites⟩ := writes_of_synthesize h hf
  have hlaid : IsLaidOut f.blocks := by
    rw [hwrites.blocks]
    exact (isLaidOut_of_body (body_of_draft hwrites.draft)).written hwrites.written
  exact Postgres.declares_of_isLaidOut ctx hlaid

/-- The function of buildings declares what it uses: candidates for its parts,
the ids of the address it captures, and what takes a row to its subtype. -/
theorem declares_of_synthesize_city : ∃ result f,
    city.synthesize (.new "del_" 63) ⟨"city", "building"⟩ = .ok result ∧
      f ∈ result.registry.functions ∧ f.name = "del_building" ∧
      .refIds 0 ∈ Postgres.locals f ∧ ∀ ctx, Postgres.Declares ctx f := by
  have hfound : ∃ result f g, city.synthesize (.new "del_" 63) ⟨"city", "building"⟩ = .ok result ∧
      f ∈ result.registry.functions ∧ g ∈ result.registry.functions ∧
      f.name = "del_building" ∧ .refIds 0 ∈ Postgres.locals f ∧ g = f := by
    refine exists_functions ?_
    delta Setting.synthesize
    rw [← Setting.visitFor_eq city 12]
    decide +kernel
  obtain ⟨result, f, -, hsyn, hf, -, hname, hlocals, -⟩ := hfound
  exact ⟨result, f, hsyn, hf, hname, hlocals, declares_of_synthesize hsyn hf⟩

end Setting

end DeleteCascade
