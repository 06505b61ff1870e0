import DeleteCascade.Proofs.Function.Registry
import DeleteCascade.Proofs.Schema.Respelled
import DeleteCascade.Proofs.Synthesis.Owners
import DeleteCascade.Proofs.Text.Lowercase
/-!
# Functions — two spellings of one script

The functions made from one schema in two spellings have the same names and do
the same, step by step, to the tables and columns as each schema spells them
(`DeleteFunction.Respelled`). Owners to look for may be listed more than once in
one spelling and once in the other, so they count as a set (`SameOwners`). What
a registry does when tables are named, visited and written keeps two registries
together (`Registry.Respelled`), since a function name is in small letters.
-/

namespace DeleteCascade

/-! ## Blocks -/

theorem Owner.Like.symm {o o' : Owner} (h : o.Like o') : o'.Like o := by
  cases o <;> cases o' <;> simp only [Owner.Like] at h ⊢
  · exact sameName_symm h
  · exact ⟨TableName.same_symm h.1, sameName_symm h.2⟩

/-- **The same owners** are listed, in some order and some spelling. -/
structure SameOwners (os os' : List Owner) : Prop where
  sound : ∀ o ∈ os, ∃ o' ∈ os', o.Like o'
  complete : ∀ o' ∈ os', ∃ o ∈ os, o.Like o'

section Blocks

variable {κ μ : Type} (K : κ → μ → Prop)

structure SelfParts.Respelled (b : SelfParts κ) (b' : SelfParts μ) : Prop where
  column : sameName b.column b'.column
  detach : b.detach = b'.detach
  callee : K b.callee b'.callee

structure ChildCascade.Respelled (b : ChildCascade κ) (b' : ChildCascade μ) : Prop where
  child : b.child.same b'.child
  childKey : sameName b.childKey b'.childKey
  column : sameName b.column b'.column
  detach : b.detach = b'.detach
  ownerCheck : Option.Rel SameOwners b.ownerCheck b'.ownerCheck
  callee : K b.callee b'.callee

structure BridgeCascade.Respelled (b : BridgeCascade κ) (b' : BridgeCascade μ) : Prop where
  bridge : b.bridge.same b'.bridge
  nearColumn : sameName b.nearColumn b'.nearColumn
  farColumn : sameName b.farColumn b'.farColumn
  target : b.target.same b'.target
  targetKey : sameName b.targetKey b'.targetKey
  ownerCheck : Option.Rel SameOwners b.ownerCheck b'.ownerCheck
  callee : Option.Rel K b.callee b'.callee

structure SubtypeCase.Respelled (c : SubtypeCase κ) (c' : SubtypeCase μ) : Prop where
  classes : c.classes = c'.classes
  callee : K c.callee c'.callee

structure Discriminator.Respelled (d d' : Discriminator) : Prop where
  table : d.table.same d'.table
  keyColumn : sameName d.keyColumn d'.keyColumn
  column : sameName d.column d'.column

structure SubtypeDispatch.Respelled (b : SubtypeDispatch κ) (b' : SubtypeDispatch μ) : Prop where
  discriminator : Option.Rel Discriminator.Respelled b.discriminator b'.discriminator
  cases : List.Forall₂ (SubtypeCase.Respelled K) b.cases b'.cases
  hooks : List.Forall₂ K b.hooks b'.hooks

structure ReferencedCleanup.Respelled (b : ReferencedCleanup κ) (b' : ReferencedCleanup μ) :
    Prop where
  column : sameName b.column b'.column
  slot : b.slot = b'.slot
  target : b.target.same b'.target
  targetKey : sameName b.targetKey b'.targetKey
  ownerCheck : Option.Rel SameOwners b.ownerCheck b'.ownerCheck
  callee : K b.callee b'.callee

/-- **One block in two spellings**, where `K` relates what is called. -/
inductive Block.Respelled : Block κ → Block μ → Prop
  | selfParts {b : SelfParts κ} {b' : SelfParts μ} (alike : b.Respelled K b') :
      Respelled (.selfParts b) (.selfParts b')
  | childCascade {b : ChildCascade κ} {b' : ChildCascade μ} (alike : b.Respelled K b') :
      Respelled (.childCascade b) (.childCascade b')
  | bridgeCascade {b : BridgeCascade κ} {b' : BridgeCascade μ} (alike : b.Respelled K b') :
      Respelled (.bridgeCascade b) (.bridgeCascade b')
  | subtypeDispatch {b : SubtypeDispatch κ} {b' : SubtypeDispatch μ} (alike : b.Respelled K b') :
      Respelled (.subtypeDispatch b) (.subtypeDispatch b')
  | localDelete {captured captured' : List String} (alike : SameNames captured captured') :
      Respelled (.localDelete captured) (.localDelete captured')
  | referencedCleanup {b : ReferencedCleanup κ} {b' : ReferencedCleanup μ}
      (alike : b.Respelled K b') : Respelled (.referencedCleanup b) (.referencedCleanup b')
  | parentCascade {callee : κ} {callee' : μ} (alike : K callee callee') :
      Respelled (.parentCascade callee) (.parentCascade callee')

end Blocks

namespace Block.Respelled

variable {κ μ κ' μ' : Type} {K : κ → μ → Prop} {L : κ' → μ' → Prop} {b : Block κ} {b' : Block μ}

theorem map (h : b.Respelled K b') {f : κ → κ'} {f' : μ → μ'} (hf : ∀ c d, K c d → L (f c) (f' d)) :
    (b.map f).Respelled L (b'.map f') := by
  cases h with
  | selfParts h => exact .selfParts ⟨h.column, h.detach, hf _ _ h.callee⟩
  | childCascade h =>
    exact .childCascade ⟨h.child, h.childKey, h.column, h.detach, h.ownerCheck, hf _ _ h.callee⟩
  | bridgeCascade h =>
    exact .bridgeCascade ⟨h.bridge, h.nearColumn, h.farColumn, h.target, h.targetKey, h.ownerCheck,
      optionRel_map h.callee hf⟩
  | subtypeDispatch h =>
    refine .subtypeDispatch ⟨h.discriminator, ?_, List.rel_map (fun _ _ hc => hf _ _ hc) h.hooks⟩
    exact List.rel_map (fun _ _ hc => ⟨hc.classes, hf _ _ hc.callee⟩) h.cases
  | localDelete h => exact .localDelete h
  | referencedCleanup h =>
    exact .referencedCleanup
      ⟨h.column, h.slot, h.target, h.targetKey, h.ownerCheck, hf _ _ h.callee⟩
  | parentCascade h => exact .parentCascade (hf _ _ h)

theorem callees (h : b.Respelled K b') : List.Forall₂ K b.callees b'.callees := by
  cases h with
  | selfParts h => exact .cons h.callee .nil
  | childCascade h => exact .cons h.callee .nil
  | bridgeCascade h =>
    unfold Block.callees
    dsimp only
    with_reducible refine Option.Rel.casesOn h.callee (fun hc => ?_) .nil
    exact .cons hc .nil
  | subtypeDispatch h =>
    exact List.rel_append (List.rel_map (fun _ _ hc => hc.callee) h.cases) h.hooks
  | localDelete h => exact .nil
  | referencedCleanup h => exact .cons h.callee .nil
  | parentCascade h => exact .cons h .nil

theorem calls (h : b.Respelled K b') (caller : Caller) :
    List.Forall₂ (fun x y => K x.1 y.1 ∧ x.2 = y.2) (b.calls caller) (b'.calls caller) := by
  have hcallees := h.callees
  cases h with
  | subtypeDispatch h =>
    refine List.rel_append ?_ (List.rel_map (fun _ _ hc => ⟨hc, rfl⟩) h.hooks)
    split
    · exact .nil
    · exact List.rel_map (fun _ _ hc => ⟨hc.callee, rfl⟩) h.cases
  | parentCascade h =>
    unfold Block.calls
    dsimp only
    split
    · exact .nil
    · exact .cons ⟨h, rfl⟩ .nil
  | _ => exact List.rel_map (fun _ _ hc => ⟨hc, rfl⟩) hcallees

end Block.Respelled

/-! ## Functions and registries -/

/-- One called function, its table in two spellings. -/
structure Callee.Respelled (c c' : Callee) : Prop where
  table : c.table.same c'.table
  function : c.function = c'.function

/-- **One function in two spellings**: it has one name, and its blocks are the
same up to spelling. -/
structure DeleteFunction.Respelled (f f' : DeleteFunction) : Prop where
  table : f.table.same f'.table
  name : f.name = f'.name
  keyColumn : sameName f.keyColumn f'.keyColumn
  blocks : List.Forall₂ (Block.Respelled Callee.Respelled) f.blocks f'.blocks

structure FunctionRecord.Respelled (e e' : FunctionRecord) : Prop where
  function : e.function.Respelled e'.function
  isDone : e.isDone = e'.isDone

/-- **One registry in two spellings.** -/
structure Registry.Respelled (r r' : Registry) : Prop where
  namer : r.namer = r'.namer
  records : List.Forall₂ FunctionRecord.Respelled r.records r'.records
  visited : SameTables r.visited r'.visited

/-- A name is given out for a table in all its spellings. -/
theorem Namer.endAlike_assign (n : Namer) {a b : String} (h : sameName a b) :
    EndAlike (fun _ _ => True) Eq (n.assign a) (n.assign b) := by
  unfold Namer.assign Namer.baseName
  rw [lowercase_congr h]
  split
  · exact .ok rfl
  · exact .error trivial

theorem DeleteFunction.Respelled.calls {f f' : DeleteFunction} (h : f.Respelled f')
    (caller : Caller) : List.Forall₂ (fun x y => x.1.Respelled y.1 ∧ x.2 = y.2) (f.calls caller)
      (f'.calls caller) :=
  List.rel_flatMap h.blocks fun _ _ hb => hb.calls caller

namespace Registry.Respelled

variable {r r' : Registry} {t t' : TableName}

theorem new (namer : Namer) : (Registry.new namer).Respelled (.new namer) := ⟨rfl, .nil, .nil⟩

variable (h : r.Respelled r')
include h

theorem record? (ht : t.same t') :
    Option.Rel FunctionRecord.Respelled (r.record? t) (r'.record? t') :=
  forall₂_find? h.records fun _ _ he => TableName.same_congr he.function.table ht

/-- The written functions go together, in the order of their visits. -/
theorem functions : List.Forall₂ DeleteFunction.Respelled r.functions r'.functions := by
  refine List.rel_filterMap (fun t t' ht => ?_) h.visited
  with_reducible refine Option.Rel.casesOn (h.record? ht) (fun {e e'} he => ?_) .none
  dsimp only
  rw [he.isDone]
  split
  · exact .some he.function
  · exact .none

variable (ht : t.same t')
include ht

theorem get? : Option.Rel DeleteFunction.Respelled (r.get? t) (r'.get? t') :=
  optionRel_map (h.record? ht) fun _ _ he => he.function

theorem nameOf? : r.nameOf? t = r'.nameOf? t' := by
  unfold Registry.nameOf?
  with_reducible refine Option.Rel.casesOn (h.get? ht) (fun hf => ?_) rfl
  rw [Option.map_some, Option.map_some, hf.name]

theorem callee : (r.callee t).Respelled (r'.callee t') where
  table := ht
  function := by rw [Registry.callee, Registry.callee, h.nameOf? ht]

theorem state? : r.state? t = r'.state? t' := by
  unfold Registry.state?
  with_reducible refine Option.Rel.casesOn (h.record? ht) (fun he => ?_) rfl
  rw [Option.map_some, Option.map_some, he.isDone, h.visited.isIn ht]

theorem reserve : EndAlike (fun _ _ => True) (fun x y => x.1 = y.1 ∧ x.2.Respelled y.2)
    (r.reserve t) (r'.reserve t') := by
  have hassign := r'.namer.endAlike_assign (TableName.sameName_of_same ht)
  unfold Registry.reserve
  rw [h.namer]
  with_reducible refine Option.Rel.casesOn (h.record? ht) (fun he => ?_) ?_
  · exact .ok ⟨he.function.name, h⟩
  · dsimp only
    with_reducible refine EndAlike.casesOn hassign (fun he => .error he) fun {x y} heq => ?_
    subst heq
    exact .ok ⟨rfl, rfl,
      List.rel_append h.records (.cons ⟨⟨ht, rfl, sameName_refl _, .nil⟩, rfl⟩ .nil), h.visited⟩

theorem beginVisit : EndAlike (fun _ _ => True) (fun x y => x.1 = y.1 ∧ x.2.Respelled y.2)
    (r.beginVisit t) (r'.beginVisit t') := by
  unfold Registry.beginVisit
  with_reducible refine EndAlike.casesOn (h.reserve ht) (fun he => .error he) fun {x y} hxy => ?_
  dsimp only
  rw [hxy.2.state? ht]
  split
  · exact .ok ⟨rfl, hxy.2.namer, hxy.2.records, List.rel_append hxy.2.visited (.cons ht .nil)⟩
  · exact .ok ⟨rfl, hxy.2⟩

theorem modify {f f' : FunctionRecord → FunctionRecord}
    (hf : ∀ e e', e.Respelled e' → (f e).Respelled (f' e')) :
    (r.modify t f).Respelled (r'.modify t' f') where
  namer := h.namer
  records := List.rel_map (fun e e' he => by
    rw [TableName.same_congr he.function.table ht]
    split
    · exact hf e e' he
    · exact he) h.records
  visited := h.visited

theorem complete {k k' : String} {blocks blocks' : List (Block Callee)} (hk : sameName k k')
    (hblocks : List.Forall₂ (Block.Respelled Callee.Respelled) blocks blocks') :
    (r.complete t k blocks).Respelled (r'.complete t' k' blocks') :=
  h.modify ht fun _ _ he => ⟨⟨he.function.table, he.function.name, hk, hblocks⟩, rfl⟩

end Registry.Respelled

end DeleteCascade
