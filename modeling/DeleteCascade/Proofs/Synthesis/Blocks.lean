import DeleteCascade.Proofs.Synthesis.Cuts
import Mathlib.Data.List.Forall2
/-!
# Programs — which links have blocks

A block that calls a function as owner comes from one link of the schema, and
a link that owns has a block. Both directions are read off the sections of a
drafted body here, for any schema and any classifier; the classifier is asked
in the spelling in which the table was visited. Writing and cutting the body
leave all of it but where children are cut off (`Written`).
-/

namespace DeleteCascade

/-- **A table lists a foreign key**, whatever table the key says it is of. -/
def Schema.Lists (g : Schema) (t : TableName) (fk : ForeignKey) : Prop :=
  ∃ d, g.table? t = some d ∧ fk ∈ d.foreignKeys

theorem Schema.Lists.congr {g : Schema} {t u : TableName} {fk : ForeignKey} (h : g.Lists t fk)
    (ht : t.same u) : g.Lists u fk := by
  obtain ⟨d, hd, hfk⟩ := h
  exact ⟨d, by rw [← table?_congr g ht, hd], hfk⟩

namespace Incoming

/-- What enters is neither a subtype nor a bridge: its rows are children. -/
def IsChild (i : Incoming) : Prop :=
  i.reference.childIsKey = false ∧ ∀ b, i.shape ≠ .bridge b

/-- The bridge that enters, if what enters is one. -/
def bridge? (i : Incoming) : Option Bridge :=
  match i.shape with
  | .bridge b => some b
  | _ => none

theorem bridge?_eq_some {i : Incoming} {b : Bridge} : i.bridge? = some b ↔ i.shape = .bridge b := by
  unfold bridge?
  cases i.shape <;> simp

theorem bridge?_eq_none {i : Incoming} (h : ∀ b, i.shape ≠ .bridge b) : i.bridge? = none := by
  rw [Option.eq_none_iff_forall_not_mem]
  exact fun b hb => h b (bridge?_eq_some.1 hb)

end Incoming

/-- The cascade that the block is, if it is one along a bridge. -/
def Block.bridgeCascade? {κ : Type} : Block κ → Option (BridgeCascade κ)
  | .bridgeCascade b => some b
  | _ => none

theorem Block.bridgeCascade?_eq_none {κ : Type} {b : Block κ} (h : b.kind ≠ .childCascade) :
    b.bridgeCascade? = none := by
  cases b with
  | bridgeCascade b => exact absurd rfl h
  | _ => rfl

namespace Setting

variable {s : Setting} {t : TableName} {r : Reference} {blocks : List (Block TableName)}
variable {kind : Relation}

/-! ## In a drafted body -/

/-- **The links of a table to itself that compose have parts**, and no other
link has. -/
theorem selfParts_mem_body (h : (s.body t).outcome = .ok blocks) {b : SelfParts TableName} :
    .selfParts b ∈ blocks ↔ ∃ rs, s.schema.selfReferences t = .ok rs ∧ ∃ r ∈ rs,
      s.classifier t t (some r.childColumn) = .ok .composition ∧
        b = ⟨r.childColumn, r.nullable, t⟩ := by
  obtain ⟨parts, children, subtypes, targets, parent, hsections, rfl⟩ := sections_of_body h
  obtain ⟨rs, hrs, hparts⟩ := hsections.parts
  constructor
  · intro hb
    obtain ⟨r, hr, bs, hbs, hb⟩ := Draft.mem_of_gather hparts ((hsections.mem_iff hb).1 rfl)
    obtain ⟨kind, hkind, rfl⟩ := selfPart_eq_ok hbs
    split at hb
    · rename_i hcomp
      subst hcomp
      cases List.mem_singleton.1 hb
      exact ⟨rs, hrs, r, hr, hkind, rfl⟩
    · cases hb
  · rintro ⟨rs', hrs', r, hr, hcomp, rfl⟩
    rw [hrs] at hrs'
    cases hrs'
    obtain ⟨bs, hbs, hsub⟩ := Draft.outcome_of_gather hparts hr
    obtain ⟨kind, hkind, rfl⟩ := selfPart_eq_ok hbs
    rw [hcomp] at hkind
    cases hkind
    have hmem : .selfParts ⟨r.childColumn, r.nullable, t⟩ ∈ parts := hsub (by simp)
    simp only [List.mem_append, hmem, true_or]

/-- A part that cannot be cut off is remarked on. -/
theorem cycleNote_mem_draft {k : String} (h : (s.draft t).outcome = .ok (k, blocks))
    {rs : List Reference} (hrs : s.schema.selfReferences t = .ok rs) (hr : r ∈ rs)
    (hcomp : s.classifier t t (some r.childColumn) = .ok .composition)
    (hnull : r.nullable = false) : cycleNote r ∈ (s.draft t).notes := by
  obtain ⟨key, hkey, hbody⟩ := Draft.outcome_bind_eq_ok.1 h
  obtain ⟨bs, hbs, -⟩ := Draft.outcome_bind_eq_ok.1 hbody
  obtain ⟨parts, hparts⟩ : ∃ parts, (Draft.gather (s.selfPart t) rs).outcome = .ok parts := by
    obtain ⟨parts, children, subtypes, targets, parent, hsections, -⟩ := sections_of_body hbs
    obtain ⟨rs', hrs', hparts⟩ := hsections.parts
    rw [hrs] at hrs'
    cases hrs'
    exact ⟨parts, hparts⟩
  have hpart : cycleNote r ∈ (s.selfPart t r).notes := by
    unfold selfPart
    rw [Draft.notes_bind (outcome_classify.2 hcomp)]
    simp only [hnull, if_true]
    exact List.mem_append_right _ List.mem_cons_self
  have hbodyNotes : cycleNote r ∈ (s.body t).notes := by
    unfold body
    rw [Draft.notes_bind (outcome_ask_eq_ok.2 hrs), Draft.notes_bind hparts]
    exact List.mem_append_right _ (List.mem_append_left _ (Draft.notes_subset_gather hparts hr hpart))
  unfold draft
  rw [Draft.notes_bind hkey, Draft.notes_bind hbs]
  exact List.mem_append_right _ (List.mem_append_left _ hbodyNotes)

/-- **A cascade deals with the children at a reference**, which are owned. -/
structure Cascades (s : Setting) (t : TableName) (r : Reference) (kind : Relation)
    (b : ChildCascade TableName) : Prop where
  classified : s.classifier r.child t (some r.childColumn) = .ok kind
  owning : kind.isOwning = true
  child : b.child = r.child
  column : b.column = r.childColumn
  callee : b.callee = r.child
  detach : b.detach = true ↔ kind = .aggregation ∧ r.nullable = true
  check : if r.nullable = true then s.ChecksOwners kind r.child b.ownerCheck
    else b.ownerCheck = none

/-- A cascade comes from children that are owned. -/
theorem cascades_of_mem_body (h : (s.body t).outcome = .ok blocks) {b : ChildCascade TableName}
    (hb : .childCascade b ∈ blocks) :
    ∃ is, s.schema.incoming t = .ok is ∧ ∃ i ∈ is, i.IsChild ∧
      ∃ kind, s.Cascades t i.reference kind b := by
  obtain ⟨parts, children, subtypes, targets, parent, hsections, rfl⟩ := sections_of_body h
  obtain ⟨is, his, hchildren, -⟩ := hsections.entering
  obtain ⟨i, hi, bs, hbs, hb⟩ := Draft.mem_of_gather hchildren ((hsections.mem_iff hb).2.1 rfl)
  refine ⟨is, his, i, hi, ?_⟩
  rcases entering_eq_ok hbs with ⟨-, rfl⟩ | ⟨hkey, ⟨br, -, hbridge⟩ | ⟨hplain, hchild⟩⟩
  · cases hb
  · obtain ⟨kind, check, -, -, rfl⟩ := bridge_eq_ok hbridge
    cases List.mem_singleton.1 hb
  · obtain ⟨kind, hkind, hblock⟩ := child_eq_ok hchild
    split at hblock
    · rename_i howning
      obtain ⟨check, key, -, hcheck, rfl⟩ := hblock
      cases List.mem_singleton.1 hb
      exact ⟨⟨hkey, hplain⟩, kind, hkind, howning, rfl, rfl, rfl, decide_eq_true_iff, hcheck⟩
    · rw [hblock] at hb
      cases hb

/-- And children that are owned have a cascade. -/
theorem exists_cascade (h : (s.body t).outcome = .ok blocks) {is : List Incoming}
    (his : s.schema.incoming t = .ok is) {i : Incoming} (hi : i ∈ is) (hchild : i.IsChild)
    (hkind : s.classifier i.reference.child t (some i.reference.childColumn) = .ok kind)
    (howning : kind.isOwning = true) :
    ∃ b, .childCascade b ∈ blocks ∧ s.Cascades t i.reference kind b := by
  obtain ⟨parts, children, subtypes, targets, parent, hsections, rfl⟩ := sections_of_body h
  obtain ⟨is', his', hchildren, -⟩ := hsections.entering
  rw [his] at his'
  cases his'
  obtain ⟨bs, hbs, hsub⟩ := Draft.outcome_of_gather hchildren hi
  rcases entering_eq_ok hbs with ⟨hkey, -⟩ | ⟨-, ⟨br, hbr, -⟩ | ⟨-, hblocks⟩⟩
  · rw [hchild.1] at hkey
    cases hkey
  · exact absurd hbr (hchild.2 br)
  · obtain ⟨kind', hkind', hblock⟩ := child_eq_ok hblocks
    rw [hkind] at hkind'
    cases hkind'
    rw [if_pos howning] at hblock
    obtain ⟨check, key, -, hcheck, rfl⟩ := hblock
    refine ⟨⟨i.reference.child, key, i.reference.childColumn,
      decide (kind = .aggregation ∧ i.reference.nullable = true), check, i.reference.child⟩,
      ?_, hkind, howning, rfl, rfl, rfl, decide_eq_true_iff, hcheck⟩
    simp only [List.mem_append, hsub (List.mem_singleton_self _), true_or, or_true]

/-- Lists that are strung together from parts agree if the parts do. -/
theorem forall₂_flatMap {α β γ : Type} {R : β → γ → Prop} {f : α → List β} {g : α → List γ}
    {l : List α} (h : ∀ a ∈ l, List.Forall₂ R (f a) (g a)) :
    List.Forall₂ R (l.flatMap f) (l.flatMap g) := by
  induction l with
  | nil => exact .nil
  | cons a l ih =>
    exact List.rel_append (h a List.mem_cons_self)
      (ih fun a' ha' => h a' (List.mem_cons_of_mem a ha'))

/-- **A cascade along a bridge** takes the bridge rows in any case, and the
rows behind them exactly if they are owned. -/
structure Spans {κ : Type} (s : Setting) (t : TableName) (tab : κ → TableName) (br : Bridge)
    (b : BridgeCascade κ) : Prop where
  bridge : b.bridge = br.table
  near : b.nearColumn = br.nearColumn
  far : b.farColumn = br.farColumn
  target : b.target = br.farTable
  targetKey : b.targetKey = br.farKey
  classified : ∃ kind, s.classifier br.farTable t (some br.table.name) = .ok kind ∧
    b.callee.map tab = (if kind.isOwning = true then some br.farTable else none) ∧
    s.ChecksOwners kind br.farTable b.ownerCheck

/-- What enters has a cascade along a bridge exactly if it is one. -/
theorem spans_of_entering {i : Incoming} (hi : ∀ b, i.shape = .bridge b → i.reference.childIsKey = false)
    {bs : List (Block TableName)} (h : (s.entering t i).outcome = .ok bs) :
    List.Forall₂ (s.Spans t id) i.bridge?.toList (bs.filterMap Block.bridgeCascade?) := by
  rcases entering_eq_ok h with ⟨hkey, rfl⟩ | ⟨-, ⟨br, hbr, hbridge⟩ | ⟨hplain, hchild⟩⟩
  · rw [Incoming.bridge?_eq_none fun b hb => by rw [hi b hb] at hkey; cases hkey]
    exact .nil
  · obtain ⟨kind, check, hkind, hcheck, rfl⟩ := bridge_eq_ok hbridge
    rw [Incoming.bridge?_eq_some.2 hbr]
    exact .cons ⟨rfl, rfl, rfl, rfl, rfl, kind, hkind, Option.map_id', hcheck⟩ .nil
  · rw [Incoming.bridge?_eq_none hplain]
    obtain ⟨kind, -, hblock⟩ := child_eq_ok hchild
    split at hblock
    · obtain ⟨check, key, -, -, rfl⟩ := hblock
      exact .nil
    · rw [hblock]
      exact .nil

/-- **The bridges that enter a table have one cascade each**, in order. -/
theorem spans_of_body (h : (s.body t).outcome = .ok blocks) {is : List Incoming}
    (his : s.schema.incoming t = .ok is) : List.Forall₂ (s.Spans t id) (is.filterMap (·.bridge?))
      (blocks.filterMap Block.bridgeCascade?) := by
  obtain ⟨parts, children, subtypes, targets, parent, hsections, rfl⟩ := sections_of_body h
  obtain ⟨is', his', hchildren, -⟩ := hsections.entering
  rw [his] at his'
  cases his'
  obtain ⟨hparts, -, hsubtypes, hcleanups, hparent⟩ := hsections.kinds
  have hnone {bs : List (Block TableName)} {kind : BlockKind} (hkind : ∀ b ∈ bs, b.kind = kind)
      (hne : kind ≠ .childCascade) : bs.filterMap Block.bridgeCascade? = [] :=
    List.filterMap_eq_nil_iff.2 fun b hb =>
      Block.bridgeCascade?_eq_none (by rw [hkind b hb]; exact hne)
  have hlocal : [Block.localDelete (κ := TableName) (targets.map (·.1.childColumn))].filterMap
      Block.bridgeCascade? = [] := rfl
  simp only [List.filterMap_append, hnone hparts (by decide), hnone hsubtypes (by decide),
    hnone hcleanups (by decide), hnone hparent (by decide), hlocal, List.nil_append,
    List.append_nil]
  have hkeys : ∀ i ∈ is, ∀ b, i.shape = .bridge b → i.reference.childIsKey = false := by
    intro i hi b hb
    obtain ⟨fk, -, henter⟩ := Schema.of_mem_incoming his hi
    obtain ⟨-, -, hof⟩ := Schema.enter_eq_ok_some henter
    exact (Schema.shapeOf_eq_bridge (hb ▸ hof)).1
  obtain ⟨part, hpart, rfl⟩ := Draft.gather_eq_ok hchildren
  rw [List.filterMap_eq_flatMap_toList, List.filterMap_flatMap]
  exact forall₂_flatMap fun i hi => spans_of_entering (hkeys i hi) (hpart i hi)

/-- **A block cleans up** what a reference leads to, which is owned. -/
structure CleansUp (s : Setting) (t : TableName) (r : Reference) (kind : Relation)
    (b : ReferencedCleanup TableName) : Prop where
  classified : s.classifier r.parent t (some r.childColumn) = .ok kind
  owning : kind.isOwning = true
  column : b.column = r.childColumn
  target : b.target = r.parent
  callee : b.callee = r.parent
  check : s.ChecksOwners kind r.parent b.ownerCheck

/-- What is cleaned up is owned. -/
theorem cleansUp_of_mem_body (h : (s.body t).outcome = .ok blocks)
    {b : ReferencedCleanup TableName} (hb : .referencedCleanup b ∈ blocks) :
    ∃ rs, s.schema.referenced t = .ok rs ∧ ∃ r ∈ rs, ∃ kind, s.CleansUp t r kind b := by
  obtain ⟨parts, children, subtypes, targets, parent, hsections, rfl⟩ := sections_of_body h
  obtain ⟨rs, hrs, htargets⟩ := hsections.targets
  obtain ⟨slot, r, check, hslot, heq⟩ := mem_cleanups.1 ((hsections.mem_iff hb).2.2.2 rfl)
  cases heq
  obtain ⟨r', hr', out, hout, hmem⟩ :=
    Draft.mem_of_gather htargets (List.mem_of_getElem? hslot)
  obtain ⟨kind, hkind, hcase⟩ := ownedTarget_eq_ok hout
  split at hcase
  · rename_i howning
    obtain ⟨check', hcheck, rfl⟩ := hcase
    cases List.mem_singleton.1 hmem
    exact ⟨rs, hrs, r, hr', kind, hkind, howning, rfl, rfl, rfl, hcheck⟩
  · rw [hcase] at hmem
    cases hmem

/-- And what is owned is cleaned up. -/
theorem exists_cleanup (h : (s.body t).outcome = .ok blocks) {rs : List Reference}
    (hrs : s.schema.referenced t = .ok rs) (hr : r ∈ rs)
    (hkind : s.classifier r.parent t (some r.childColumn) = .ok kind)
    (howning : kind.isOwning = true) :
    ∃ b, .referencedCleanup b ∈ blocks ∧ s.CleansUp t r kind b := by
  obtain ⟨parts, children, subtypes, targets, parent, hsections, rfl⟩ := sections_of_body h
  obtain ⟨rs', hrs', htargets⟩ := hsections.targets
  rw [hrs] at hrs'
  cases hrs'
  obtain ⟨out, hout, hsub⟩ := Draft.outcome_of_gather htargets hr
  obtain ⟨kind', hkind', hcase⟩ := ownedTarget_eq_ok hout
  rw [hkind] at hkind'
  cases hkind'
  rw [if_pos howning] at hcase
  obtain ⟨check, hcheck, rfl⟩ := hcase
  obtain ⟨slot, hslot⟩ := List.mem_iff_getElem?.1 (hsub (List.mem_singleton_self _))
  have hmem := mem_cleanups.2 ⟨slot, r, check, hslot, rfl⟩
  refine ⟨⟨r.childColumn, slot, r.parent, r.parentColumn, check, r.parent⟩, ?_, hkind, howning,
    rfl, rfl, rfl, hcheck⟩
  simp only [List.mem_append, hmem, true_or, or_true]

/-! ## In a function as it ends up -/

section Final

variable {registry : Registry} {is : List Incoming} {f₀ : DeleteFunction}
variable {callee : TableName → Callee}

/-- **Cutting** detaches the children that lead back over a link that may be
NULL, and leaves those that were detached. -/
theorem cutBlock_childCascade (c : ChildCascade Callee) :
    cutBlock registry t is (.childCascade c) = .childCascade { c with
      detach := c.detach ||
        (registry.ownerCallReaches c.callee.table t && (referenceOf? is c).any (·.nullable)) } := by
  obtain ⟨child, childKey, column, detach, check, callee⟩ := c
  unfold cutBlock leadsBack
  cases detach with
  | true => simp
  | false =>
    simp only [Bool.not_false, Bool.true_and, Bool.false_or]
    split
    · rename_i hcut
      rw [hcut]
    · rename_i hkept
      rw [Bool.eq_false_iff.2 hkept]

namespace Drafts

variable (hd : s.Drafts f₀ t blocks callee)
include hd

theorem mem_cutFunction {b : Block Callee} : b ∈ (s.cutFunction registry f₀).blocks ↔
    ∃ b₀ ∈ blocks, b = cutBlock registry f₀.table
      ((s.schema.incoming f₀.table).toOption.getD []) (b₀.map callee) := by
  unfold cutFunction
  dsimp only
  rw [hd.blocks, List.map_map, List.mem_map]
  simp only [Function.comp_apply, eq_comm]

/-- Cutting is about cascades to children only: any other block is there if
it was drafted, with what it calls by name. -/
theorem mem_iff {b : Block Callee} (hb : ∀ c, b ≠ .childCascade c) :
    b ∈ (s.cutFunction registry f₀).blocks ↔ ∃ b₀ ∈ blocks, b = b₀.map callee := by
  have hcut (b₀ : Block TableName) : b = cutBlock registry f₀.table
      ((s.schema.incoming f₀.table).toOption.getD []) (b₀.map callee) ↔ b = b₀.map callee := by
    cases b₀ with
    | childCascade c =>
      rw [Block.map, cutBlock_childCascade]
      exact ⟨fun heq => absurd heq (hb _), fun heq => absurd heq (hb _)⟩
    | _ => exact Iff.rfl
  rw [hd.mem_cutFunction]
  simp only [hcut]

/-- A cascade to children is there if it was drafted, cut if it leads back and
may be. -/
theorem childCascade_mem_iff {c : ChildCascade Callee} :
    .childCascade c ∈ (s.cutFunction registry f₀).blocks ↔ ∃ c₀, .childCascade c₀ ∈ blocks ∧
      .childCascade c = cutBlock registry f₀.table
        ((s.schema.incoming f₀.table).toOption.getD []) ((Block.childCascade c₀).map callee) := by
  rw [hd.mem_cutFunction]
  constructor
  · rintro ⟨b₀, hb₀, heq⟩
    cases b₀ with
    | childCascade c₀ => exact ⟨c₀, hb₀, heq⟩
    | _ => cases heq
  · rintro ⟨c₀, hc₀, heq⟩
    exact ⟨_, hc₀, heq⟩

/-- A cascade along a bridge ends up as it was drafted. -/
theorem spans {brs : List Bridge}
    (h : List.Forall₂ (s.Spans t id) brs (blocks.filterMap Block.bridgeCascade?)) :
    List.Forall₂ (s.Spans t (·.table)) brs
      ((s.cutFunction registry f₀).blocks.filterMap Block.bridgeCascade?) := by
  have hnamed (u : TableName) : (callee u).table = id u := hd.named u
  have hcut (b₀ : Block TableName) : (cutBlock registry f₀.table
      ((s.schema.incoming f₀.table).toOption.getD []) (b₀.map callee)).bridgeCascade? =
        b₀.bridgeCascade?.map fun b => ⟨b.bridge, b.nearColumn, b.farColumn, b.target, b.targetKey,
          b.ownerCheck, b.callee.map callee⟩ := by
    cases b₀ with
    | childCascade c =>
      rw [Block.map, cutBlock_childCascade]
      rfl
    | _ => rfl
  unfold cutFunction
  dsimp only
  rw [hd.blocks, List.map_map, List.filterMap_map]
  simp only [Function.comp_def, hcut, ← List.map_filterMap]
  rw [List.forall₂_map_right_iff]
  refine h.imp fun br b hb => ?_
  obtain ⟨kind, hkind, hcallee, hcheck⟩ := hb.classified
  refine ⟨hb.bridge, hb.near, hb.far, hb.target, hb.targetKey, kind, hkind, ?_, hcheck⟩
  rw [Option.map_map, ← hcallee]
  simp only [Function.comp_def, hnamed]

end Drafts

end Final

end Setting

end DeleteCascade
