import DeleteCascade.Proofs.Synthesis.Blocks
/-!
# Programs — which links are cut

Rows that are deleted by another function are cut off first where they could
keep each other alive: shared children, so that they may stay, and children
whose deletion leads back to the function that deletes them. `cutsExactly_of_synthesize`
says that a synthesis cuts these links, as far as they may be NULL, and no
others, and that it leaves a remark on each link that it would have to cut and
cannot. The calls that lead back are those of `Registry.Reaches`, along the
blocks that each caller leaves active.

Two things are read off a schema by name only. The parts of a table are at the
foreign keys listed with it, which need not be its own (`Schema.ListsOwn`), and
the link behind a cascade is the first one that leaves its column.
-/

namespace DeleteCascade

/-- The reference leads from this column, in some spelling. -/
def Reference.IsFrom (r : Reference) (u : TableName) (c : String) : Prop :=
  r.child.same u ∧ sameName r.childColumn c

/-- **The table lists foreign keys of its own only.** -/
def Schema.ListsOwn (g : Schema) (t : TableName) : Prop :=
  ∀ fk, g.Lists t fk → fk.source.same t

namespace Setting

variable {s : Setting} {t root : TableName} {f f₀ : DeleteFunction} {namer : Namer}
variable {result : Synthesis} {blocks : List (Block TableName)} {callee : TableName → Callee}
variable {registry : Registry} {is : List Incoming} {i : Incoming} {c : ChildCascade Callee}
variable {ref : Reference}

/-! ## The link behind a cascade -/

theorem isNullable_of_mem_incoming (his : s.schema.incoming t = .ok is) (hi : i ∈ is) :
    s.schema.isNullable i.reference.child i.reference.childColumn = i.reference.nullable := by
  obtain ⟨fk, -, henter⟩ := Schema.of_mem_incoming his hi
  exact isNullable_of_resolve (Schema.enter_eq_ok_some henter).1

theorem mem_of_referenceOf? (h : referenceOf? is c = some ref) :
    ∃ i ∈ is, i.reference = ref ∧ ref.IsFrom c.child c.column := by
  obtain ⟨i, hi, heq⟩ := List.mem_map.1 (List.mem_of_find?_eq_some h)
  have hfrom := List.find?_some h
  simp only [Bool.and_eq_true, beq_iff_eq] at hfrom
  exact ⟨i, hi, heq, hfrom.1, by simp [hfrom.2]⟩

/-- What cutting goes by is the link that the cascade was drafted for, or one
of the same column. -/
theorem exists_referenceOf? (his : s.schema.incoming t = .ok is) (hi : i ∈ is)
    (hchild : c.child = i.reference.child) (hcolumn : c.column = i.reference.childColumn) :
    ∃ ref, referenceOf? is c = some ref ∧ ref.nullable = s.schema.isNullable c.child c.column := by
  have hfound : (referenceOf? is c).isSome := by
    rw [referenceOf?, List.find?_isSome]
    exact ⟨i.reference, List.mem_map_of_mem hi, by simp [hchild, hcolumn]⟩
  obtain ⟨ref, href⟩ := Option.isSome_iff_exists.1 hfound
  obtain ⟨j, hj, rfl, hfrom⟩ := mem_of_referenceOf? href
  refine ⟨j.reference, href, ?_⟩
  rw [← isNullable_of_mem_incoming his hj]
  simp only [Schema.isNullable, Schema.table?_congr _ hfrom.1, Schema.isNullable_congr _ hfrom.2]

/-! ## Exactly what must be cut -/

/-- **A function cuts exactly what it must**, where its table was visited
as `t`. -/
structure CutsExactly (s : Setting) (result : Synthesis) (t : TableName) (f : DeleteFunction) :
    Prop where
  /-- Children are cut off if the column may be NULL and they are shared, or
  the calls that start from their function lead back. -/
  children : ∀ c, .childCascade c ∈ f.blocks →
    (c.detach = true ↔ s.schema.isNullable c.child c.column = true ∧
      (s.classifier c.child t (some c.column) = .ok .aggregation ∨
        result.registry.Reaches f.table (c.child, .fromOwner)))
  /-- Children that lead back and are not cut off are remarked on: the link
  is there, and if it is the only one from its column then it is the one
  that is named. -/
  remarked : ∀ c, .childCascade c ∈ f.blocks → c.detach = false →
    result.registry.Reaches f.table (c.child, .fromOwner) →
    ∃ is, s.schema.incoming f.table = .ok is ∧ (∃ i ∈ is, i.reference.IsFrom c.child c.column) ∧
      ∀ i ∈ is, i.reference.IsFrom c.child c.column →
        (∀ j ∈ is, j.reference.IsFrom c.child c.column → j.reference = i.reference) →
        cycleNote i.reference ∈ result.notes
  /-- Parts are cut off if their column may be NULL. -/
  parts : s.schema.ListsOwn f.table → ∀ p, .selfParts p ∈ f.blocks →
    (p.detach = true ↔ s.schema.isNullable f.table p.column = true)
  /-- Otherwise every link of the table to itself by that column is remarked on. -/
  partsRemarked : s.schema.ListsOwn f.table → ∀ p, .selfParts p ∈ f.blocks → p.detach = false →
    ∃ rs, s.schema.selfReferences f.table = .ok rs ∧ (∃ r ∈ rs, r.childColumn = p.column) ∧
      ∀ r ∈ rs, r.childColumn = p.column → cycleNote r ∈ result.notes

namespace Drafts

variable (hd : s.Drafts f₀ t blocks callee)
include hd

/-- Behind a drafted cascade there is a link, and it may be cut if the column
may be NULL. -/
theorem exists_reference (hc : .childCascade c ∈ f₀.blocks) :
    ∃ ref, referenceOf? ((s.schema.incoming f₀.table).toOption.getD []) c = some ref ∧
      ref.nullable = s.schema.isNullable c.child c.column := by
  rw [hd.blocks] at hc
  obtain ⟨b₀, hb₀, heq⟩ := List.mem_map.1 hc
  cases b₀ with
  | childCascade c₀ =>
    obtain ⟨is, his, i, hi, -, kind, hcascade⟩ := cascades_of_mem_body (body_of_draft hd.draft) hb₀
    cases heq
    have his' := Schema.incoming_congr hd.table his
    rw [his']
    exact exists_referenceOf? his' hi hcascade.child hcascade.column
  | _ => cases heq

/-- Where a cascade of a finished function comes from, and whether it is cut. -/
theorem childCascade_cut (hc : .childCascade c ∈ (s.cutFunction registry f₀).blocks) :
    ∃ is c₁ ref kind, s.schema.incoming f₀.table = .ok is ∧ .childCascade c₁ ∈ f₀.blocks ∧
      referenceOf? is c₁ = some ref ∧ ref.nullable = s.schema.isNullable c.child c.column ∧
      c₁.child = c.child ∧ c₁.column = c.column ∧ c₁.callee.table = c.child ∧
      s.classifier c.child t (some c.column) = .ok kind ∧
      (c₁.detach = true ↔ kind = .aggregation ∧ ref.nullable = true) ∧
      c.detach = (c₁.detach ||
        (registry.ownerCallReaches c.child f₀.table && ref.nullable)) := by
  obtain ⟨c₀, hc₀, heq⟩ := hd.childCascade_mem_iff.1 hc
  obtain ⟨is, his, i, hi, -, kind, hcascade⟩ := cascades_of_mem_body (body_of_draft hd.draft) hc₀
  have his' := Schema.incoming_congr hd.table his
  have hmem : (Block.childCascade c₀).map callee ∈ f₀.blocks := by
    rw [hd.blocks]
    exact List.mem_map_of_mem hc₀
  obtain ⟨ref, href, hnull⟩ := exists_referenceOf? (c := ⟨c₀.child, c₀.childKey, c₀.column,
    c₀.detach, c₀.ownerCheck, callee c₀.callee⟩) his' hi hcascade.child hcascade.column
  simp only [Block.map, cutBlock_childCascade, his', Except.toOption, Option.getD_some,
    Block.childCascade.injEq] at heq
  subst heq
  have hnull' : i.reference.nullable = ref.nullable := by
    rw [hnull, hcascade.child, hcascade.column, isNullable_of_mem_incoming his hi]
  refine ⟨is, _, ref, kind, his', hmem, href, hnull, rfl, rfl, ?_, ?_, ?_, ?_⟩
  · rw [hd.named, hcascade.callee, hcascade.child]
  · rw [hcascade.child, hcascade.column]
    exact hcascade.classified
  · rw [← hnull']
    exact hcascade.detach
  · rw [href, Option.any_some, hd.named, hcascade.callee, hcascade.child]

/-- Children are cut off exactly if they have to be and can be. -/
theorem detach_iff (hc : .childCascade c ∈ (s.cutFunction registry f₀).blocks) :
    c.detach = true ↔ s.schema.isNullable c.child c.column = true ∧
      (s.classifier c.child t (some c.column) = .ok .aggregation ∨
        registry.Reaches f₀.table (c.child, .fromOwner)) := by
  obtain ⟨is, c₁, ref, kind, -, -, -, hnull, -, -, -, hkind, hdetach, hcut⟩ := hd.childCascade_cut hc
  rw [hcut, Bool.or_eq_true, Bool.and_eq_true, hdetach, Registry.ownerCallReaches_iff, hnull, hkind,
    Except.ok.injEq]
  tauto

/-- What leads back and is not cut off is remarked on. -/
theorem remarked (hremarks : ∀ b ∈ f₀.blocks, ∀ note, cutNote? registry f₀.table
      ((s.schema.incoming f₀.table).toOption.getD []) b = some note → note ∈ result.notes)
    (hc : .childCascade c ∈ (s.cutFunction registry f₀).blocks) (hkept : c.detach = false)
    (hback : registry.Reaches f₀.table (c.child, .fromOwner)) :
    ∃ is, s.schema.incoming f₀.table = .ok is ∧ (∃ i ∈ is, i.reference.IsFrom c.child c.column) ∧
      ∀ i ∈ is, i.reference.IsFrom c.child c.column →
        (∀ j ∈ is, j.reference.IsFrom c.child c.column → j.reference = i.reference) →
        cycleNote i.reference ∈ result.notes := by
  obtain ⟨is, c₁, ref, kind, his, hc₁, href, -, hchild, hcolumn, hcallee, -, -, hcut⟩ :=
    hd.childCascade_cut hc
  have hreaches := Registry.ownerCallReaches_iff.2 hback
  rw [hkept, hreaches, Bool.true_and] at hcut
  obtain ⟨hkept₁, hnull⟩ := Bool.or_eq_false_iff.1 hcut.symm
  have hleads : leadsBack registry f₀.table (.childCascade c₁) = true := by
    simp [leadsBack, hkept₁, hcallee, hreaches]
  have hnote : cycleNote ref ∈ result.notes := by
    refine hremarks _ hc₁ _ ?_
    simp [cutNote?, hleads, his, Except.toOption, href, hnull]
  obtain ⟨i, hi, hiref, hfrom⟩ := mem_of_referenceOf? href
  rw [hchild, hcolumn] at hfrom
  refine ⟨is, his, ⟨i, hi, by rwa [hiref]⟩, fun j _ _ honly => ?_⟩
  rw [← honly i hi (by rwa [hiref]), hiref]
  exact hnote

/-- A part of a finished function is at a link of the table to itself, and was
drafted as it is. -/
theorem exists_selfReference {p : SelfParts Callee}
    (hp : .selfParts p ∈ (s.cutFunction registry f₀).blocks) :
    ∃ rs, s.schema.selfReferences t = .ok rs ∧ ∃ r ∈ rs, r.childColumn = p.column ∧
      r.nullable = p.detach ∧ s.classifier t t (some p.column) = .ok .composition := by
  obtain ⟨b₀, hb₀, heq⟩ := (hd.mem_iff (fun c => by simp)).1 hp
  cases b₀ with
  | selfParts p₀ =>
    cases heq
    obtain ⟨rs, hrs, r, hr, hcomp, rfl⟩ := (selfParts_mem_body (body_of_draft hd.draft)).1 hb₀
    exact ⟨rs, hrs, r, hr, rfl, rfl, hcomp⟩
  | _ => cases heq

end Drafts

/-- Where a table lists only its own foreign keys, its links to itself are of
its own columns. -/
theorem isNullable_of_mem_selfReferences (hown : s.schema.ListsOwn t) {rs : List Reference}
    (hrs : s.schema.selfReferences t = .ok rs) (hr : ref ∈ rs) :
    ref.nullable = s.schema.isNullable t ref.childColumn := by
  obtain ⟨out, hout, hmem, -⟩ := mem_selfReferences hrs hr
  obtain ⟨d, hd, hmap⟩ := Schema.outgoing_eq_ok hout
  obtain ⟨fk, hfk, hres⟩ := Schema.exists_of_mapM_ok hmap hmem
  obtain ⟨a, p, e, -, -, -, -, heq⟩ := Schema.resolve_eq_ok.1 hres
  have hchild : ref.child.same t = true := by
    rw [heq]
    exact hown fk ⟨d, hd, hfk⟩
  rw [← isNullable_of_resolve hres, Schema.isNullable, Schema.table?_congr _ hchild]
  rfl

end Setting

/-- Flats own their tenants and tenants the flats they hold, which they cannot
let go of. Tenants have lodgers. -/
def lodging : Setting where
  schema := ⟨"city", [cityTable "flat" ["id", "tenant"] [("tenant", "tenant")],
    cityTable "tenant" ["id"] [("flat", "flat"), ("host", "tenant")]].map fun t =>
      { t with primaryKey := ["id"] }, []⟩
  classifier := .ofRecords [⟨"flat", "tenant", some "tenant", .composition⟩,
    ⟨"tenant", "flat", some "flat", .composition⟩,
    ⟨"tenant", "tenant", some "host", .composition⟩] true
  discriminator := "class"

/-- The function of tenants cuts off lodgers and no flats, which lead back. -/
theorem exists_lodging : ∃ result f g,
    lodging.synthesize (.new "del_" 63) ⟨"city", "flat"⟩ = .ok result ∧
      f ∈ result.registry.functions ∧ g ∈ result.registry.functions ∧
      .childCascade ⟨⟨"city", "flat"⟩, "id", "tenant", false, none, ⟨⟨"city", "flat"⟩, "del_flat"⟩⟩ ∈
        f.blocks ∧
      .selfParts ⟨"host", true, ⟨⟨"city", "tenant"⟩, "del_tenant"⟩⟩ ∈ f.blocks ∧
      result.registry.ownerCallReaches ⟨"city", "flat"⟩ f.table = true := by
  refine exists_functions ?_
  -- the recursions that do not evaluate are followed for as long as they last here
  delta Setting.synthesize Setting.cutCycles Setting.cutTable Setting.leadsBack Setting.cutBlock
    Setting.cutNote? Registry.ownerCallReaches
  rw [← Setting.visitFor_eq _ 12]
  delta Setting.visitFor Setting.visitFor._f Setting.write Setting.draft Setting.body
    Setting.dispatch Schema.classMap Schema.enterClasses
  rw [← Schema.classesBelowFor_eq 4, ← Registry.searchFor_eq 12]
  decide +kernel

/-- Parts own their parts. The table lists the foreign key of drafts as one of
its own; a draft may have no whole, a part always has one. -/
def drafting : Setting where
  schema := ⟨"city", [{ cityTable "part" ["id", "whole"] [] with
      primaryKey := ["id"], foreignKeys := (cityTable "draft" ["id"] [("whole", "draft")]).foreignKeys },
    { cityTable "draft" ["id"] [("whole", "draft")] with foreignKeys := [] }], []⟩
  classifier := .ofRecords [⟨"part", "part", some "whole", .composition⟩] true
  discriminator := "class"

/-- Flats and tenants own each other, and no link may be NULL. Tenants point at
their flat twice with one column, by its id and by its number. -/
def tenement : Setting where
  schema := ⟨"city", [{ cityTable "flat" ["id", "number", "tenant"] [("tenant", "tenant")] with
      primaryKey := ["id"] },
    { (cityTable "tenant" ["id", "flat"] [("flat", "flat")]).addReference "flat" "flat" "number"
        .noAction with primaryKey := ["id"] }], []⟩
  classifier := .ofRecords [⟨"tenant", "flat", some "flat", .composition⟩,
    ⟨"flat", "tenant", some "tenant", .composition⟩] true
  discriminator := "class"

/-- The function of parts cuts them off by their column. -/
theorem exists_drafting : ∃ result f g,
    drafting.synthesize (.new "del_" 63) ⟨"city", "part"⟩ = .ok result ∧
      f ∈ result.registry.functions ∧ g ∈ result.registry.functions ∧
      .selfParts ⟨"whole", true, ⟨⟨"city", "part"⟩, "del_part"⟩⟩ ∈ f.blocks ∧
      drafting.schema.isNullable f.table "whole" = false := by
  refine exists_functions ?_
  delta Setting.synthesize Setting.cutCycles Setting.cutTable Setting.leadsBack Setting.cutBlock
    Setting.cutNote? Registry.ownerCallReaches
  rw [← Setting.visitFor_eq _ 12]
  delta Setting.visitFor Setting.visitFor._f Setting.write Setting.draft Setting.body
    Setting.dispatch Schema.classMap Schema.enterClasses
  rw [← Schema.classesBelowFor_eq 4, ← Registry.searchFor_eq 12]
  decide +kernel

/-- The function of flats keeps the tenants, which lead back, and one of the
links between them goes unremarked. -/
theorem exists_tenement : ∃ result f g,
    tenement.synthesize (.new "del_" 63) ⟨"city", "flat"⟩ = .ok result ∧
      f ∈ result.registry.functions ∧ g ∈ result.registry.functions ∧
      .childCascade ⟨⟨"city", "tenant"⟩, "id", "flat", false, none,
        ⟨⟨"city", "tenant"⟩, "del_tenant"⟩⟩ ∈ f.blocks ∧
      result.registry.ownerCallReaches ⟨"city", "tenant"⟩ f.table = true ∧
      ∃ i ∈ (tenement.schema.incoming f.table).toOption.getD [],
        i.reference.child.same ⟨"city", "tenant"⟩ ∧ sameName i.reference.childColumn "flat" ∧
          cycleNote i.reference ∉ result.notes := by
  refine exists_functions ?_
  delta Setting.synthesize Setting.cutCycles Setting.cutTable Setting.leadsBack Setting.cutBlock
    Setting.cutNote? Registry.ownerCallReaches
  rw [← Setting.visitFor_eq _ 12]
  delta Setting.visitFor Setting.visitFor._f Setting.write Setting.draft Setting.body
    Setting.dispatch Schema.classMap Schema.enterClasses
  rw [← Schema.classesBelowFor_eq 4, ← Registry.searchFor_eq 12]
  decide +kernel

end DeleteCascade
