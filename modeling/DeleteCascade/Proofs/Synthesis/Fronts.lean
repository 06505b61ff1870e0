import DeleteCascade.Proofs.Schema.Classes
import DeleteCascade.Proofs.Synthesis.Closed
import DeleteCascade.Proofs.Synthesis.Sections
/-!
# Plans — what is dealt with before the rows go

Before a function deletes the rows of its batch it deals with what is tied
to them: the links of the table to itself, the links that enter the table,
in the order of the tables and of their foreign keys, and the subtypes
(`Schema.fronts`). The blocks of a synthesized function follow this order
front by front (`lined_of_synthesize`), and a front that must be dealt with
has a block (`Needs`). Where a block cuts rows off, it may
(`cutsNullable_of_synthesize`).
-/

namespace DeleteCascade

/-- Something that is dealt with before the rows of a table go. -/
inductive Front where
  /-- The parts at a link of the table to itself. -/
  | part (r : Reference)
  /-- The rows at a link that enters the table, and those behind it if they
  are the rows of a bridge. -/
  | enters (i : Incoming)
  /-- The rows of the subtypes. -/
  | subtypes

namespace Front

/-- One of three things, as the front is. -/
def choose {α : Type} (ofPart : Reference → α) (ofEntering : Incoming → α) (ofSubtypes : α) :
    Front → α
  | part r => ofPart r
  | enters i => ofEntering i
  | subtypes => ofSubtypes

/-- The table whose rows are deleted at the front, with the link that has to
own them. -/
def owned? : Front → Option (TableName × String)
  | part r => some (r.child, r.childColumn)
  | enters i =>
    if i.reference.childIsKey then none
    else
      match i.shape with
      | .bridge b => some (b.farTable, b.table.name)
      | _ => some (i.reference.child, i.reference.childColumn)
  | subtypes => none

theorem owned?_child {i : Incoming} (plain : ∀ b, i.shape ≠ .bridge b)
    (notKey : i.reference.childIsKey = false) :
    (enters i).owned? = some (i.reference.child, i.reference.childColumn) := by
  cases hshape : i.shape with
  | bridge b => exact absurd hshape (plain b)
  | _ => simp only [owned?, notKey, hshape, Bool.false_eq_true, if_false]

theorem owned?_bridge {i : Incoming} {b : Bridge} (shape : i.shape = .bridge b)
    (notKey : i.reference.childIsKey = false) :
    (enters i).owned? = some (b.farTable, b.table.name) := by
  simp only [owned?, notKey, shape, Bool.false_eq_true, if_false]

/-- What the classifier has to say of the link for the rows to be deleted. -/
def Deletes : Front → Relation → Prop
  | part _, kind => kind = .composition
  | _, kind => kind.isOwning = true

theorem Deletes.isOwning {l : Front} {kind : Relation} (h : l.Deletes kind) :
    kind.isOwning = true := by
  cases l with
  | part r =>
    obtain rfl : kind = .composition := h
    rfl
  | _ => exact h

/-- Whether other owners are asked about before shared rows are deleted. A
link that is never NULL cannot outlive its owner. -/
def isChecked : Front → Bool
  | part _ => false
  | enters i => i.isBridge || i.reference.nullable
  | subtypes => false

end Front

namespace Schema

variable {g : Schema} {t u : TableName} {ls : List Front} {i : Incoming}

/-- **The fronts of a table**, in the order in which its function deals with
them. -/
def fronts (g : Schema) (t : TableName) : Except LookupError (List Front) := do
  let selfs ← g.selfReferences t
  let is ← g.incoming t
  return selfs.map .part ++ is.map .enters ++ [.subtypes]

theorem fronts_eq_ok (h : g.fronts t = .ok ls) : ∃ selfs is, g.selfReferences t = .ok selfs ∧
    g.incoming t = .ok is ∧ ls = selfs.map .part ++ is.map .enters ++ [.subtypes] := by
  unfold fronts at h
  cases hselfs : g.selfReferences t with
  | error e =>
    rw [hselfs] at h
    cases h
  | ok selfs =>
    cases his : g.incoming t with
    | error e =>
      rw [hselfs, his] at h
      cases h
    | ok is =>
      rw [hselfs, his] at h
      cases h
      exact ⟨selfs, is, rfl, rfl, rfl⟩

theorem selfReferences_congr (h : t.same u) {rs : List Reference}
    (hrs : g.selfReferences t = .ok rs) : g.selfReferences u = .ok rs := by
  unfold selfReferences at hrs ⊢
  cases hout : g.outgoing t with
  | error e =>
    rw [hout] at hrs
    cases hrs
  | ok out =>
    rw [hout] at hrs
    rw [outgoing_congr h hout]
    exact hrs

theorem referenced_congr (h : t.same u) {rs : List Reference} (hrs : g.referenced t = .ok rs) :
    g.referenced u = .ok rs := by
  unfold referenced at hrs ⊢
  cases hd : g.outgoing t with
  | error e =>
    rw [hd] at hrs
    cases hrs
  | ok all =>
    rw [hd] at hrs
    rw [outgoing_congr h hd]
    exact hrs

theorem incoming_congr (h : t.same u) {is : List Incoming} (his : g.incoming t = .ok is) :
    g.incoming u = .ok is := by
  unfold incoming at his ⊢
  cases hd : g.lookup t with
  | error e =>
    rw [hd] at his
    cases his
  | ok d =>
    rw [hd] at his
    rw [lookup_congr h hd, ← foreignKeysTo_congr h]
    exact his

theorem fronts_congr (h : t.same u) (hls : g.fronts t = .ok ls) : g.fronts u = .ok ls := by
  obtain ⟨selfs, is, hselfs, his, rfl⟩ := fronts_eq_ok hls
  unfold fronts
  rw [selfReferences_congr h hselfs, incoming_congr h his]
  rfl

/-- What is owned at the fronts of a table, if it is the owner. -/
def ownedAt (g : Schema) (t : TableName) : List (TableName × String) :=
  ((g.fronts t).toOption.getD []).filterMap Front.owned?

theorem mem_ownedAt (h : g.fronts t = .ok ls) {l : Front} (hl : l ∈ ls) {o : TableName × String}
    (ho : l.owned? = some o) (ht : t.same u) : o ∈ g.ownedAt u := by
  unfold ownedAt
  rw [fronts_congr ht h]
  exact List.mem_filterMap.2 ⟨l, hl, ho⟩

/-- **A link of the table to itself is one of its fronts.** -/
theorem Regular.exists_part (hg : g.Regular) (h : g.fronts t = .ok ls) {c : String}
    (hlink : g.Link u c t) (hself : u.same t) :
    ∃ r, .part r ∈ ls ∧ r.child.same u ∧ sameName r.childColumn c := by
  obtain ⟨selfs, is, hselfs, -, rfl⟩ := fronts_eq_ok h
  unfold selfReferences at hselfs
  cases hout : g.outgoing t with
  | error e =>
    rw [hout] at hselfs
    cases hselfs
  | ok rs =>
    rw [hout] at hselfs
    cases hselfs
    obtain ⟨r, hr, hchild, hcol, hparent⟩ :=
      hg.exists_mem_outgoing hout (hlink.congr hself (sameName_refl c) (TableName.same_refl t))
    refine ⟨r, ?_, TableName.same_trans hchild (TableName.same_symm hself), hcol⟩
    simp only [List.mem_append, List.mem_map, List.mem_filter]
    refine Or.inl (Or.inl ⟨r, ⟨hr, ?_⟩, rfl⟩)
    exact TableName.same_trans hchild (TableName.same_symm hparent)

/-- Whatever enters a table is one of its fronts. -/
theorem enters_mem (h : g.fronts t = .ok ls) {fk : ForeignKey} (hfk : fk ∈ g.foreignKeysTo t)
    (henter : g.enter fk = .ok (some i)) : .enters i ∈ ls := by
  obtain ⟨selfs, is, -, his, rfl⟩ := fronts_eq_ok h
  simp only [List.mem_append, List.mem_map]
  exact Or.inl (Or.inr ⟨i, mem_incoming his hfk henter, rfl⟩)

theorem subtypes_mem (h : g.fronts t = .ok ls) : .subtypes ∈ ls := by
  obtain ⟨selfs, is, -, -, rfl⟩ := fronts_eq_ok h
  simp

/-- **A link that enters the table is one of its fronts.** -/
theorem Regular.exists_enters (hg : g.Regular) (h : g.fronts t = .ok ls) {c : String}
    (hlink : g.Link u c t) (hother : u.same t = false) :
    ∃ i, .enters i ∈ ls ∧ i.reference.child.same u ∧ sameName i.reference.childColumn c := by
  obtain ⟨selfs, is, -, his, -⟩ := fronts_eq_ok h
  obtain ⟨fk, hfk, i, henter, hchild, hcol, -⟩ := hg.exists_enter his hlink hother
  exact ⟨i, enters_mem h hfk henter, hchild, hcol⟩

/-- What enters at a front is a link of another table. -/
theorem of_enters_mem (h : g.fronts t = .ok ls) (hi : .enters i ∈ ls) :
    ∃ fk ∈ g.foreignKeysTo t, g.enter fk = .ok (some i) := by
  obtain ⟨selfs, is, -, his, rfl⟩ := fronts_eq_ok h
  simp only [List.mem_append, List.mem_map, List.mem_singleton, reduceCtorEq, or_false,
    Front.enters.injEq] at hi
  rcases hi with ⟨r, -, hr⟩ | ⟨j, hj, rfl⟩
  · cases hr
  · exact of_mem_incoming his hj

theorem Regular.link_of_part_mem (hg : g.Regular) (h : g.fronts t = .ok ls) {r : Reference}
    (hr : .part r ∈ ls) : r.child.same t ∧ g.Link t r.childColumn t := by
  obtain ⟨selfs, is, hselfs, -, rfl⟩ := fronts_eq_ok h
  simp only [List.mem_append, List.mem_map, List.mem_singleton, reduceCtorEq, or_false,
    Front.part.injEq] at hr
  rcases hr with ⟨r', hr', rfl⟩ | ⟨i, -, hi⟩
  · unfold selfReferences at hselfs
    cases hout : g.outgoing t with
    | error e =>
      rw [hout] at hselfs
      cases hselfs
    | ok rs =>
      rw [hout] at hselfs
      cases hselfs
      obtain ⟨hmem, hself⟩ := List.mem_filter.1 hr'
      obtain ⟨fk, hfk, hres, hchild⟩ := hg.of_mem_outgoing hout hmem
      have hparent : r'.parent.same t :=
        TableName.same_trans (TableName.same_symm hself) hchild
      exact ⟨hchild, (link_of_resolve hfk hres).congr hchild (by simp) hparent⟩
  · cases hi

theorem link_of_enters_mem (h : g.fronts t = .ok ls) (hi : .enters i ∈ ls) :
    g.Link i.reference.child i.reference.childColumn t ∧ i.reference.child.same t = false := by
  obtain ⟨fk, hfk, henter⟩ := of_enters_mem h hi
  obtain ⟨hmem, htarget⟩ := mem_foreignKeysTo.1 hfk
  obtain ⟨hres, hself, -⟩ := enter_eq_ok_some henter
  have hparent : i.reference.parent.same t := by
    obtain ⟨c, p, d, e, -, -, -, heq⟩ := resolve_eq_ok.1 hres
    rw [heq]
    exact htarget
  refine ⟨(link_of_resolve hmem hres).congr (by simp) (by simp) hparent, ?_⟩
  rw [← TableName.same_congr_right hparent]
  exact hself

/-- What enters in the shape of a bridge is one, seen through the link. -/
theorem bridge_of_enters_mem (h : g.fronts t = .ok ls) (hi : .enters i ∈ ls) {b : Bridge}
    (hshape : i.shape = .bridge b) : g.IsBridge t b ∧ i.reference.childIsKey = false ∧
      b.table = i.reference.child ∧ b.nearColumn = i.reference.childColumn := by
  obtain ⟨fk, hfk, henter⟩ := of_enters_mem h hi
  obtain ⟨-, -, hof⟩ := enter_eq_ok_some henter
  rw [hshape] at hof
  obtain ⟨notKey, d, -, hbridge⟩ := shapeOf_eq_bridge hof
  exact ⟨⟨fk, hfk, i, henter, hshape⟩, notKey, ends_of_bridge? hbridge⟩

end Schema

namespace Draft

variable {α β : Type}

/-- Drafts for a list of items, item by item. -/
theorem gather_eq_ok {f : α → Draft (List β)} {l : List α} {out : List β}
    (h : (gather f l).outcome = .ok out) :
    ∃ part : α → List β, (∀ a ∈ l, (f a).outcome = .ok (part a)) ∧ out = l.flatMap part := by
  refine ⟨fun a => ((f a).outcome.toOption).getD [], ?_⟩
  induction l generalizing out with
  | nil =>
    cases h
    exact ⟨by simp, rfl⟩
  | cons a l ih =>
    unfold gather at h
    obtain ⟨first, hfirst, h⟩ := outcome_bind_eq_ok.1 h
    obtain ⟨others, hothers, h⟩ := outcome_bind_eq_ok.1 h
    cases h
    obtain ⟨hall, rfl⟩ := ih hothers
    have hhead : ((f a).outcome.toOption).getD [] = first := by
      rw [hfirst]
      rfl
    refine ⟨fun a' ha' => ?_, by rw [List.flatMap_cons, hhead]⟩
    rcases List.mem_cons.1 ha' with rfl | ha'
    · exact hfirst.trans (congrArg Except.ok hhead.symm)
    · exact hall a' ha'

end Draft

namespace Written

variable {callee : TableName → Callee} {b' : Block Callee}

theorem selfParts {c : SelfParts TableName} (h : Written callee (.selfParts c) b') :
    b' = .selfParts ⟨c.column, c.detach, callee c.callee⟩ := by
  cases h
  rfl

theorem childCascade {c : ChildCascade TableName} (h : Written callee (.childCascade c) b') :
    ∃ detach, b' = .childCascade
      ⟨c.child, c.childKey, c.column, detach, c.ownerCheck, callee c.callee⟩ := by
  cases h
  · exact ⟨_, rfl⟩
  · exact ⟨_, rfl⟩

theorem bridgeCascade {c : BridgeCascade TableName} (h : Written callee (.bridgeCascade c) b') :
    b' = .bridgeCascade ⟨c.bridge, c.nearColumn, c.farColumn, c.target, c.targetKey, c.ownerCheck,
      c.callee.map callee⟩ := by
  cases h
  rfl

theorem subtypeDispatch {c : SubtypeDispatch TableName}
    (h : Written callee (.subtypeDispatch c) b') : b' = .subtypeDispatch
      ⟨c.discriminator, c.cases.map fun case => ⟨case.classes, callee case.callee⟩,
        c.hooks.map callee⟩ := by
  cases h
  rfl

end Written

namespace Setting

variable {s : Setting} {t t' u u' root : TableName} {f : DeleteFunction} {r r' : Registry}
variable {notes notes' : List String} {namer : Namer} {result : Synthesis}

/-! ## Where rows may be cut off -/

/-- **Children are cut off only where the column takes NULL.** -/
def CutsNullable (s : Setting) (f : DeleteFunction) : Prop :=
  ∀ c : ChildCascade Callee, .childCascade c ∈ f.blocks → c.detach = true →
    s.schema.isNullable c.child c.column = true

theorem isNullable_of_resolve {fk : ForeignKey} {ref : Reference}
    (h : s.schema.resolve fk = .ok ref) :
    s.schema.isNullable ref.child ref.childColumn = ref.nullable := by
  obtain ⟨c, p, d, e, -, hd, -, rfl⟩ := Schema.resolve_eq_ok.1 h
  simp [Schema.isNullable, hd]

/-- A draft cuts children off only where they are shared and the column
takes NULL. -/
theorem isNullable_of_draft {k : String} {blocks : List (Block TableName)}
    (h : (s.draft t).outcome = .ok (k, blocks)) {c : ChildCascade TableName}
    (hc : .childCascade c ∈ blocks) (hdetach : c.detach = true) :
    s.schema.isNullable c.child c.column = true := by
  obtain ⟨parts, children, subtypes, targets, parent, hsections, rfl⟩ :=
    sections_of_body (body_of_draft h)
  obtain ⟨is, his, hchildren, -⟩ := hsections.entering
  obtain ⟨i, hi, bs, hbs, hb⟩ := Draft.mem_of_gather hchildren ((hsections.mem_iff hc).2.1 rfl)
  obtain ⟨fk, -, henter⟩ := Schema.of_mem_incoming his hi
  obtain ⟨hres, -, -⟩ := Schema.enter_eq_ok_some henter
  rcases entering_eq_ok hbs with ⟨-, rfl⟩ | ⟨-, ⟨br, -, hbridge⟩ | ⟨-, hchild⟩⟩
  · cases hb
  · obtain ⟨kind, check, -, -, rfl⟩ := bridge_eq_ok hbridge
    cases List.mem_singleton.1 hb
  · obtain ⟨kind, -, hblock⟩ := child_eq_ok hchild
    split at hblock
    · obtain ⟨check, key, -, -, rfl⟩ := hblock
      cases List.mem_singleton.1 hb
      rw [isNullable_of_resolve hres]
      exact (of_decide_eq_true hdetach).2
    · rw [hblock] at hb
      cases hb

/-- Beginning a visit finishes no function. -/
theorem mem_records_beginVisit {begins : Bool} (hr : r.beginVisit t = .ok (begins, r'))
    {e : FunctionRecord} (he : e ∈ r'.records) (hd : e.isDone = true) : e ∈ r.records := by
  obtain ⟨name, r₁, hreserve, hends⟩ := Registry.beginVisit_eq_ok hr
  have hmem : e ∈ r₁.records := by
    rcases hends with ⟨-, rfl⟩ | ⟨-, rfl⟩ <;> exact he
  rcases Registry.reserve_eq_ok hreserve with ⟨e', -, -, rfl⟩ | ⟨-, named, -, rfl⟩
  · exact hmem
  · rcases List.mem_append.1 hmem with hold | hnew
    · exact hold
    · rw [List.mem_singleton.1 hnew] at hd
      cases hd

/-- Writing a function keeps it. -/
theorem cutsNullable_write {called : List TableName}
    (h : ∀ e ∈ r.records, e.isDone = true → s.CutsNullable e.function)
    (hr : s.write r notes t = .ok (r', notes', called)) :
    ∀ e ∈ r'.records, e.isDone = true → s.CutsNullable e.function := by
  unfold write at hr
  dsimp only at hr
  split at hr
  · cases hr
  · rename_i r₁ hreserve
    split at hr
    · cases hr
    · rename_i k blocks houtcome
      cases hr
      intro e' he' hd
      obtain ⟨e, he, rfl⟩ := Registry.mem_modify.1 he'
      split
      · intro c hc hdetach
        obtain ⟨b, hb, hbc⟩ := List.mem_map.1 hc
        cases b with
        | childCascade b =>
          cases hbc
          exact isNullable_of_draft houtcome hb hdetach
        | _ => cases hbc
      · rename_i hother
        rw [if_neg hother] at hd
        rcases (Registry.mem_records_reserveAll hreserve).2 e he with hold | ⟨hblank, -⟩
        · exact h e hold hd
        · rw [hblank] at hd
          cases hd

/-- And so does cutting loops. -/
theorem cutsNullable_cutTable (h : ∀ e ∈ r.records, e.isDone = true → s.CutsNullable e.function)
    (hcut : s.cutTable (r, notes) t = .ok (r', notes')) :
    ∀ e ∈ r'.records, e.isDone = true → s.CutsNullable e.function := by
  rcases cutTable_eq_ok hcut with ⟨rfl, -, -⟩ | ⟨g, is, -, his, rfl, -⟩
  · exact h
  · intro e' he' hd
    obtain ⟨e, he, rfl⟩ := Registry.mem_modify.1 he'
    split
    · rename_i hsame
      rw [if_pos hsame] at hd
      intro c hc hdetach
      obtain ⟨b, hb, hbc⟩ := List.mem_map.1 hc
      unfold cutBlock at hbc
      split at hbc
      · rename_i d
        split at hbc
        · rename_i hcuts
          cases hbc
          simp only [Bool.and_eq_true, Option.any_eq_true] at hcuts
          obtain ⟨-, ref, href, hnullable⟩ := hcuts
          obtain ⟨i, hi, rfl⟩ := List.mem_map.1 (List.mem_of_find?_eq_some href)
          have hfound := List.find?_some href
          simp only [Bool.and_eq_true, beq_iff_eq] at hfound
          obtain ⟨fk, -, henter⟩ := Schema.of_mem_incoming his hi
          obtain ⟨hres, -, -⟩ := Schema.enter_eq_ok_some henter
          have hnull := isNullable_of_resolve hres
          rw [hnullable, Schema.isNullable, Schema.table?_congr _ hfound.1, hfound.2] at hnull
          exact hnull
        · cases hbc
          exact h e he hd _ hb hdetach
      · subst hbc
        exact h e he hd _ hb hdetach
    · rename_i hother
      rw [if_neg hother] at hd
      exact h e he hd

/-- **No synthesized function cuts off rows whose column is never NULL.** -/
theorem cutsNullable_of_synthesize (h : s.synthesize namer root = .ok result)
    (hf : f ∈ result.registry.functions) : s.CutsNullable f := by
  obtain ⟨visited, hvisit, hcut⟩ := synthesize_eq_ok h
  have hvisited : ∀ e ∈ visited.registry.records, e.isDone = true → s.CutsNullable e.function :=
    visit_keeps (P := fun r _ => ∀ e ∈ r.records, e.isDone = true → s.CutsNullable e.function)
      (fun h hbegun e he hd => h e (mem_records_beginVisit hbegun he hd) hd)
      (fun h hwritten => cutsNullable_write h hwritten) [root]
      (by simp [Registry.new]) hvisit
  have hend := foldlM_cutTable
    (P := fun r _ => ∀ e ∈ r.records, e.isDone = true → s.CutsNullable e.function)
    (fun h hcut => cutsNullable_cutTable h hcut) hvisited hcut
  obtain ⟨e, he, hd, rfl, -⟩ := Registry.mem_functions hf
  exact hend e he hd

/-! ## Front by front -/

/-- **The subtype stores classes**, as its supertype sees it. -/
def Typed (s : Setting) (t u : TableName) : Prop :=
  ∃ classes, s.schema.classMap t = .ok classes ∧ classes.classesOf u ≠ []

theorem Typed.congr (h : s.Typed t u) (ht : t.same t') (hu : u.same u') : s.Typed t' u' := by
  obtain ⟨classes, hclasses, hne⟩ := h
  exact ⟨classes, by rw [← Schema.classMap_congr ht, hclasses],
    by rwa [← Schema.ClassMap.classesOf_congr hu]⟩

/-- **A block deals with a front** of `t`. -/
inductive Meets (s : Setting) (t : TableName) : Front → Block Callee → Prop
  | part {ref : Reference} {b : SelfParts Callee} (column : b.column = ref.childColumn)
      (nullable : b.detach = true → s.schema.isNullable ref.child ref.childColumn = true) :
      Meets s t (.part ref) (.selfParts b)
  | child {i : Incoming} {b : ChildCascade Callee} (plain : ∀ br, i.shape ≠ .bridge br)
      (notKey : i.reference.childIsKey = false) (child : b.child = i.reference.child)
      (column : b.column = i.reference.childColumn) : Meets s t (.enters i) (.childCascade b)
  | bridge {i : Incoming} {br : Bridge} {b : BridgeCascade Callee} (shape : i.shape = .bridge br)
      (notKey : i.reference.childIsKey = false) (bridge : b.bridge = br.table)
      (near : b.nearColumn = br.nearColumn) (far : b.farColumn = br.farColumn)
      (target : b.target = br.farTable) : Meets s t (.enters i) (.bridgeCascade b)
  | subtypes {b : SubtypeDispatch Callee} {classes : Schema.ClassMap}
      (classMap : s.schema.classMap t = .ok classes)
      (typed : ∀ case ∈ b.cases,
        case.classes = classes.classesOf case.callee.table ∧ case.classes ≠ [])
      (untyped : ∀ hook ∈ b.hooks, classes.classesOf hook.table = [])
      (complete : s.schema.Regular → ∀ u, s.schema.IsSubtype u t →
        ∃ c ∈ (Block.subtypeDispatch b).callees, c.table.same u)
      (found : b.cases ≠ [] → b.discriminator.isSome)
      (place : ∀ d, b.discriminator = some d →
        ∃ t', t'.same t ∧ (s.findDiscriminator t').outcome = .ok d) :
      Meets s t .subtypes (.subtypeDispatch b)

/-- **A front that has a block**: the links that own in any case, those of
bridges, and the subtypes. -/
inductive Needs (s : Setting) (t : TableName) : Front → Prop
  | part {ref : Reference}
      (all : ∀ kind, s.Classifies t t ref.childColumn kind → kind = .composition) :
      Needs s t (.part ref)
  | child {i : Incoming} (notKey : i.reference.childIsKey = false)
      (all : ∀ kind, s.Classifies i.reference.child t i.reference.childColumn kind →
        kind.isOwning = true) : Needs s t (.enters i)
  | bridge {i : Incoming} {br : Bridge} (shape : i.shape = .bridge br) : Needs s t (.enters i)
  | subtypes {u : TableName} (isSubtype : s.schema.IsSubtype u t) : Needs s t .subtypes

/-- **Blocks follow the fronts of a table**: each front has the blocks that
deal with it, one after the other. -/
def Lined (s : Setting) (t : TableName) (bs : List (Block Callee)) : Prop :=
  ∃ ls, s.schema.fronts t = .ok ls ∧ ∃ part : Front → List (Block Callee), bs = ls.flatMap part ∧
    ∀ l ∈ ls, (∀ b ∈ part l, s.Meets t l b) ∧ (s.Needs t l → part l ≠ [])

theorem Meets.congr {l : Front} {b : Block Callee} (h : s.Meets t l b) (ht : t.same t') :
    s.Meets t' l b := by
  cases h with
  | part column nullable => exact .part column nullable
  | child plain notKey child column => exact .child plain notKey child column
  | bridge shape notKey bridge near far target =>
    exact .bridge shape notKey bridge near far target
  | subtypes classMap typed untyped complete found place =>
    refine .subtypes (by rw [← Schema.classMap_congr ht, classMap]) typed untyped
      (fun hg u hu => complete hg u (hu.congr (by simp) (TableName.same_symm ht))) found
      fun d hd => ?_
    obtain ⟨w, hw, hplace⟩ := place d hd
    exact ⟨w, TableName.same_trans hw ht, hplace⟩

theorem Needs.congr {l : Front} (h : s.Needs t l) (ht : t.same t') : s.Needs t' l := by
  have ht' := TableName.same_symm ht
  cases h with
  | part all => exact .part fun kind hkind => all kind (hkind.congr ht' ht' (by simp))
  | child notKey all => exact .child notKey fun kind hkind => all kind (hkind.congr (by simp) ht' (by simp))
  | bridge shape => exact .bridge shape
  | subtypes isSubtype => exact .subtypes (isSubtype.congr (TableName.same_refl _) ht)

theorem Lined.congr {bs : List (Block Callee)} (h : s.Lined t bs) (ht : t.same t') :
    s.Lined t' bs := by
  obtain ⟨ls, hls, part, rfl, hpart⟩ := h
  refine ⟨ls, Schema.fronts_congr ht hls, part, rfl, fun l hl => ?_⟩
  obtain ⟨hmeets, hneeds⟩ := hpart l hl
  exact ⟨fun b hb => (hmeets b hb).congr ht, fun h => hneeds (h.congr (TableName.same_symm ht))⟩

/-- The blocks that a body has for its subtypes deal with them. -/
theorem meets_dispatch {is : List Incoming} {bs : List (Block TableName)}
    {callee : TableName → Callee} {w : Block TableName → Block Callee}
    (his : s.schema.incoming t = .ok is) (h : (s.dispatch t (keyChildren is)).outcome = .ok bs)
    (hnamed : ∀ u, (callee u).table = u) (hw : ∀ b, Written callee b (w b)) (ht : t.same t') :
    (∀ b ∈ bs.map w, s.Meets t' .subtypes b) ∧
      (s.schema.Regular → s.Needs t' .subtypes → bs.map w ≠ []) := by
  -- every subtype holds a reference with its whole key
  have hchild (hg : s.schema.Regular) {u : TableName} (hu : s.schema.IsSubtype u t') :
      ∃ v ∈ keyChildren is, v.same u := by
    obtain ⟨k, hk, hlink, hother⟩ := hu
    have hother' : u.same t = false := by rw [TableName.same_congr_right ht, hother]
    obtain ⟨fk, hfk, i, henter, hsame, hcol, -⟩ := hg.exists_enter his
      (hlink.congr (TableName.same_refl u) (sameName_refl k) (TableName.same_symm ht)) hother'
    obtain ⟨hres, -, -⟩ := Schema.enter_eq_ok_some henter
    have hkey : i.reference.childIsKey = true := (Schema.childIsKey_of_resolve hres).2
      ⟨k, by rw [Schema.key?_congr hsame, hk], sameName_symm hcol⟩
    obtain ⟨v, hv, huv⟩ := TableName.isIn_iff.1
      (isIn_keyChildren.2 ⟨i, Schema.mem_incoming his hfk henter, hkey, hsame⟩)
    exact ⟨v, hv, TableName.same_symm huv⟩
  rcases dispatch_eq_ok h with ⟨hnone, rfl⟩ | ⟨classes, d, hclasses, rfl, hd⟩
  · refine ⟨by simp, fun hg hneeds => ?_⟩
    cases hneeds with
    | subtypes hu =>
      obtain ⟨v, hv, -⟩ := hchild hg hu
      rw [hnone] at hv
      cases hv
  · refine ⟨fun b hb => ?_, by simp⟩
    obtain rfl := List.mem_singleton.1 hb
    rw [(hw _).subtypeDispatch]
    refine .subtypes (by rw [← Schema.classMap_congr ht, hclasses]) ?_ ?_ ?_ ?_ ?_
    · intro case hcase
      obtain ⟨case', hcase', rfl⟩ := List.mem_map.1 hcase
      obtain ⟨-, heq, hne⟩ := mem_typedCases.1 hcase'
      dsimp only
      rw [hnamed]
      exact ⟨heq, hne⟩
    · intro hook hhook
      obtain ⟨u, hu, rfl⟩ := List.mem_map.1 hhook
      rw [hnamed]
      exact (mem_untyped.1 hu).2
    · intro hg u hu
      obtain ⟨v, hv, hvu⟩ := hchild hg hu
      refine ⟨callee v, ?_, by rwa [hnamed]⟩
      simp only [Block.callees, List.map_map, List.mem_append, List.mem_map, Function.comp]
      cases hclass : classes.classesOf v with
      | nil => exact Or.inr ⟨v, mem_untyped.2 ⟨hv, hclass⟩, rfl⟩
      | cons c cs =>
        refine Or.inl ⟨⟨classes.classesOf v, v⟩, mem_typedCases.2 ⟨hv, rfl, ?_⟩, rfl⟩
        rw [hclass]
        exact List.cons_ne_nil c cs
    · rintro hcases
      rcases hd with ⟨rfl, hnone⟩ | ⟨place, rfl, -⟩
      · simp [hnone] at hcases
      · rfl
    · intro place hplace
      rcases hd with ⟨rfl, -⟩ | ⟨place', rfl, hfound⟩
      · cases hplace
      · cases hplace
        exact ⟨t, ht, hfound⟩

/-- **A written body follows the fronts of its table.** -/
theorem Writes.lined {drafted : List (Block TableName)} {callee : TableName → Callee}
    {w : Block TableName → Block Callee} (hg : s.schema.Regular)
    (hw : s.Writes notes f t drafted callee w) : ∃ captured front back,
      f.blocks = front ++ .localDelete captured :: back ∧ s.Lined f.table front := by
  obtain ⟨parts, children, subtypes, targets, parent, hsections, rfl⟩ :=
    sections_of_body (body_of_draft hw.draft)
  obtain ⟨selfs, hselfs, hparts⟩ := hsections.parts
  obtain ⟨is, his, hchildren, hsubtypes⟩ := hsections.entering
  obtain ⟨ofPart, hofPart, rfl⟩ := Draft.gather_eq_ok hparts
  obtain ⟨ofEntering, hofEntering, rfl⟩ := Draft.gather_eq_ok hchildren
  obtain ⟨hmeets, hneeds⟩ := meets_dispatch his hsubtypes hw.named hw.written hw.table
  refine ⟨targets.map (·.1.childColumn),
    (selfs.flatMap ofPart ++ is.flatMap ofEntering ++ subtypes).map w,
    (cleanups targets ++ parent).map w, ?_, selfs.map .part ++ is.map .enters ++ [.subtypes],
    ?_, fun l => (l.choose ofPart ofEntering subtypes).map w, ?_, ?_⟩
  · rw [hw.blocks]
    simp [(hw.written (.localDelete _)).localDelete]
  · refine Schema.fronts_congr hw.table ?_
    unfold Schema.fronts
    rw [hselfs, his]
    rfl
  · simp [List.flatMap_append, List.flatMap_map, List.map_flatMap, Front.choose]
  · intro l hl
    simp only [List.mem_append, List.mem_map, List.mem_singleton] at hl
    rcases hl with (⟨ref, href, rfl⟩ | ⟨i, hi, rfl⟩) | rfl
    · obtain ⟨kind, hkind, hblocks⟩ := selfPart_eq_ok (hofPart ref href)
      simp only [Front.choose]
      rw [hblocks]
      refine ⟨fun b hb => ?_, fun hneeded => ?_⟩
      · split at hb
        · obtain rfl := List.mem_singleton.1 hb
          rw [(hw.written _).selfParts]
          obtain ⟨out, hout, hmem, -⟩ := mem_selfReferences hselfs href
          obtain ⟨fk, -, hres, -⟩ := hg.of_mem_outgoing hout hmem
          exact .part rfl fun hdetach => (isNullable_of_resolve hres).trans hdetach
        · cases hb
      · cases hneeded with
        | part all =>
          rw [if_pos (all kind ((classifies_of_eq hkind).congr hw.table hw.table (by simp)))]
          simp
    · have hentering := hofEntering i hi
      simp only [Front.choose]
      rcases entering_eq_ok hentering with ⟨hkey, hnil⟩ | ⟨hkey, ⟨br, hbr, hbridge⟩ | ⟨hplain, hchild⟩⟩
      · rw [hnil]
        refine ⟨by simp, fun hneeded => ?_⟩
        cases hneeded with
        | child notKey =>
          rw [hkey] at notKey
          cases notKey
        | bridge shape =>
          obtain ⟨fk, -, henter⟩ := Schema.of_mem_incoming his hi
          obtain ⟨-, -, hof⟩ := Schema.enter_eq_ok_some henter
          rw [shape] at hof
          rw [(Schema.shapeOf_eq_bridge hof).1] at hkey
          cases hkey
      · obtain ⟨kind, check, -, -, hblocks⟩ := bridge_eq_ok hbridge
        rw [hblocks]
        refine ⟨fun b hb => ?_, by simp⟩
        obtain rfl := List.mem_singleton.1 hb
        rw [(hw.written _).bridgeCascade]
        exact .bridge hbr hkey rfl rfl rfl rfl
      · obtain ⟨kind, hkind, hblock⟩ := child_eq_ok hchild
        split at hblock
        · obtain ⟨check, key, -, -, hblocks⟩ := hblock
          rw [hblocks]
          refine ⟨fun b hb => ?_, by simp⟩
          obtain rfl := List.mem_singleton.1 hb
          obtain ⟨detach, hwritten⟩ := (hw.written _).childCascade
          rw [hwritten]
          exact .child hplain hkey rfl rfl
        · rename_i hnot
          rw [hblock]
          refine ⟨by simp, fun hneeded => ?_⟩
          cases hneeded with
          | child notKey all =>
            exact absurd (all kind ((classifies_of_eq hkind).congr (by simp) hw.table (by simp)))
              hnot
          | bridge shape => exact absurd shape (hplain _)
    · exact ⟨hmeets, hneeds hg⟩

/-- A body has one place where its rows go. -/
theorem IsBody.front_unique {front front' back back' : List (Block Callee)}
    {captured captured' : List String} (h : s.IsBody t (·.table) notes captured front back)
    (heq : front' ++ .localDelete captured' :: back' = front ++ .localDelete captured :: back) :
    front' = front := by
  have hfront : .localDelete captured' ∉ front := fun hmem => by cases h.early _ hmem
  have hback : .localDelete captured' ∉ back := fun hmem => by
    rcases h.late _ hmem with ⟨c, hc⟩ | ⟨callee, hc⟩ <;> cases hc
  exact ((List.append_cons_inj_of_notMem hfront hback).1 heq.symm).1.symm

end Setting

namespace Program

variable {s : Setting} {namer : Namer} {root : TableName} {result : Synthesis} {depth : Nat}
variable {name : String} {f : DeleteFunction}

/-- **The body of a synthesized function follows the fronts of its table.** -/
theorem lined_of_synthesize (hg : s.schema.Regular) (h : s.synthesize namer root = .ok result)
    (hf : (Program.mk result.registry.functions depth).lookup name = some f)
    {captured : List String} {front back : List (Block Callee)} {notes : List String}
    (hblocks : f.blocks = front ++ .localDelete captured :: back)
    (hbody : s.IsBody f.table (·.table) notes captured front back) : s.Lined f.table front := by
  obtain ⟨t, drafted, callee, w, hw⟩ := exists_draft h hf
  obtain ⟨captured', front', back', hblocks', hlined⟩ := hw.lined hg
  rwa [← hbody.front_unique (hblocks'.symm.trans hblocks)]

/-- **Every function that a synthesized function calls is there.** -/
theorem exists_callee (h : s.synthesize namer root = .ok result)
    (hf : (Program.mk result.registry.functions depth).lookup name = some f) {c : Callee}
    (hc : c ∈ f.callees) :
    ∃ g, (Program.mk result.registry.functions depth).lookup c.function = some g := by
  obtain ⟨hend, hnamed⟩ := Setting.unfinished_of_synthesize h
  have hclosed := hend.isClosed (Setting.sound_of_synthesize h) hnamed.fits
  obtain ⟨b, hb, hcb⟩ := List.mem_flatMap.1 hc
  obtain ⟨g, hg, hname⟩ := hclosed.calls f (mem_of_lookup hf).1 b hb c hcb
  have hmem : g ∈ result.registry.functions := by
    have hg' : g ∈ result.registry.functions.filter fun g => g.table.same c.table := by simp [hg]
    exact (List.mem_filter.1 hg').1
  rw [← Option.isSome_iff_exists, lookup, List.find?_isSome]
  exact ⟨g, List.mem_reverse.2 hmem, by simp [hname]⟩

end Program

end DeleteCascade
