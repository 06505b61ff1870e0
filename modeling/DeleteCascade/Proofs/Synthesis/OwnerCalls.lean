import DeleteCascade.Proofs.Synthesis.Blocks
/-!
# Programs — calls as owner

A function deletes rows of another table, through that table's function, if the
classifier says that they are owned, and only then. Which links it asks about
is read off the foreign keys of the schema (`callsOwned_of_synthesize`): those
that enter the table, sorted into subtypes, bridges and children, and those
that are listed with the table, sorted into parts of its own and what it points
at. Nothing is asked of a schema but that the synthesis succeeds; the keys that
are listed with a table count as the table's whatever table they name.
-/

namespace DeleteCascade

/-! ## Foreign keys that are references -/

namespace Schema

variable {g : Schema} {t u : TableName} {c : String} {fk : ForeignKey} {r : Reference}

/-- The column is the whole key of the table. -/
def IsKey (g : Schema) (u : TableName) (c : String) : Prop := ∃ k, g.key? u = some k ∧ sameName k c

instance (g : Schema) (u : TableName) (c : String) : Decidable (g.IsKey u c) :=
  decidable_of_iff (∃ k ∈ g.key? u, sameName k c) Iff.rfl

/-- The bridges that enter a table, in order. -/
def bridgesTo (g : Schema) (t : TableName) : List Bridge :=
  ((g.incoming t).toOption.getD []).filterMap (·.bridge?)

/-- **Children point at a table** with this column: another table does, by a
column that is not its key and no side of a bridge. -/
structure HasChildren (g : Schema) (t u : TableName) (c : String) : Prop where
  foreignKey : ∃ fk ∈ g.foreignKeysTo t, ∃ p, fk.source = u ∧ fk.columns? = some (c, p)
  other : u.same t = false
  notKey : ¬ g.IsKey u c
  notBridge : ∀ b, g.IsBridge t b → b.table = u → b.nearColumn ≠ c

/-- **A table points at another** with this column, and not as its subtype. -/
def PointsAt (g : Schema) (t u : TableName) (c : String) : Prop :=
  ∃ fk p, g.Lists t fk ∧ fk.target = u ∧ fk.columns? = some (c, p) ∧
    fk.source.same u = false ∧ ¬ (g.IsKey fk.source c ∧ g.IsKey u p)

/-- **A table points at itself** with this column. -/
def PointsAtItself (g : Schema) (t : TableName) (c : String) : Prop :=
  ∃ fk p, g.Lists t fk ∧ fk.source.same fk.target ∧ fk.columns? = some (c, p)

theorem isKey_iff_of_resolve (h : g.resolve fk = .ok r) :
    r.childIsKey = true ↔ g.IsKey r.child r.childColumn :=
  childIsKey_of_resolve h

/-- A resolved reference makes a subtype if it leads from key to key, to
another table. -/
theorem isSubtypeLink_of_resolve (h : g.resolve fk = .ok r) :
    ∃ link, g.isSubtypeLink r = .ok link ∧ (link = true ↔
      r.isSelf = false ∧ g.IsKey r.child r.childColumn ∧ g.IsKey r.parent r.parentColumn) := by
  obtain ⟨a, p, d, e, -, -, he, heq⟩ := resolve_eq_ok.1 h
  have hparent : g.lookup r.parent = .ok e := lookup_eq_ok.2 (by rw [heq, he])
  have hkey : e.isKey r.parentColumn = true ↔ g.IsKey r.parent r.parentColumn := by
    rw [heq]
    simp only [IsKey, key?, he, Option.bind_some, Table.isKey]
    cases e.key? <;> simp
  have hchild := isKey_iff_of_resolve h
  unfold isSubtypeLink
  rw [hparent]
  cases hk : r.childIsKey <;> cases hself : r.isSelf <;>
    simp_all [Except.map]

/-- What a table refers to are the foreign keys listed with it. -/
theorem mem_outgoing {rs : List Reference} (h : g.outgoing t = .ok rs) :
    r ∈ rs ↔ ∃ fk, g.Lists t fk ∧ g.resolve fk = .ok r := by
  obtain ⟨d, hd, hmap⟩ := outgoing_eq_ok h
  constructor
  · intro hr
    obtain ⟨fk, hfk, hres⟩ := exists_of_mapM_ok hmap hr
    exact ⟨fk, ⟨d, hd, hfk⟩, hres⟩
  · rintro ⟨fk, ⟨d', hd', hfk⟩, hres⟩
    rw [hd] at hd'
    cases hd'
    obtain ⟨r', hr', hres'⟩ := exists_mem_of_mapM_ok hmap hfk
    rw [hres] at hres'
    cases hres'
    exact hr'

/-- A foreign key that is listed with a table that could be read is a reference. -/
theorem resolve_of_lists {rs : List Reference} (h : g.outgoing t = .ok rs) (hfk : g.Lists t fk) :
    ∃ r ∈ rs, g.resolve fk = .ok r := by
  obtain ⟨d, hd, hmap⟩ := outgoing_eq_ok h
  obtain ⟨d', hd', hmem⟩ := hfk
  rw [hd] at hd'
  cases hd'
  exact exists_mem_of_mapM_ok hmap hmem

/-- What a table refers to in itself. -/
theorem mem_selfReferences_iff {rs : List Reference} (h : g.selfReferences t = .ok rs) :
    r ∈ rs ↔ r.isSelf = true ∧ ∃ fk, g.Lists t fk ∧ g.resolve fk = .ok r := by
  unfold selfReferences at h
  cases hout : g.outgoing t with
  | error e =>
    rw [hout] at h
    cases h
  | ok out =>
    rw [hout] at h
    cases h
    rw [List.mem_filter, mem_outgoing hout, and_comm]

/-- What a table refers to elsewhere, other than its supertypes. -/
theorem mem_referenced_iff {rs : List Reference} (h : g.referenced t = .ok rs) :
    r ∈ rs ↔ (r.isSelf = false ∧
      ¬ (g.IsKey r.child r.childColumn ∧ g.IsKey r.parent r.parentColumn)) ∧
        ∃ fk, g.Lists t fk ∧ g.resolve fk = .ok r := by
  unfold referenced at h
  cases hout : g.outgoing t with
  | error e =>
    rw [hout] at h
    cases h
  | ok out =>
    rw [hout] at h
    have hplain {fk : ForeignKey} (hres : g.resolve fk = .ok r) :
        g.isPlainReference r = .ok true ↔ r.isSelf = false ∧
          ¬ (g.IsKey r.child r.childColumn ∧ g.IsKey r.parent r.parentColumn) := by
      obtain ⟨link, hlink, hiff⟩ := isSubtypeLink_of_resolve hres
      unfold isPlainReference
      rw [hlink]
      cases hself : r.isSelf <;> cases link <;> simp_all [Except.map]
    rw [mem_filterM_ok h, mem_outgoing hout]
    constructor
    · rintro ⟨⟨fk, hlists, hres⟩, htrue⟩
      exact ⟨(hplain hres).1 htrue, fk, hlists, hres⟩
    · rintro ⟨hnot, fk, hlists, hres⟩
      exact ⟨⟨fk, hlists, hres⟩, (hplain hres).2 hnot⟩

theorem outgoing_of_selfReferences {rs : List Reference} (h : g.selfReferences t = .ok rs) :
    ∃ out, g.outgoing t = .ok out := by
  unfold selfReferences at h
  cases hout : g.outgoing t with
  | error e =>
    rw [hout] at h
    cases h
  | ok out => exact ⟨out, rfl⟩

theorem outgoing_of_referenced {rs : List Reference} (h : g.referenced t = .ok rs) :
    ∃ out, g.outgoing t = .ok out := by
  unfold referenced at h
  cases hout : g.outgoing t with
  | error e =>
    rw [hout] at h
    cases h
  | ok out => exact ⟨out, rfl⟩

theorem pointsAtItself_iff {rs : List Reference} (h : g.selfReferences t = .ok rs) :
    g.PointsAtItself t c ↔ ∃ r ∈ rs, r.childColumn = c := by
  obtain ⟨out, hout⟩ := outgoing_of_selfReferences h
  constructor
  · rintro ⟨fk, p, hlists, hself, hcols⟩
    obtain ⟨r, -, hres⟩ := resolve_of_lists hout hlists
    obtain ⟨a, p', d, e, hcols', -, -, heq⟩ := resolve_eq_ok.1 hres
    rw [hcols] at hcols'
    cases hcols'
    refine ⟨r, (mem_selfReferences_iff h).2 ⟨?_, fk, hlists, hres⟩, by rw [heq]⟩
    rw [heq]
    exact hself
  · rintro ⟨r, hr, rfl⟩
    obtain ⟨hself, fk, hlists, hres⟩ := (mem_selfReferences_iff h).1 hr
    obtain ⟨a, p, d, e, hcols, -, -, rfl⟩ := resolve_eq_ok.1 hres
    exact ⟨fk, p, hlists, hself, hcols⟩

theorem pointsAt_iff {rs : List Reference} (h : g.referenced t = .ok rs) :
    g.PointsAt t u c ↔ ∃ r ∈ rs, r.parent = u ∧ r.childColumn = c := by
  obtain ⟨out, hout⟩ := outgoing_of_referenced h
  constructor
  · rintro ⟨fk, p, hlists, rfl, hcols, hother, hnot⟩
    obtain ⟨r, -, hres⟩ := resolve_of_lists hout hlists
    obtain ⟨a, p', d, e, hcols', -, -, heq⟩ := resolve_eq_ok.1 hres
    rw [hcols] at hcols'
    cases hcols'
    refine ⟨r, (mem_referenced_iff h).2 ⟨?_, fk, hlists, hres⟩, by rw [heq], by rw [heq]⟩
    rw [heq]
    exact ⟨hother, hnot⟩
  · rintro ⟨r, hr, rfl, rfl⟩
    obtain ⟨⟨hother, hnot⟩, fk, hlists, hres⟩ := (mem_referenced_iff h).1 hr
    obtain ⟨a, p, d, e, hcols, -, -, rfl⟩ := resolve_eq_ok.1 hres
    exact ⟨fk, p, hlists, rfl, hcols, hother, hnot⟩

/-- **Whether a reference is a side of a bridge depends on its column alone**,
and not on the foreign key that it was read off. -/
theorem shape_eq_bridge_of_column {fk' : ForeignKey} {i i' : Incoming} {b : Bridge}
    (henter : g.enter fk = .ok (some i)) (henter' : g.enter fk' = .ok (some i'))
    (hchild : i'.reference.child = i.reference.child)
    (hcolumn : i'.reference.childColumn = i.reference.childColumn)
    (hshape : i'.shape = .bridge b) : i.shape = .bridge b := by
  obtain ⟨hres, -, hof⟩ := enter_eq_ok_some henter
  obtain ⟨hres', -, hof'⟩ := enter_eq_ok_some henter'
  rw [hshape] at hof'
  obtain ⟨hkey', d, hd, hbridge⟩ := shapeOf_eq_bridge hof'
  obtain ⟨a, p, d₁, e, -, hd₁, -, heq⟩ := resolve_eq_ok.1 hres
  obtain ⟨a', p', d₁', e', -, hd₁', -, heq'⟩ := resolve_eq_ok.1 hres'
  have hsource : fk'.source = fk.source := by rwa [heq, heq'] at hchild
  have hcol : a' = a := by rwa [heq, heq'] at hcolumn
  rw [hchild, heq, hd₁, Option.some.injEq] at hd
  rw [hsource, hd₁, Option.some.injEq] at hd₁'
  subst hd hd₁'
  have hkey : i.reference.childIsKey = false := by
    rw [heq', hcol] at hkey'
    rw [heq]
    exact hkey'
  have hsame : d₁.bridge? i.reference = some b := by
    rw [← hbridge, heq, heq', hsource, hcol]
    rfl
  refine Except.ok.inj (hof.symm.trans ?_)
  rw [shapeOf, if_neg (by simp [hkey]), show g.lookup i.reference.child = .ok d₁ from
    lookup_eq_ok.2 (by rw [heq, hd₁])]
  simp only [Except.map, Table.shape, hkey, hsame, Bool.false_eq_true, if_false]

theorem hasChildren_iff {is : List Incoming} (h : g.incoming t = .ok is) :
    g.HasChildren t u c ↔
      ∃ i ∈ is, i.IsChild ∧ i.reference.child = u ∧ i.reference.childColumn = c := by
  constructor
  · rintro ⟨⟨fk, hfk, p, rfl, hcols⟩, hother, hnotKey, hnotBridge⟩
    obtain ⟨found, hmap, -⟩ := incoming_eq_ok h
    obtain ⟨o, -, henter⟩ := exists_mem_of_mapM_ok hmap hfk
    have htarget := (mem_foreignKeysTo.1 hfk).2
    obtain ⟨i, rfl⟩ := exists_of_enter henter ((TableName.same_congr_right htarget _).trans hother)
    obtain ⟨hres, -, hof⟩ := enter_eq_ok_some henter
    obtain ⟨a, p', d, e, hcols', -, -, heq⟩ := resolve_eq_ok.1 hres
    rw [hcols] at hcols'
    cases hcols'
    refine ⟨i, mem_incoming h hfk henter, ⟨?_, fun b hb => ?_⟩, by rw [heq], by rw [heq]⟩
    · refine Bool.eq_false_iff.2 fun hkey => hnotKey ?_
      have hisKey := (isKey_iff_of_resolve hres).1 hkey
      rwa [heq] at hisKey
    · rw [hb] at hof
      obtain ⟨-, d', -, hbridge⟩ := shapeOf_eq_bridge hof
      obtain ⟨htable, hnear⟩ := ends_of_bridge? hbridge
      exact hnotBridge b ⟨fk, hfk, i, henter, hb⟩ (by rw [htable, heq]) (by rw [hnear, heq])
  · rintro ⟨i, hi, ⟨hkey, hplain⟩, rfl, rfl⟩
    obtain ⟨fk, hfk, henter⟩ := of_mem_incoming h hi
    obtain ⟨hres, hself, -⟩ := enter_eq_ok_some henter
    obtain ⟨a, p, d, e, hcols, -, -, heq⟩ := resolve_eq_ok.1 hres
    have htarget := (mem_foreignKeysTo.1 hfk).2
    refine ⟨⟨fk, hfk, p, by rw [heq], by rw [heq, hcols]⟩, ?_, fun hisKey => ?_, ?_⟩
    · rw [Reference.isSelf, heq] at hself
      rw [heq]
      exact (TableName.same_congr_right htarget _).symm.trans hself
    · rw [(isKey_iff_of_resolve hres).2 hisKey] at hkey
      cases hkey
    · rintro b ⟨fk', hfk', i', henter', hshape'⟩ htable hnear
      obtain ⟨-, -, hof'⟩ := enter_eq_ok_some henter'
      rw [hshape'] at hof'
      obtain ⟨-, d', -, hbridge⟩ := shapeOf_eq_bridge hof'
      obtain ⟨hchild, hcolumn⟩ := ends_of_bridge? hbridge
      exact hplain b (shape_eq_bridge_of_column henter henter' (hchild.symm.trans htable)
        (hcolumn.symm.trans hnear) hshape')

end Schema

/-! ## Exactly what is owned -/

namespace Setting

variable {s : Setting} {t root : TableName} {f f₀ : DeleteFunction} {namer : Namer}
variable {result : Synthesis} {blocks : List (Block TableName)} {callee : TableName → Callee}
variable {registry : Registry}

/-- **The classifier says that the owner owns along the link**, asked in this
spelling. -/
def Owns (s : Setting) (owned owner : TableName) (link : String) : Prop :=
  ∃ kind, s.classifier owned owner (some link) = .ok kind ∧ kind.isOwning = true

/-- **A function calls as owner exactly where the classifier says so**, where
its table was visited as `t`. -/
structure CallsOwned (s : Setting) (t : TableName) (f : DeleteFunction) : Prop where
  /-- There is a cascade to the children that are owned. -/
  children : ∀ u c, (∃ b, .childCascade b ∈ f.blocks ∧ b.child = u ∧ b.column = c) ↔
    s.schema.HasChildren f.table u c ∧ s.Owns u t c
  /-- Children are asked for other owners if they are shared and the column
  may be NULL. -/
  childChecks : ∀ b, .childCascade b ∈ f.blocks → b.callee.table = b.child ∧
    (b.ownerCheck.isSome = true ↔ s.classifier b.child t (some b.column) = .ok .aggregation ∧
      s.schema.isNullable b.child b.column = true)
  /-- There are parts at each link of the table to itself that composes. -/
  parts : ∀ c, (∃ b, .selfParts b ∈ f.blocks ∧ b.column = c) ↔
    s.schema.PointsAtItself f.table c ∧ s.classifier t t (some c) = .ok .composition
  /-- There is one cascade for each bridge, in order, which calls the far side
  if it is owned and asks it for other owners if it is shared. -/
  bridges : List.Forall₂ (s.Spans t (·.table)) (s.schema.bridgesTo f.table)
    (f.blocks.filterMap Block.bridgeCascade?)
  /-- What the table points at is cleaned up if it is owned. -/
  cleanups : ∀ u c, (∃ b, .referencedCleanup b ∈ f.blocks ∧ b.target = u ∧ b.column = c) ↔
    s.schema.PointsAt f.table u c ∧ s.Owns u t c
  /-- It is asked for other owners if it is shared. -/
  cleanupChecks : ∀ b, .referencedCleanup b ∈ f.blocks → b.callee.table = b.target ∧
    (b.ownerCheck.isSome = true ↔ s.classifier b.target t (some b.column) = .ok .aggregation)

/-- Shared rows are asked for other owners, and no others. -/
theorem ChecksOwners.isSome_iff {kind : Relation} {owned : TableName} {check : Option (List Owner)}
    (h : s.ChecksOwners kind owned check) : check.isSome = true ↔ kind = .aggregation := by
  cases check with
  | none =>
    have hkind : kind ≠ .aggregation := h
    simp [hkind]
  | some owners => simp [h.1]

/-- Children have a cascade, which asks for other owners where it should. -/
theorem Drafts.childCascade_owned (hd : s.Drafts f₀ t blocks callee) {is : List Incoming}
    (his : s.schema.incoming t = .ok is) {c : ChildCascade Callee}
    (hc : .childCascade c ∈ (s.cutFunction registry f₀).blocks) :
    ∃ i ∈ is, i.IsChild ∧ i.reference.child = c.child ∧ i.reference.childColumn = c.column ∧
      c.callee.table = c.child ∧ s.Owns c.child t c.column ∧
      (c.ownerCheck.isSome = true ↔ s.classifier c.child t (some c.column) = .ok .aggregation ∧
        s.schema.isNullable c.child c.column = true) := by
  obtain ⟨c₀, hc₀, heq⟩ := hd.childCascade_mem_iff.1 hc
  obtain ⟨is', his', i, hi, hchild, kind, hcascade⟩ :=
    cascades_of_mem_body (body_of_draft hd.draft) hc₀
  rw [his] at his'
  cases his'
  rw [Block.map, cutBlock_childCascade, Block.childCascade.injEq] at heq
  subst heq
  have hkind : s.classifier c₀.child t (some c₀.column) = .ok kind := by
    rw [hcascade.child, hcascade.column]
    exact hcascade.classified
  refine ⟨i, hi, hchild, hcascade.child.symm, hcascade.column.symm, ?_,
    ⟨kind, hkind, hcascade.owning⟩, ?_⟩
  · dsimp only
    rw [hd.named, hcascade.callee, hcascade.child]
  · obtain ⟨fk, -, henter⟩ := Schema.of_mem_incoming his hi
    have hnull := isNullable_of_resolve (Schema.enter_eq_ok_some henter).1
    rw [← hcascade.child, ← hcascade.column] at hnull
    have hcheck := hcascade.check
    rw [hkind, hnull, Except.ok.injEq]
    split at hcheck
    · rename_i hnullable
      rw [hcheck.isSome_iff, hnullable, eq_self, and_true]
    · rename_i hnot
      simp [hcheck, hnot]

/-- What a table points at and owns is cleaned up, with the question for other
owners where it should be. -/
theorem Drafts.referencedCleanup_owned (hd : s.Drafts f₀ t blocks callee) {rs : List Reference}
    (hrs : s.schema.referenced t = .ok rs) {b : ReferencedCleanup Callee}
    (hb : .referencedCleanup b ∈ (s.cutFunction registry f₀).blocks) :
    ∃ r ∈ rs, r.parent = b.target ∧ r.childColumn = b.column ∧ b.callee.table = b.target ∧
      s.Owns b.target t b.column ∧
      (b.ownerCheck.isSome = true ↔ s.classifier b.target t (some b.column) = .ok .aggregation) := by
  obtain ⟨b₀, hb₀, heq⟩ := (hd.mem_iff (fun c => by simp)).1 hb
  cases b₀ with
  | referencedCleanup b₀ =>
    cases heq
    obtain ⟨rs', hrs', r, hr, kind, hcleans⟩ := cleansUp_of_mem_body (body_of_draft hd.draft) hb₀
    rw [hrs] at hrs'
    cases hrs'
    have hkind : s.classifier b₀.target t (some b₀.column) = .ok kind := by
      rw [hcleans.target, hcleans.column]
      exact hcleans.classified
    refine ⟨r, hr, hcleans.target.symm, hcleans.column.symm, ?_, ⟨kind, hkind, hcleans.owning⟩, ?_⟩
    · dsimp only
      rw [hd.named, hcleans.callee, hcleans.target]
    · rw [hkind, Except.ok.injEq]
      exact hcleans.check.isSome_iff
  | _ => cases heq

namespace Drafts

variable {u : TableName} {c : String} (hd : s.Drafts f₀ t blocks callee)
include hd

/-- There is a cascade to just the children that are owned. -/
theorem childCascade_iff {is : List Incoming} (his : s.schema.incoming t = .ok is) :
    (∃ b, .childCascade b ∈ (s.cutFunction registry f₀).blocks ∧ b.child = u ∧ b.column = c) ↔
      s.schema.HasChildren f₀.table u c ∧ s.Owns u t c := by
  rw [Schema.hasChildren_iff (Schema.incoming_congr hd.table his)]
  constructor
  · rintro ⟨b, hb, rfl, rfl⟩
    obtain ⟨i, hi, hchild, hsource, hcolumn, -, howns, -⟩ := hd.childCascade_owned his hb
    exact ⟨⟨i, hi, hchild, hsource, hcolumn⟩, howns⟩
  · rintro ⟨⟨i, hi, hchild, rfl, rfl⟩, kind, hkind, howning⟩
    obtain ⟨b₀, hb₀, hcascade⟩ :=
      exists_cascade (body_of_draft hd.draft) his hi hchild hkind howning
    refine ⟨_, hd.childCascade_mem_iff.2 ⟨b₀, hb₀, (cutBlock_childCascade _).symm⟩, ?_, ?_⟩
    · exact hcascade.child
    · exact hcascade.column

/-- There are parts at just the links of the table to itself that compose. -/
theorem selfParts_iff {ss : List Reference} (hss : s.schema.selfReferences t = .ok ss) :
    (∃ b, .selfParts b ∈ (s.cutFunction registry f₀).blocks ∧ b.column = c) ↔
      s.schema.PointsAtItself f₀.table c ∧ s.classifier t t (some c) = .ok .composition := by
  have hbody := body_of_draft hd.draft
  rw [Schema.pointsAtItself_iff (Schema.selfReferences_congr hd.table hss)]
  constructor
  · rintro ⟨b, hb, rfl⟩
    obtain ⟨b₀, hb₀, heq⟩ := (hd.mem_iff (fun c => by simp)).1 hb
    cases b₀ with
    | selfParts b₀ =>
      cases heq
      obtain ⟨ss', hss', r, hr, hcomp, rfl⟩ := (selfParts_mem_body hbody).1 hb₀
      rw [hss] at hss'
      cases hss'
      exact ⟨⟨r, hr, rfl⟩, hcomp⟩
    | _ => cases heq
  · rintro ⟨⟨r, hr, rfl⟩, hcomp⟩
    have hmem := (selfParts_mem_body hbody).2 ⟨ss, hss, r, hr, hcomp, rfl⟩
    exact ⟨_, (hd.mem_iff (fun c => by simp)).2 ⟨_, hmem, rfl⟩, rfl⟩

/-- Just what the table points at and owns is cleaned up. -/
theorem referencedCleanup_iff {rs : List Reference} (hrs : s.schema.referenced t = .ok rs) :
    (∃ b, .referencedCleanup b ∈ (s.cutFunction registry f₀).blocks ∧ b.target = u ∧
      b.column = c) ↔ s.schema.PointsAt f₀.table u c ∧ s.Owns u t c := by
  rw [Schema.pointsAt_iff (Schema.referenced_congr hd.table hrs)]
  constructor
  · rintro ⟨b, hb, rfl, rfl⟩
    obtain ⟨r, hr, htarget, hcolumn, -, howns, -⟩ := hd.referencedCleanup_owned hrs hb
    exact ⟨⟨r, hr, htarget, hcolumn⟩, howns⟩
  · rintro ⟨⟨r, hr, rfl, rfl⟩, kind, hkind, howning⟩
    obtain ⟨b₀, hb₀, hcleans⟩ := exists_cleanup (body_of_draft hd.draft) hrs hr hkind howning
    refine ⟨_, (hd.mem_iff (fun c => by simp)).2 ⟨_, hb₀, rfl⟩, ?_, ?_⟩
    · exact hcleans.target
    · exact hcleans.column

end Drafts

/-- **Every synthesized function calls as owner exactly where the classifier
says so.** -/
theorem callsOwned_of_synthesize (h : s.synthesize namer root = .ok result)
    (hf : f ∈ result.registry.functions) : ∃ t, t.same f.table ∧ s.CallsOwned t f := by
  obtain ⟨f₀, t, drafted, callee, hd, rfl⟩ := drafts_of_synthesize h hf
  have hbody := body_of_draft hd.draft
  obtain ⟨parts, children, subtypes, targets, parent, hsections, -⟩ := sections_of_body hbody
  obtain ⟨ss, hss, -⟩ := hsections.parts
  obtain ⟨is, his, -⟩ := hsections.entering
  obtain ⟨rs, hrs, -⟩ := hsections.targets
  refine ⟨t, hd.table, fun u c => hd.childCascade_iff his, fun b hb => ?_,
    fun c => hd.selfParts_iff hss, ?_, fun u c => hd.referencedCleanup_iff hrs, fun b hb => ?_⟩
  · obtain ⟨i, -, -, -, -, hcallee, -, hcheck⟩ := hd.childCascade_owned his hb
    exact ⟨hcallee, hcheck⟩
  · change List.Forall₂ _ (s.schema.bridgesTo f₀.table) _
    rw [Schema.bridgesTo, Schema.incoming_congr hd.table his]
    exact hd.spans (spans_of_body hbody his)
  · obtain ⟨r, -, -, -, hcallee, -, hcheck⟩ := hd.referencedCleanup_owned hrs hb
    exact ⟨hcallee, hcheck⟩

end Setting

/-- The function of buildings calls that of their notes and of their address. -/
theorem Setting.callsOwned_of_synthesize_city : ∃ result f t,
    city.synthesize (.new "del_" 63) ⟨"city", "building"⟩ = .ok result ∧
      f ∈ result.registry.functions ∧ f.table = ⟨"city", "building"⟩ ∧ t.same f.table ∧
      city.CallsOwned t f ∧
      (∃ b, .referencedCleanup b ∈ f.blocks ∧ b.target = ⟨"city", "address"⟩ ∧ b.column = "address") ∧
      ∃ b, .childCascade b ∈ f.blocks ∧ b.child = ⟨"city", "note"⟩ ∧ b.column = "building" := by
  obtain ⟨result, f, hsyn, -, hf, htable, -⟩ := exists_cityDeletion
  obtain ⟨t, ht, hcalls⟩ := Setting.callsOwned_of_synthesize hsyn (Program.mem_of_lookup hf).1
  have hnote : ((city.schema.incoming ⟨"city", "building"⟩).toOption.any fun is => ∃ i ∈ is,
      i.reference.childIsKey = false ∧ i.shape = .plain ∧
        i.reference.child = ⟨"city", "note"⟩ ∧ i.reference.childColumn = "building") = true := by
    decide +kernel
  have hbuilding : TableName.same ⟨"city", "building"⟩ t = true := by
    rw [← htable]
    exact TableName.same_symm ht
  refine ⟨result, f, t, hsyn, (Program.mem_of_lookup hf).1, htable, ht, hcalls,
    (hcalls.cleanups _ _).2 ⟨?_, .composition, ?_, rfl⟩,
    (hcalls.children _ _).2 ⟨?_, .aggregation, ?_, rfl⟩⟩
  · rw [htable]
    exact ⟨⟨"building_address_fk", ⟨"city", "building"⟩, ["address"], ⟨"city", "address"⟩, ["id"],
      .noAction⟩, "id", ⟨_, rfl, by decide +kernel⟩, rfl, rfl, by decide +kernel, by decide +kernel⟩
  · exact Classifier.ofRecords_congr (TableName.same_refl _) hbuilding (sameName_refl _) rfl
  · rw [htable]
    cases his : city.schema.incoming ⟨"city", "building"⟩ with
    | error e =>
      rw [his] at hnote
      cases hnote
    | ok is =>
      rw [his] at hnote
      obtain ⟨i, hi, hkey, hplain, hchild, hcolumn⟩ := of_decide_eq_true hnote
      exact (Schema.hasChildren_iff his).2
        ⟨i, hi, ⟨hkey, fun b hb => by rw [hplain] at hb; cases hb⟩, hchild, hcolumn⟩
  · exact Classifier.ofRecords_congr (TableName.same_refl _) hbuilding (sameName_refl _) rfl

/-- Parts own their parts and their plan, by foreign keys that are listed with
another table. -/
def annotation : Setting where
  schema := ⟨"city", [{ cityTable "part" ["id"] [("whole", "part"), ("plan", "plan")] with
      foreignKeys := [] }, cityTable "plan" ["id"] [],
    { cityTable "note" ["id"] [] with
      foreignKeys := (cityTable "part" ["id"] [("whole", "part"), ("plan", "plan")]).foreignKeys }],
    []⟩
  classifier := .ofRecords [⟨"part", "part", some "whole", .composition⟩,
    ⟨"plan", "part", some "plan", .composition⟩] true
  discriminator := "class"

/-- **What is owned by a foreign key listed elsewhere is not called**: the
function of parts deletes its rows and nothing else. -/
theorem not_callsOwned : ∃ result f,
    annotation.synthesize (.new "del_" 63) ⟨"city", "part"⟩ = .ok result ∧
      f ∈ result.registry.functions ∧ f.table = ⟨"city", "part"⟩ ∧
      annotation.schema.Link f.table "whole" f.table ∧
      annotation.classifier f.table f.table (some "whole") = .ok .composition ∧
      annotation.schema.Link f.table "plan" ⟨"city", "plan"⟩ ∧
      f.table.same ⟨"city", "plan"⟩ = false ∧ annotation.schema.key? f.table = some "id" ∧
      annotation.classifier ⟨"city", "plan"⟩ f.table (some "plan") = .ok .composition ∧
      ∀ b ∈ f.blocks, b.kind = .localDelete := by
  have hfunction : ∃ result f g,
      annotation.synthesize (.new "del_" 63) ⟨"city", "part"⟩ = .ok result ∧
        f ∈ result.registry.functions ∧ g ∈ result.registry.functions ∧
        f.table = ⟨"city", "part"⟩ ∧ ∀ b ∈ f.blocks, b.kind = .localDelete := by
    refine exists_functions ?_
    -- the recursions that do not evaluate are followed for as long as they last here
    delta Setting.synthesize Setting.cutCycles Setting.cutTable Setting.leadsBack Setting.cutBlock
      Setting.cutNote? Registry.ownerCallReaches
    rw [← Setting.visitFor_eq _ 12]
    delta Setting.visitFor Setting.visitFor._f Setting.write Setting.draft Setting.body
      Setting.dispatch Schema.classMap Schema.enterClasses
    rw [← Schema.classesBelowFor_eq 4, ← Registry.searchFor_eq 12]
    decide +kernel
  obtain ⟨result, f, -, hsyn, hf, -, htable, hblocks⟩ := hfunction
  refine ⟨result, f, hsyn, hf, htable, ?_, ?_, ?_, ?_, ?_, ?_, hblocks⟩ <;> rw [htable]
  · decide +kernel
  · rfl
  · decide +kernel
  · decide +kernel
  · decide +kernel
  · rfl

end DeleteCascade
