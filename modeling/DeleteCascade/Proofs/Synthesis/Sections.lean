import DeleteCascade.Proofs.Synthesis.Program
/-!
# Plans — the sections of a body

A body is strung together from sections: the parts of the table's own rows,
what enters the table, its subtypes, the rows themselves, what they point
at, and the supertype. `sections_of_body` opens a drafted body into them,
and one lemma for each kind of section says what it consists of, neither
more nor less. So it can be told where a block of a function comes from,
and which block a link of the schema must have.
-/

namespace DeleteCascade

namespace Setting

variable {s : Setting} {t : TableName} {r : Reference} {bs blocks : List (Block TableName)}

theorem outcome_classify {visiting owned owner : TableName} {kind : Relation} :
    (s.classify visiting r owned owner).outcome = .ok kind ↔
      s.classifier owned owner (some r.childColumn) = .ok kind :=
  Draft.mapError_eq_ok

theorem outcome_classifyBridge {visiting owned owner : TableName} {b : Bridge} {kind : Relation} :
    (s.classifyBridge visiting b owned owner).outcome = .ok kind ↔
      s.classifier owned owner (some b.table.name) = .ok kind :=
  Draft.mapError_eq_ok

/-! ## One section at a time -/

theorem outcome_ask_eq_ok {α : Type} {u : TableName} {x : Except LookupError α} {a : α} :
    (Draft.ask u x).outcome = .ok a ↔ x = .ok a :=
  Draft.mapError_eq_ok

/-- A link of the table to itself has a block exactly if it composes. -/
theorem selfPart_eq_ok (h : (s.selfPart t r).outcome = .ok bs) :
    ∃ kind, s.classifier t t (some r.childColumn) = .ok kind ∧
      bs = if kind = .composition then [.selfParts ⟨r.childColumn, r.nullable, t⟩] else [] := by
  obtain ⟨kind, hkind, h⟩ := Draft.outcome_bind_eq_ok.1 h
  refine ⟨kind, outcome_classify.1 hkind, ?_⟩
  dsimp only at h
  split at h
  · rename_i hcomp
    rw [if_pos hcomp]
    split at h <;> cases h <;> rfl
  · rename_i hcomp
    rw [if_neg hcomp]
    cases h
    rfl

/-- The children at the other end of a link have a block exactly if they
are owned. Other owners are asked about if the children are shared and the
link can be cut. -/
theorem child_eq_ok (h : (s.child t r).outcome = .ok bs) :
    ∃ kind, s.classifier r.child t (some r.childColumn) = .ok kind ∧
      if kind.isOwning = true then
        ∃ check key, s.schema.key? r.child = some key ∧
          (if r.nullable = true then s.ChecksOwners kind r.child check else check = none) ∧
          bs = [.childCascade
            ⟨r.child, key, r.childColumn, decide (kind = .aggregation ∧ r.nullable = true), check,
              r.child⟩]
      else bs = [] := by
  obtain ⟨kind, hkind, h⟩ := Draft.outcome_bind_eq_ok.1 h
  refine ⟨kind, outcome_classify.1 hkind, ?_⟩
  dsimp only at h
  split at h
  · rename_i howning
    rw [if_pos howning]
    have hlast {d : Draft (Option (List Owner))} (hd : ∀ check, d.outcome = .ok check →
          if r.nullable = true then s.ChecksOwners kind r.child check else check = none)
        (h : (do
          let check ← d
          let childKey ← Draft.ask r.child (s.schema.keyColumn r.child)
          let callee ← Draft.mention r.child
          pure [Block.childCascade ⟨r.child, childKey, r.childColumn,
            decide (kind = .aggregation ∧ r.nullable = true), check, callee⟩] :
              Draft (List (Block TableName))).outcome = .ok bs) :
        ∃ check key, s.schema.key? r.child = some key ∧
          (if r.nullable = true then s.ChecksOwners kind r.child check else check = none) ∧
          bs = [.childCascade
            ⟨r.child, key, r.childColumn, decide (kind = .aggregation ∧ r.nullable = true), check,
              r.child⟩] := by
      obtain ⟨check, hcheck, h⟩ := Draft.outcome_bind_eq_ok.1 h
      obtain ⟨key, hkey, h⟩ := Draft.outcome_bind_eq_ok.1 h
      obtain ⟨u, hu, h⟩ := Draft.outcome_bind_eq_ok.1 h
      cases hu
      cases h
      exact ⟨check, key, Schema.keyColumn_eq_ok.1 (outcome_ask_eq_ok.1 hkey), hd check hcheck, rfl⟩
    split at h
    · rename_i hshared
      refine hlast (fun check hcheck => ?_) h
      rw [if_pos hshared.2]
      exact ensures_ownerCheckFor s kind r.child check hcheck
    · rename_i hkept
      refine hlast (fun check hcheck => ?_) h
      cases hcheck
      split
      · rename_i hnull
        exact fun hagg => hkept ⟨hagg, hnull⟩
      · rfl
  · rename_i howning
    rw [if_neg howning]
    cases h
    rfl

/-- A bridge always has a block, which calls the far side exactly if it is
owned. -/
theorem bridge_eq_ok {b : Bridge} (h : (s.bridge t b).outcome = .ok bs) :
    ∃ kind check, s.classifier b.farTable t (some b.table.name) = .ok kind ∧
      s.ChecksOwners kind b.farTable check ∧ bs = [.bridgeCascade
        ⟨b.table, b.nearColumn, b.farColumn, b.farTable, b.farKey, check,
          if kind.isOwning = true then some b.farTable else none⟩] := by
  obtain ⟨kind, hkind, h⟩ := Draft.outcome_bind_eq_ok.1 h
  obtain ⟨check, hcheck, h⟩ := Draft.outcome_bind_eq_ok.1 h
  refine ⟨kind, check, outcome_classifyBridge.1 hkind,
    ensures_ownerCheckFor s kind b.farTable check hcheck, ?_⟩
  dsimp only at h
  split at h <;> rename_i howning
  · cases h
    rw [if_pos howning]
  · cases h
    rw [if_neg howning]

/-- What a link leads to is cleaned up after exactly if it is owned. -/
theorem ownedTarget_eq_ok {out : List (Reference × Option (List Owner))}
    (h : (s.ownedTarget t r).outcome = .ok out) :
    ∃ kind, s.classifier r.parent t (some r.childColumn) = .ok kind ∧
      if kind.isOwning = true then
        ∃ check, s.ChecksOwners kind r.parent check ∧ out = [(r, check)]
      else out = [] := by
  obtain ⟨kind, hkind, h⟩ := Draft.outcome_bind_eq_ok.1 h
  refine ⟨kind, outcome_classify.1 hkind, ?_⟩
  split at h <;> rename_i howning
  · obtain ⟨check, hcheck, h⟩ := Draft.outcome_bind_eq_ok.1 h
    obtain ⟨u, -, h⟩ := Draft.outcome_bind_eq_ok.1 h
    cases h
    rw [if_pos howning]
    exact ⟨check, ensures_ownerCheckFor s kind r.parent check hcheck, rfl⟩
  · cases h
    rw [if_neg howning]

/-- What enters a table by the key of its child is left to the subtypes. -/
theorem entering_eq_ok {i : Incoming} (h : (s.entering t i).outcome = .ok bs) :
    (i.reference.childIsKey = true ∧ bs = []) ∨ (i.reference.childIsKey = false ∧
      ((∃ b, i.shape = .bridge b ∧ (s.bridge t b).outcome = .ok bs) ∨
        ((∀ b, i.shape ≠ .bridge b) ∧ (s.child t i.reference).outcome = .ok bs))) := by
  unfold entering at h
  split at h
  · rename_i hkey
    cases h
    exact Or.inl ⟨hkey, rfl⟩
  · rename_i hkey
    refine Or.inr ⟨Bool.eq_false_iff.2 hkey, ?_⟩
    split at h <;> rename_i hshape
    · exact Or.inl ⟨_, hshape, h⟩
    · obtain ⟨u, -, h⟩ := Draft.outcome_bind_eq_ok.1 h
      exact Or.inr ⟨by simp [hshape], h⟩
    · exact Or.inr ⟨by simp [hshape], h⟩

/-- The subtypes of a table have one block, if there are any: a case for
each that stores classes, with the place where the class is found, and a
hook for each of the others. -/
theorem dispatch_eq_ok {subtypes : List TableName} (h : (s.dispatch t subtypes).outcome = .ok bs) :
    (subtypes = [] ∧ bs = []) ∨ ∃ classes d, s.schema.classMap t = .ok classes ∧
      bs = [.subtypeDispatch ⟨d, typedCases classes subtypes, untyped classes subtypes⟩] ∧
      ((d = none ∧ typedCases classes subtypes = []) ∨
        ∃ place, d = some place ∧ (s.findDiscriminator t).outcome = .ok place) := by
  unfold dispatch at h
  split at h
  · rename_i hnone
    cases h
    exact Or.inl ⟨List.isEmpty_iff.1 hnone, rfl⟩
  · obtain ⟨classes, hclasses, h⟩ := Draft.outcome_bind_eq_ok.1 h
    obtain ⟨ms, -, h⟩ := Draft.outcome_bind_eq_ok.1 h
    refine Or.inr ⟨classes, ?_⟩
    dsimp only at h
    split at h
    · rename_i hnone
      cases h
      exact ⟨none, outcome_ask_eq_ok.1 hclasses, rfl, Or.inl ⟨rfl, List.isEmpty_iff.1 hnone⟩⟩
    · obtain ⟨d, hd, h⟩ := Draft.outcome_bind_eq_ok.1 h
      obtain ⟨place, hplace, hd⟩ := Draft.outcome_bind_eq_ok.1
        (hd : ((s.findDiscriminator t) >>= fun place => pure (some place)).outcome = .ok d)
      cases hd
      cases h
      exact ⟨_, outcome_ask_eq_ok.1 hclasses, rfl, Or.inr ⟨place, rfl, hplace⟩⟩

/-- The class of an object is stored in its topmost supertype, beside its key. -/
theorem findDiscriminator_eq_ok {place : Discriminator}
    (h : (s.findDiscriminator t).outcome = .ok place) :
    topmost s.schema [t] t = .ok place.table ∧ s.schema.key? place.table = some place.keyColumn ∧
      place.column = s.discriminator := by
  obtain ⟨root, hroot, h⟩ := Draft.outcome_bind_eq_ok.1 h
  obtain ⟨known, -, h⟩ := Draft.outcome_bind_eq_ok.1 h
  split at h
  · obtain ⟨key, hkey, h⟩ := Draft.outcome_bind_eq_ok.1 h
    cases h
    exact ⟨hroot, Schema.keyColumn_eq_ok.1 (outcome_ask_eq_ok.1 hkey), rfl⟩
  · cases h

/-! ## The whole body -/

/-- **The sections of a body.** -/
structure Sections (s : Setting) (t : TableName) (parts children subtypes : List (Block TableName))
    (targets : List (Reference × Option (List Owner))) (parent : List (Block TableName)) :
    Prop where
  parts : ∃ rs, s.schema.selfReferences t = .ok rs ∧
    (Draft.gather (s.selfPart t) rs).outcome = .ok parts
  entering : ∃ is, s.schema.incoming t = .ok is ∧
    (Draft.gather (s.entering t) is).outcome = .ok children ∧
      (s.dispatch t (keyChildren is)).outcome = .ok subtypes
  targets : ∃ rs, s.schema.referenced t = .ok rs ∧
    (Draft.gather (s.ownedTarget t) rs).outcome = .ok targets
  parent : (s.parentBlock t).outcome = .ok parent

theorem sections_of_body (h : (s.body t).outcome = .ok blocks) :
    ∃ parts children subtypes targets parent, s.Sections t parts children subtypes targets parent ∧
      blocks = parts ++ children ++ subtypes ++
        [.localDelete (targets.map (·.1.childColumn))] ++ cleanups targets ++ parent := by
  obtain ⟨selfs, hselfs, h⟩ := Draft.outcome_bind_eq_ok.1 h
  obtain ⟨parts, hparts, h⟩ := Draft.outcome_bind_eq_ok.1 h
  obtain ⟨is, his, h⟩ := Draft.outcome_bind_eq_ok.1 h
  obtain ⟨children, hchildren, h⟩ := Draft.outcome_bind_eq_ok.1 h
  obtain ⟨subtypes, hsubtypes, h⟩ := Draft.outcome_bind_eq_ok.1 h
  obtain ⟨rs, hrs, h⟩ := Draft.outcome_bind_eq_ok.1 h
  obtain ⟨targets, htargets, h⟩ := Draft.outcome_bind_eq_ok.1 h
  obtain ⟨parent, hparent, h⟩ := Draft.outcome_bind_eq_ok.1 h
  cases h
  exact ⟨parts, children, subtypes, targets, parent,
    ⟨⟨selfs, outcome_ask_eq_ok.1 hselfs, hparts⟩,
      ⟨is, outcome_ask_eq_ok.1 his, hchildren, hsubtypes⟩,
      ⟨rs, outcome_ask_eq_ok.1 hrs, htargets⟩, hparent⟩, rfl⟩

theorem body_of_draft {k : String} (h : (s.draft t).outcome = .ok (k, blocks)) :
    (s.body t).outcome = .ok blocks := by
  obtain ⟨key, -, h⟩ := Draft.outcome_bind_eq_ok.1 h
  obtain ⟨bs, hbs, h⟩ := Draft.outcome_bind_eq_ok.1 h
  cases h
  exact hbs

namespace Sections

variable {parts children subtypes parent : List (Block TableName)}
variable {targets : List (Reference × Option (List Owner))}

/-- The sections are told apart by the kinds of their blocks. -/
theorem kinds (h : s.Sections t parts children subtypes targets parent) :
    (∀ b ∈ parts, b.kind = .selfParts) ∧ (∀ b ∈ children, b.kind = .childCascade) ∧
      (∀ b ∈ subtypes, b.kind = .subtypeDispatch) ∧
      (∀ b ∈ cleanups targets, b.kind = .referencedCleanup) ∧
      ∀ b ∈ parent, b.kind = .parentCascade := by
  obtain ⟨selfs, -, hparts⟩ := h.parts
  obtain ⟨is, -, hchildren, hsubtypes⟩ := h.entering
  refine ⟨fun b hb => ?_, fun b hb => ?_, fun b hb => ?_, fun b hb => ?_, fun b hb => ?_⟩
  · obtain ⟨r, -, bs, hbs, hb⟩ := Draft.mem_of_gather hparts hb
    obtain ⟨kind, -, rfl⟩ := selfPart_eq_ok hbs
    split at hb
    · rw [List.mem_singleton.1 hb]
      rfl
    · cases hb
  · obtain ⟨i, -, bs, hbs, hb⟩ := Draft.mem_of_gather hchildren hb
    rcases entering_eq_ok hbs with ⟨-, rfl⟩ | ⟨-, ⟨br, -, hbridge⟩ | ⟨-, hchild⟩⟩
    · cases hb
    · obtain ⟨kind, check, -, -, rfl⟩ := bridge_eq_ok hbridge
      rw [List.mem_singleton.1 hb]
      rfl
    · obtain ⟨kind, -, hblock⟩ := child_eq_ok hchild
      split at hblock
      · obtain ⟨check, key, -, -, rfl⟩ := hblock
        rw [List.mem_singleton.1 hb]
        rfl
      · rw [hblock] at hb
        cases hb
  · rcases dispatch_eq_ok hsubtypes with ⟨-, rfl⟩ | ⟨classes, d, -, rfl, -⟩
    · cases hb
    · rw [List.mem_singleton.1 hb]
      rfl
  · obtain ⟨i, r, check, -, rfl⟩ := mem_cleanups.1 hb
    rfl
  · obtain ⟨-, hparent⟩ := ((ensures_parentBlock s t) _ h.parent).1 b hb
    obtain ⟨callee, rfl, -⟩ := hparent
    rfl

variable (h : s.Sections t parts children subtypes targets parent)
include h

/-- Where a block of the whole body comes from. -/
theorem mem_iff {b : Block TableName} (hb : b ∈ parts ++ children ++ subtypes ++
    [.localDelete (targets.map (·.1.childColumn))] ++ cleanups targets ++ parent) :
    (b.kind = .selfParts → b ∈ parts) ∧ (b.kind = .childCascade → b ∈ children) ∧
      (b.kind = .subtypeDispatch → b ∈ subtypes) ∧
      (b.kind = .referencedCleanup → b ∈ cleanups targets) := by
  obtain ⟨hparts, hchildren, hsubtypes, hcleanups, hparent⟩ := h.kinds
  simp only [List.mem_append, List.mem_singleton] at hb
  rcases hb with ((((hb | hb) | hb) | rfl) | hb) | hb
  · simp [hparts b hb, hb]
  · simp [hchildren b hb, hb]
  · simp [hsubtypes b hb, hb]
  · simp [Block.kind]
  · simp [hcleanups b hb, hb]
  · simp [hparent b hb]

end Sections

/-- **Parts are at a link of the table to itself.** -/
theorem selfReferences_of_mem_body (h : (s.body t).outcome = .ok blocks)
    {b : SelfParts TableName} (hb : .selfParts b ∈ blocks) :
    ∃ rs r, s.schema.selfReferences t = .ok rs ∧ r ∈ rs ∧ b = ⟨r.childColumn, r.nullable, t⟩ := by
  obtain ⟨parts, children, subtypes, targets, parent, hsections, rfl⟩ := sections_of_body h
  obtain ⟨rs, hrs, hparts⟩ := hsections.parts
  obtain ⟨r, hr, bs, hbs, hb⟩ := Draft.mem_of_gather hparts ((hsections.mem_iff hb).1 rfl)
  obtain ⟨kind, -, rfl⟩ := selfPart_eq_ok hbs
  split at hb
  · cases List.mem_singleton.1 hb
    exact ⟨rs, r, hrs, hr, rfl⟩
  · cases hb

/-- **A dispatch looks for the class** in the topmost supertype, by its key. -/
theorem findDiscriminator_of_mem_body (h : (s.body t).outcome = .ok blocks)
    {b : SubtypeDispatch TableName} (hb : .subtypeDispatch b ∈ blocks) {place : Discriminator}
    (hplace : b.discriminator = some place) : (s.findDiscriminator t).outcome = .ok place := by
  obtain ⟨parts, children, subtypes, targets, parent, hsections, rfl⟩ := sections_of_body h
  obtain ⟨is, -, -, hsubtypes⟩ := hsections.entering
  have hmem := (hsections.mem_iff hb).2.2.1 rfl
  rcases dispatch_eq_ok hsubtypes with ⟨-, rfl⟩ | ⟨classes, d, -, rfl, hd⟩
  · cases hmem
  · cases List.mem_singleton.1 hmem
    rcases hd with ⟨rfl, -⟩ | ⟨place', rfl, hfound⟩
    · cases hplace
    · cases hplace
      exact hfound

/-- **The cases of a dispatch** are the subtypes that store classes. -/
theorem typedCases_of_mem_body (h : (s.body t).outcome = .ok blocks)
    {b : SubtypeDispatch TableName} (hb : .subtypeDispatch b ∈ blocks) :
    ∃ classes subtypes, s.schema.classMap t = .ok classes ∧
      b.cases = typedCases classes subtypes := by
  obtain ⟨parts, children, subtypes, targets, parent, hsections, rfl⟩ := sections_of_body h
  obtain ⟨is, -, -, hsubtypes⟩ := hsections.entering
  have hmem := (hsections.mem_iff hb).2.2.1 rfl
  rcases dispatch_eq_ok hsubtypes with ⟨-, rfl⟩ | ⟨classes, d, hclasses, rfl, -⟩
  · cases hmem
  · cases List.mem_singleton.1 hmem
    exact ⟨classes, _, hclasses, rfl⟩

end Setting

/-! ## Written blocks -/

namespace Written

variable {callee : TableName → Callee} {b : Block TableName}

theorem of_selfParts {c : SelfParts Callee} (h : Written callee b (.selfParts c)) :
    ∃ b', b = .selfParts b' := by
  generalize hc : Block.selfParts c = block at h
  cases h with
  | named b =>
    cases b with
    | selfParts b' => exact ⟨b', rfl⟩
    | _ => cases hc
  | cut b => cases hc

theorem of_subtypeDispatch {c : SubtypeDispatch Callee}
    (h : Written callee b (.subtypeDispatch c)) :
    ∃ b', b = .subtypeDispatch b' ∧ c.discriminator = b'.discriminator := by
  generalize hc : Block.subtypeDispatch c = block at h
  cases h with
  | named b =>
    cases b with
    | subtypeDispatch b' =>
      cases hc
      exact ⟨b', rfl, rfl⟩
    | _ => cases hc
  | cut b => cases hc

end Written

/-- A block of a function was drafted. -/
theorem Setting.Writes.exists_drafted {s : Setting} {notes : List String} {f : DeleteFunction}
    {t : TableName} {drafted : List (Block TableName)} {callee : TableName → Callee}
    {w : Block TableName → Block Callee} (h : s.Writes notes f t drafted callee w)
    {b : Block Callee} (hb : b ∈ f.blocks) : ∃ b' ∈ drafted, Written callee b' b := by
  rw [h.blocks] at hb
  obtain ⟨b', hb', rfl⟩ := List.mem_map.1 hb
  exact ⟨b', hb', h.written b'⟩

namespace Program

variable {s : Setting} {namer : Namer} {root : TableName} {result : Synthesis} {depth : Nat}
variable {name : String} {f : DeleteFunction}

/-- **A function that is looked up is a drafted body as it ends up.** -/
theorem exists_draft (h : s.synthesize namer root = .ok result)
    (hf : (Program.mk result.registry.functions depth).lookup name = some f) :
    ∃ t drafted callee w, s.Writes result.notes f t drafted callee w := by
  obtain ⟨e, he, hd, rfl, -⟩ := Registry.mem_functions (mem_of_lookup hf).1
  exact (Setting.sound_of_synthesize h).writes e he hd

end Program

end DeleteCascade
