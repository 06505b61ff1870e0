import DeleteCascade.Proofs.Ownership.Records
import DeleteCascade.Proofs.Schema.Bridges
import DeleteCascade.Proofs.Synthesis.Draft
/-!
# Plans — what the blocks of a body are for

A body is drafted from the references of its table and from what the
classifier says of them. `Setting.Plans` is what a block tells about the
schema: which link it follows, in which direction, what the classifier said
of it and which owners are asked. `Setting.IsBody` is the shape of a whole
body with what is never left out of it: the references to what the table
owns, and its supertype. Both are stated for any way to name the called
tables, so that they hold of drafted and of written bodies alike;
that a drafted body has the shape is `isBody_of_draft`.
-/

namespace DeleteCascade

/-- Whether a column takes NULL, in a table that is known. -/
def Schema.isNullable (g : Schema) (t : TableName) (c : String) : Bool :=
  (g.table? t).any (·.isNullable c)

/-- Whether a block of the kind comes before the rows themselves go. -/
def BlockKind.isEarly : BlockKind → Bool
  | selfParts | childCascade | subtypeDispatch => true
  | localDelete | referencedCleanup | parentCascade => false

/-- A table has a key column if it has a key. -/
theorem Schema.keyColumn_eq_ok {g : Schema} {t : TableName} {k : String} :
    g.keyColumn t = .ok k ↔ g.key? t = some k := by
  unfold keyColumn key?
  cases ht : g.table? t with
  | none => simp [lookup, ht]
  | some d => cases hk : d.key? <;> simp [lookup, ht, hk]

namespace Setting

variable {κ : Type} {s : Setting} {t t' u u' : TableName} {c c' : String} {kind kind' : Relation}
variable {r : Reference} {captured : List String}

/-! ## What the classifier says -/

/-- The classifier, asked in some spelling, says this of a link. -/
def Classifies (s : Setting) (owned owner : TableName) (link : String) (kind : Relation) : Prop :=
  ∃ a b l, a.same owned ∧ b.same owner ∧ sameName l link ∧ s.classifier a b (some l) = .ok kind

/-- **The classifier lets the owner own along the link.** -/
def MayOwn (s : Setting) (owned owner : TableName) (link : String) : Prop :=
  ∃ kind, s.Classifies owned owner link kind ∧ kind.isOwning

/-- **The classifier says this of the link in every spelling.** -/
def Means (s : Setting) (owned owner : TableName) (link : String) (kind : Relation) : Prop :=
  ∀ a b l, a.same owned → b.same owner → sameName l link → s.classifier a b (some l) = .ok kind

theorem classifies_of_eq (h : s.classifier u t (some c) = .ok kind) : s.Classifies u t c kind :=
  ⟨u, t, c, by simp, by simp, by simp, h⟩

theorem Classifies.congr (h : s.Classifies u t c kind) (hu : u.same u') (ht : t.same t') (hc : sameName c c') :
    s.Classifies u' t' c' kind := by
  obtain ⟨a, b, l, ha, hb, hl, heq⟩ := h
  exact ⟨a, b, l, TableName.same_trans ha hu, TableName.same_trans hb ht, sameName_trans hl hc, heq⟩

theorem Means.congr (h : s.Means u t c kind) (hu : u.same u') (ht : t.same t') (hc : sameName c c') :
    s.Means u' t' c' kind :=
  fun a b l ha hb hl => h a b l (TableName.same_trans ha (TableName.same_symm hu))
    (TableName.same_trans hb (TableName.same_symm ht)) (sameName_trans hl (sameName_symm hc))

/-- A classifier of records means what it says. -/
theorem means_of_ofRecords {records : List OwnershipRecord} {explicitOnly : Bool}
    (hs : s.classifier = .ofRecords records explicitOnly)
    (h : s.classifier u t (some c) = .ok kind) : s.Means u t c kind := by
  intro a b l ha hb hl
  rw [hs] at h ⊢
  exact Classifier.ofRecords_congr (TableName.same_symm ha) (TableName.same_symm hb)
    (sameName_symm hl) h

/-- What records let an owner own they do in every spelling. -/
theorem MayOwn.of_ofRecords {records : List OwnershipRecord} {explicitOnly : Bool}
    (h : s.MayOwn u t c) (hs : s.classifier = .ofRecords records explicitOnly) (hu : u.same u')
    (ht : t.same t') (hc : sameName c c') :
    (s.classifier u' t' (some c')).toOption.any (·.isOwning) := by
  obtain ⟨kind, hkind, howning⟩ := h
  obtain ⟨a, b, l, ha, hb, hl, heq⟩ := hkind.congr hu ht hc
  rw [hs] at heq ⊢
  rw [Classifier.ofRecords_congr ha hb hl heq]
  exact howning

theorem Classifies.eq_of_means (h : s.Classifies u t c kind) (hm : s.Means u t c kind') : kind = kind' := by
  obtain ⟨a, b, l, ha, hb, hl, heq⟩ := h
  rw [hm a b l ha hb hl, Except.ok.injEq] at heq
  exact heq.symm

theorem Classifies.mayOwn (h : s.Classifies u t c kind) (hown : kind.isOwning = true) : s.MayOwn u t c :=
  ⟨kind, h, hown⟩

/-- **A clear classifier** says the same of a link in every spelling. -/
def IsClear (s : Setting) : Prop :=
  ∀ owned owner link kind, s.Classifies owned owner link kind → s.Means owned owner link kind

/-- A classifier of records is clear. -/
theorem isClear_of_ofRecords {records : List OwnershipRecord} {explicitOnly : Bool}
    (hs : s.classifier = .ofRecords records explicitOnly) : s.IsClear := by
  rintro owned owner link kind ⟨a, b, l, ha, hb, hl, heq⟩
  exact (means_of_ofRecords hs heq).congr ha hb hl

/-- Where the classifier is clear, what may own does. -/
theorem IsClear.isOwning (h : s.IsClear) (hown : s.MayOwn u t c) (hkind : s.Classifies u t c kind) :
    kind.isOwning = true := by
  obtain ⟨kind', hkind', howning⟩ := hown
  rwa [hkind.eq_of_means (h _ _ _ _ hkind')]

theorem MayOwn.congr (h : s.MayOwn u t c) (hu : u.same u') (ht : t.same t') (hc : sameName c c') :
    s.MayOwn u' t' c' := by
  obtain ⟨kind, hkind, howning⟩ := h
  exact ⟨kind, hkind.congr hu ht hc, howning⟩

/-- The owners to look for are those of a shared row; a row that is not
shared has none to look for. -/
def ChecksOwners (s : Setting) (kind : Relation) (owned : TableName) :
    Option (List Owner) → Prop
  | none => kind ≠ .aggregation
  | some owners => kind = .aggregation ∧ (s.ownerCheck owned).outcome = .ok owners

/-! ## Blocks and bodies -/

/-- **What a block of the body of `t` tells**, where `tab` gives the table
behind what stands for a called function. -/
inductive Plans (s : Setting) (t : TableName) (tab : κ → TableName) (notes : List String)
    (captured : List String) : Block κ → Prop
  | selfParts {b : SelfParts κ} (link : s.schema.Regular → s.schema.Link t b.column t)
      (classified : s.Classifies t t b.column .composition) (callee : (tab b.callee).same t)
      (cut : b.detach = true ∨ ∃ r, cycleNote r ∈ notes) :
      Plans s t tab notes captured (.selfParts b)
  | childCascade {b : ChildCascade κ} {kind : Relation} (link : s.schema.Link b.child b.column t)
      (other : b.child.same t = false) (key : s.schema.key? b.child = some b.childKey)
      (notKey : sameName b.childKey b.column = false) (classified : s.Classifies b.child t b.column kind)
      (owning : kind.isOwning = true) (callee : (tab b.callee).same b.child)
      (shared : ∀ owners, b.ownerCheck = some owners →
        kind = .aggregation ∧ b.detach = true ∧ (s.ownerCheck b.child).outcome = .ok owners)
      (unshared : b.ownerCheck = none →
        kind = .aggregation → s.schema.isNullable b.child b.column = false)
      (entered : ∃ fk ∈ s.schema.foreignKeysTo t, ∃ i, s.schema.enter fk = .ok (some i) ∧
        i.reference.child = b.child ∧ i.reference.childColumn = b.column)
      (shareable : b.ownerCheck ≠ none → s.schema.isNullable b.child b.column = true) :
      Plans s t tab notes captured (.childCascade b)
  | bridgeCascade {b : BridgeCascade κ} {br : Bridge} {kind : Relation}
      (isBridge : s.schema.IsBridge t br) (table : b.bridge = br.table)
      (near : b.nearColumn = br.nearColumn) (far : b.farColumn = br.farColumn)
      (target : b.target = br.farTable) (targetKey : b.targetKey = br.farKey)
      (classified : s.Classifies br.farTable t br.table.name kind)
      (check : s.ChecksOwners kind br.farTable b.ownerCheck)
      (owned : kind.isOwning = true → ∃ c, b.callee = some c ∧ (tab c).same br.farTable)
      (unowned : kind.isOwning = false → b.callee = none) :
      Plans s t tab notes captured (.bridgeCascade b)
  | subtypeDispatch {b : SubtypeDispatch κ}
      (subtypes : ∀ c ∈ (Block.subtypeDispatch b).callees, s.schema.IsSubtype (tab c) t) :
      Plans s t tab notes captured (.subtypeDispatch b)
  | localDelete : Plans s t tab notes captured (.localDelete captured)
  | referencedCleanup {b : ReferencedCleanup κ} {kind : Relation}
      (slot : captured[b.slot]? = some b.column)
      (link : s.schema.Regular → s.schema.Link t b.column b.target)
      (other : s.schema.Regular → t.same b.target = false)
      (notKey : s.schema.Regular → ∀ k, s.schema.key? t = some k → sameName k b.column = false)
      (classified : s.Classifies b.target t b.column kind) (owning : kind.isOwning = true)
      (key : s.schema.Regular → ∃ k, s.schema.key? b.target = some k ∧ sameName k b.targetKey)
      (check : s.ChecksOwners kind b.target b.ownerCheck) (callee : (tab b.callee).same b.target) :
      Plans s t tab notes captured (.referencedCleanup b)
  | parentCascade {callee : κ} (supertype : s.schema.Regular → s.schema.IsSubtype t (tab callee)) :
      Plans s t tab notes captured (.parentCascade callee)

/-- **The shape of a body**: what comes before the rows themselves go, what
comes after, and what is never left out of the latter. -/
structure IsBody (s : Setting) (t : TableName) (tab : κ → TableName) (notes : List String)
    (captured : List String) (front back : List (Block κ)) : Prop where
  plans : ∀ b ∈ front ++ .localDelete captured :: back, s.Plans t tab notes captured b
  early : ∀ b ∈ front, b.kind.isEarly = true
  late : ∀ b ∈ back, (∃ c, b = .referencedCleanup c) ∨ ∃ callee, b = .parentCascade callee
  /-- Whatever the table references and owns is cleaned up after. -/
  targets : s.schema.Regular → ∀ c u, s.schema.Link t c u → t.same u = false →
    (∀ k, s.schema.key? t = some k → sameName k c = false) →
    (∀ kind, s.Classifies u t c kind → kind.isOwning = true) →
    ∃ b, .referencedCleanup b ∈ back ∧ sameName b.column c ∧ b.target.same u
  /-- The supertype is called. -/
  parent : s.schema.Regular → ∀ u, s.schema.IsSubtype t u → ∃ callee, .parentCascade callee ∈ back

/-- More remarks change nothing about a block. -/
theorem Plans.mono {tab : κ → TableName} {notes notes' : List String} {b : Block κ}
    (h : s.Plans t tab notes captured b) (hn : notes ⊆ notes') :
    s.Plans t tab notes' captured b := by
  cases h with
  | selfParts link classified callee cut =>
    exact .selfParts link classified callee (cut.imp id fun ⟨r, hr⟩ => ⟨r, hn hr⟩)
  | childCascade link other key notKey classified owning callee shared unshared entered shareable =>
    exact .childCascade link other key notKey classified owning callee shared unshared entered
      shareable
  | bridgeCascade isBridge table near far target targetKey classified check owned unowned =>
    exact .bridgeCascade isBridge table near far target targetKey classified check owned unowned
  | subtypeDispatch subtypes => exact .subtypeDispatch subtypes
  | localDelete => exact .localDelete
  | referencedCleanup slot link other notKey classified owning key check callee =>
    exact .referencedCleanup slot link other notKey classified owning key check callee
  | parentCascade supertype => exact .parentCascade supertype

theorem IsBody.mono {tab : κ → TableName} {notes notes' : List String} {front back : List (Block κ)}
    (h : s.IsBody t tab notes captured front back) (hn : notes ⊆ notes') :
    s.IsBody t tab notes' captured front back :=
  ⟨fun b hb => (h.plans b hb).mono hn, h.early, h.late, h.targets, h.parent⟩

end Setting

end DeleteCascade
