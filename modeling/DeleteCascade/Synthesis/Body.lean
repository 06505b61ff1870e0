import DeleteCascade.Function.Basic
import DeleteCascade.Schema.Bridge
import DeleteCascade.Schema.Subtype
import DeleteCascade.Synthesis.Draft
/-!
# Synthesis — function bodies

What the delete function of a table does, read off the schema and the
classifier. A body deals with the links of its table in a fixed order:
parts in the table itself, children and bridges, subtypes, the rows
themselves, what they pointed at, and the supertype. It is planned in terms
of tables, so it does not depend on where the script starts.
-/

namespace DeleteCascade

/-- What the functions of a script are made from. -/
structure Setting where
  schema : Schema
  classifier : Classifier
  /-- The column of a supertype that holds the class of an object. -/
  discriminator : String

/-- The remark that a link on a loop of owners cannot be cut. -/
def cycleNote (r : Reference) : String :=
  r.text ++ " is a NOT NULL link on an ownership cycle; " ++
    "rows that own each other in a loop cannot be deleted"

namespace Draft

/-- Drafts something for each item in turn and strings the results
together. -/
def gather {α β : Type} (f : α → Draft (List β)) : List α → Draft (List β)
  | [] => pure []
  | a :: rest => do
    let first ← f a
    let others ← gather f rest
    return first ++ others

end Draft

namespace Setting

/-- What a reference means, asked while working on a table. -/
def classify (s : Setting) (visiting : TableName) (r : Reference) (owned owner : TableName) :
    Draft Relation :=
  .ofExcept ((s.classifier owned owner (some r.childColumn)).mapError (.conflict visiting r.text))

/-- What a bridge means, asked while working on a table. -/
def classifyBridge (s : Setting) (visiting : TableName) (b : Bridge) (owned owner : TableName) :
    Draft Relation :=
  .ofExcept ((s.classifier owned owner (some b.table.name)).mapError (.conflict visiting b.text))

/-- The column of a table as one way of being owned, if the table it points
at owns the rows. -/
def ownColumn (s : Setting) (owned : TableName) (r : Reference) : Draft (List Owner) := do
  let kind ← s.classify owned r owned r.parent
  return if kind.isOwning then [.ownColumn r.childColumn] else []

/-- The references from another table as one way of being owned, if its
rows own those they point at, or those behind a bridge do. -/
def referencingOwner (s : Setting) (owned : TableName) (i : Incoming) : Draft (List Owner) := do
  if i.reference.childIsKey then
    return []
  match i.shape with
  | .bridge b =>
    let kind ← s.classifyBridge owned b owned b.farTable
    return if kind.isOwning then [.referencing b.table b.nearColumn] else []
  | _ =>
    let kind ← s.classify owned i.reference owned i.reference.child
    return if kind.isOwning then [.referencing i.reference.child i.reference.childColumn] else []

/-- Adds a way of being owned unless it is there. -/
def addOwner (owners : List Owner) (o : Owner) : List Owner :=
  if owners.any (·.same o) then owners else owners ++ [o]

/-- All ways in which a row of a table can be owned: by what it points at,
and by what points at it. -/
def ownerCheck (s : Setting) (owned : TableName) : Draft (List Owner) := do
  let referenced ← .ask owned (s.schema.referenced owned)
  let selfReferences ← .ask owned (s.schema.selfReferences owned)
  let own ← Draft.gather (s.ownColumn owned) (referenced ++ selfReferences)
  let incoming ← .ask owned (s.schema.incoming owned)
  let referencing ← Draft.gather (s.referencingOwner owned) incoming
  return referencing.foldl addOwner own

/-- The owners to look for when rows of a table are shared: all of them for
an aggregation, none otherwise. -/
def ownerCheckFor (s : Setting) (kind : Relation) (owned : TableName) :
    Draft (Option (List Owner)) :=
  if kind = .aggregation then some <$> s.ownerCheck owned else pure none

/-- The block for parts that the table keeps of its own rows. A link that
cannot be cut is remarked on. -/
def selfPart (s : Setting) (t : TableName) (r : Reference) : Draft (List (Block TableName)) := do
  let kind ← s.classify t r t t
  if kind = .composition then
    unless r.nullable do
      Draft.note (cycleNote r)
    let callee ← .mention t
    return [.selfParts ⟨r.childColumn, r.nullable, callee⟩]
  else
    return []

/-- The block for the children at the other end of a reference, if they are
owned. Shared children are cut off, if that is possible, and kept while
they have other owners; a link that is never NULL cannot outlive its
owner. -/
def child (s : Setting) (t : TableName) (r : Reference) : Draft (List (Block TableName)) := do
  let kind ← s.classify t r r.child t
  if kind.isOwning then
    let shared := kind = .aggregation ∧ r.nullable
    let ownerCheck ← if shared then s.ownerCheckFor kind r.child else pure none
    let childKey ← .ask r.child (s.schema.keyColumn r.child)
    let callee ← .mention r.child
    return [.childCascade ⟨r.child, childKey, r.childColumn, shared, ownerCheck, callee⟩]
  else
    return []

/-- The block for a bridge. Its rows go in any case, and the rows behind it
if they are owned. -/
def bridge (s : Setting) (t : TableName) (b : Bridge) : Draft (List (Block TableName)) := do
  let kind ← s.classifyBridge t b b.farTable t
  let ownerCheck ← s.ownerCheckFor kind b.farTable
  let callee ← if kind.isOwning then some <$> .mention b.farTable else pure none
  return [.bridgeCascade
    ⟨b.table, b.nearColumn, b.farColumn, b.farTable, b.farKey, ownerCheck, callee⟩]

/-- The block for a reference that enters the table, unless it comes from a
subtype. -/
def entering (s : Setting) (t : TableName) (i : Incoming) : Draft (List (Block TableName)) := do
  if i.reference.childIsKey then
    return []
  match i.shape with
  | .bridge b => s.bridge t b
  | .suspected reason =>
    Draft.note reason
    s.child t i.reference
  | .plain => s.child t i.reference

/-- Adds a table unless it is there. -/
def addTable (tables : List TableName) (t : TableName) : List TableName :=
  if t.isIn tables then tables else tables ++ [t]

/-- The tables that hold a reference with their whole key, each once. -/
def keyChildren (incoming : List Incoming) : List TableName :=
  (incoming.filter (·.reference.childIsKey)).foldl (fun ts i => addTable ts i.reference.child) []

/-- The topmost supertype of a table of which the tables in `seen` are
known to lie below or at it. -/
def topmost (g : Schema) (seen : List TableName) (t : TableName) :
    Except SynthesisError TableName :=
  match _link : g.parentLink t with
  | .error e => .error (.lookup t e)
  | .ok none => .ok t
  | .ok (some r) =>
    if _old : r.parent.isIn seen then .ok t else topmost g (r.parent :: seen) r.parent
termination_by g.countOutside seen
decreasing_by
  refine Schema.countOutside_lt (u := r.parent) ?_ (by simpa using _old)
    (by simp [TableName.isIn]) (Schema.table?_of_parentLink _link)
  intro u hu
  simp only [TableName.isIn, List.any_cons, Bool.or_eq_true] at hu ⊢
  exact Or.inr hu

/-- Where the class of a table's objects is stored: in its topmost
supertype. -/
def findDiscriminator (s : Setting) (t : TableName) : Draft Discriminator := do
  let root ← .ofExcept (topmost s.schema [t] t)
  let known ← .ask root (s.schema.hasColumn root s.discriminator)
  if known then
    let keyColumn ← .ask root (s.schema.keyColumn root)
    return ⟨root, keyColumn, s.discriminator⟩
  else
    .ofExcept (.error (.noDiscriminator root s.discriminator))

/-- The subtypes that store classes, with their classes. -/
def typedCases (classes : Schema.ClassMap) (subtypes : List TableName) :
    List (SubtypeCase TableName) :=
  subtypes.filterMap fun t =>
    match classes.classesOf t with
    | [] => none
    | ids => some ⟨ids, t⟩

/-- The subtypes that store no classes. -/
def untyped (classes : Schema.ClassMap) (subtypes : List TableName) : List TableName :=
  subtypes.filter fun t => (classes.classesOf t).isEmpty

/-- The block for the subtypes of a table, if it has any. -/
def dispatch (s : Setting) (t : TableName) (subtypes : List TableName) :
    Draft (List (Block TableName)) := do
  if subtypes.isEmpty then
    return []
  let classes ← .ask t (s.schema.classMap t)
  let _ ← Draft.gather (fun u => List.singleton <$> Draft.mention u) subtypes
  let cases := typedCases classes subtypes
  let discriminator ← if cases.isEmpty then pure none else some <$> s.findDiscriminator t
  return [.subtypeDispatch ⟨discriminator, cases, untyped classes subtypes⟩]

/-- What a table points at and owns, with the other owners to look for. -/
def ownedTarget (s : Setting) (t : TableName) (r : Reference) :
    Draft (List (Reference × Option (List Owner))) := do
  let kind ← s.classify t r r.parent t
  if kind.isOwning then
    let ownerCheck ← s.ownerCheckFor kind r.parent
    let _ ← Draft.mention r.parent
    return [(r, ownerCheck)]
  else
    return []

/-- The blocks for what the deleted rows pointed at, each with the slot of
its column. -/
def cleanups (targets : List (Reference × Option (List Owner))) : List (Block TableName) :=
  targets.mapIdx fun slot (r, ownerCheck) =>
    .referencedCleanup ⟨r.childColumn, slot, r.parent, r.parentColumn, ownerCheck, r.parent⟩

/-- The block for the supertype of a table, if it has one. -/
def parentBlock (s : Setting) (t : TableName) : Draft (List (Block TableName)) := do
  match ← .ask t (s.schema.parentLink t) with
  | some r =>
    let callee ← .mention r.parent
    return [.parentCascade callee]
  | none => return []

/-- The body of the delete function of a table. -/
def body (s : Setting) (t : TableName) : Draft (List (Block TableName)) := do
  let selfReferences ← .ask t (s.schema.selfReferences t)
  let selfParts ← Draft.gather (s.selfPart t) selfReferences
  let incoming ← .ask t (s.schema.incoming t)
  let children ← Draft.gather (s.entering t) incoming
  let subtypes ← s.dispatch t (keyChildren incoming)
  let referenced ← .ask t (s.schema.referenced t)
  let targets ← Draft.gather (s.ownedTarget t) referenced
  let parent ← s.parentBlock t
  return selfParts ++ children ++ subtypes ++
    [.localDelete (targets.map (·.1.childColumn))] ++ cleanups targets ++ parent

/-- The key column and the body of the delete function of a table. -/
def draft (s : Setting) (t : TableName) : Draft (String × List (Block TableName)) := do
  let keyColumn ← .ask t (s.schema.keyColumn t)
  let blocks ← s.body t
  return (keyColumn, blocks)

/-- Only tables of the schema have a function. -/
theorem table?_of_draft {s : Setting} {t : TableName} {r : String × List (Block TableName)}
    (h : (s.draft t).outcome = .ok r) : (s.schema.table? t).isSome = true := by
  obtain ⟨k, hk, -⟩ := Draft.outcome_bind_eq_ok.1 h
  rw [Draft.outcome_ask] at hk
  cases hl : s.schema.lookup t with
  | error e =>
    rw [Schema.keyColumn, hl] at hk
    cases hk
  | ok d => simp [Schema.lookup_eq_ok.1 hl]

end Setting

end DeleteCascade
