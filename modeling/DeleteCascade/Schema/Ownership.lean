import DeleteCascade.Text.Case
/-!
# Schema — ownership records

Foreign keys say which rows point at which, and ownership records say what
a link means: whether the row at its child end lives and dies with the row
at its parent end. A record speaks about one link of a pair of tables, the
referencing column or the bridge between them, or about all of them.
-/

namespace DeleteCascade

/-- What a link between two tables means for the life of the child row. -/
inductive Relation where
  /-- The child goes with its parent. -/
  | composition
  /-- The child goes with its last parent. -/
  | aggregation
  /-- The rows know each other; neither owns the other. -/
  | association
  /-- Nothing is known of the link. -/
  | none
  deriving DecidableEq, Inhabited

namespace Relation

/-- The name of the relation. -/
def name : Relation → String
  | composition => "composition"
  | aggregation => "aggregation"
  | association => "association"
  | none => "none"

/-- The names of the relations in documents. -/
def choices : List (String × Relation) :=
  [("composition", composition), ("aggregation", aggregation), ("association", association),
    ("none", none)]

/-- Whether the parent owns the child, alone or with others. -/
def isOwning : Relation → Bool
  | composition | aggregation => true
  | association | none => false

theorem lookup_name (r : Relation) : choices.lookup r.name = some r := by cases r <;> rfl

end Relation

/-- A statement about the links from child rows to parent rows. -/
structure OwnershipRecord where
  child : String
  parent : String
  /-- The one link meant; none if all links of the pair are. -/
  link : Option String
  kind : Relation
  deriving DecidableEq, Inhabited

namespace OwnershipRecord

/-- Whether the record is about this pair of tables. -/
def coversPair (r : OwnershipRecord) (child parent : String) : Bool :=
  sameName r.child child && sameName r.parent parent

/-- Whether the record is about this link in particular. -/
def hasLink (r : OwnershipRecord) (link : String) : Bool :=
  match r.link with
  | some l => sameName l link
  | none => false

/-- Whether the record is about all links of its pair. -/
def isGeneric (r : OwnershipRecord) : Bool := r.link.isNone

/-- Whether two records are about the same link of the same pair. -/
def sameSubject (r s : OwnershipRecord) : Bool :=
  r.coversPair s.child s.parent &&
    match r.link, s.link with
    | some a, some b => sameName a b
    | none, none => true
    | _, _ => false

end OwnershipRecord

end DeleteCascade
