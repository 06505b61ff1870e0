import DeleteCascade.Ownership.CityModel
import DeleteCascade.Schema.TableName
/-!
# Ownership — classifying links

A classifier tells what a link between two tables means. The one made of
records (`Classifier.ofRecords`) asks four groups of them in turn, the
first that is not empty deciding: the given records of the pair with that
link, the given ones without link, and the same two of the city model. A
group that does not agree in itself is a conflict.
-/

namespace DeleteCascade

/-- Two records of one group that contradict each other. -/
structure OwnershipConflict where
  child : String
  parent : String
  /-- The link asked for, if it is the group with that link. -/
  link : Option String
  first : Relation
  second : Relation
  deriving DecidableEq

namespace OwnershipConflict

/-- The message of the conflict. -/
def message (c : OwnershipConflict) : String :=
  let via := match c.link with
    | some l => " via " ++ l
    | none => ""
  "conflicting ownership records for " ++ c.child ++ " -> " ++ c.parent ++ via ++ ": " ++
    c.first.name ++ " vs " ++ c.second.name

end OwnershipConflict

/-- What the link from rows of a child table to rows of a parent table
means. The link is the referencing column or the bridge between them. -/
abbrev Classifier :=
  (child parent : TableName) → (link : Option String) → Except OwnershipConflict Relation

namespace OwnershipRecord

/-- The relation that a group of records agrees on; none if it is empty. -/
def agreed (child parent : TableName) (link : Option String) (group : List OwnershipRecord) :
    Except OwnershipConflict (Option Relation) :=
  match group with
  | [] => .ok none
  | first :: rest =>
    match rest.find? fun r => r.kind ≠ first.kind with
    | some other =>
      .error { child := child.name, parent := parent.name, link, first := first.kind
               second := other.kind }
    | none => .ok (some first.kind)

/-- The records about this very link of the pair. -/
def specific (records : List OwnershipRecord) (child parent : TableName) (link : String) :
    List OwnershipRecord :=
  records.filter fun r => r.coversPair child.name parent.name && r.hasLink link

/-- The records about all links of the pair. -/
def generic (records : List OwnershipRecord) (child parent : TableName) : List OwnershipRecord :=
  records.filter fun r => r.coversPair child.name parent.name && r.isGeneric

/-- What the records say of a link: those about this very link first. -/
def consult (records : List OwnershipRecord) (child parent : TableName) (link : Option String) :
    Except OwnershipConflict (Option Relation) :=
  let fallback := agreed child parent none (generic records child parent)
  match link with
  | none => fallback
  | some l =>
    match agreed child parent link (specific records child parent l) with
    | .error e => .error e
    | .ok (some kind) => .ok (some kind)
    | .ok none => fallback

end OwnershipRecord

/-- The classifier of the given records, with those of the city model
behind them unless only the given ones count. -/
def Classifier.ofRecords (records : List OwnershipRecord) (explicitOnly : Bool) : Classifier :=
  fun child parent link =>
    match OwnershipRecord.consult records child parent link with
    | .error e => .error e
    | .ok (some kind) => .ok kind
    | .ok none =>
      if explicitOnly then .ok .none
      else (OwnershipRecord.consult cityModelRecords child parent link).map (·.getD .none)

end DeleteCascade
