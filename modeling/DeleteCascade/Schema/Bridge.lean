import DeleteCascade.Schema.Reference
/-!
# Schema — bridge tables

A many-to-many link is stored in a bridge: a table whose primary key is a
pair of references that are never NULL. A table that is nothing but two
such references, with another primary key, is suspected to be one. `Shape`
says which of these a reference comes from.
-/

namespace DeleteCascade

/-- A bridge, seen from one of the two tables it links. -/
structure Bridge where
  table : TableName
  /-- The column that points at the table it is seen from. -/
  nearColumn : String
  /-- The column that points at the other table. -/
  farColumn : String
  farTable : TableName
  /-- The column of the other table that is pointed at. -/
  farKey : String
  deriving DecidableEq

namespace Bridge

/-- The far half of the bridge as messages show it. -/
def text (b : Bridge) : String :=
  b.table.qualified ++ " (" ++ b.farColumn ++ " -> " ++ b.farTable.qualified ++ ")"

end Bridge

/-- What kind of table a reference comes from. -/
inductive Shape where
  | plain
  | bridge (b : Bridge)
  /-- A table that should perhaps have been a bridge. -/
  | suspected (reason : String)
  deriving DecidableEq

/-- A single-column foreign key seen from the column next to it. -/
structure Sibling where
  column : String
  target : TableName
  targetColumn : String

namespace Table

/-- The single-column foreign keys on other columns than this one. -/
def siblings (t : Table) (column : String) : List Sibling :=
  t.foreignKeys.filterMap fun fk =>
    match fk.columns? with
    | some (c, p) => if sameName c column then none else some ⟨c, fk.target, p⟩
    | none => none

/-- The bridge that the table is for a reference of its own. -/
def bridge? (t : Table) (r : Reference) : Option Bridge :=
  if t.primaryKey.length = 2 ∧ t.keyContains r.childColumn ∧ !r.nullable then do
    let far ← t.primaryKey.find? fun k => !sameName k r.childColumn
    let sibling ← (t.siblings r.childColumn).find? fun s => sameName s.column far
    if t.isNullable sibling.column then none
    else
      some
        { table := r.child
          nearColumn := r.childColumn
          farColumn := sibling.column
          farTable := sibling.target
          farKey := sibling.targetColumn }
  else none

/-- Whether the table has no columns but two references and its key. -/
def isOnlyLinks (t : Table) (one other : String) : Bool :=
  t.columns.all fun c => c.isNamed one || c.isNamed other || t.keyContains c.name

/-- Why the table is suspected to be a bridge, if it is. -/
def suspicion? (t : Table) (r : Reference) : Option String :=
  match t.siblings r.childColumn with
  | [other] =>
    if r.nullable || t.isNullable other.column then none
    else if t.isOnlyLinks r.childColumn other.column then
      let key := String.intercalate ", " t.primaryKey
      some (t.name.qualified ++ " links " ++ r.parent.qualified ++ " and " ++
        other.target.qualified ++ " but its primary key (" ++ key ++ ") is not the FK pair")
    else none
  | _ => none

/-- The shape of the table for a reference of its own. -/
def shape (t : Table) (r : Reference) : Shape :=
  if r.childIsKey then .plain
  else
    match t.bridge? r, t.suspicion? r with
    | some b, _ => .bridge b
    | none, some reason => .suspected reason
    | none, none => .plain

end Table

/-- A reference that enters a table, with the shape of its child table. -/
structure Incoming where
  reference : Reference
  shape : Shape

namespace Incoming

/-- Whether the child table is a bridge. -/
def isBridge (i : Incoming) : Bool :=
  match i.shape with
  | .bridge _ => true
  | _ => false

end Incoming

namespace Schema

/-- The shape of the child table of a reference. -/
def shapeOf (g : Schema) (r : Reference) : Except LookupError Shape :=
  if r.childIsKey then .ok .plain else (g.lookup r.child).map fun t => t.shape r

/-- The reference a foreign key stands for with its shape; none if the
table references itself. -/
def enter (g : Schema) (fk : ForeignKey) : Except LookupError (Option Incoming) :=
  match g.resolve fk with
  | .error e => .error e
  | .ok r => if r.isSelf then .ok none else (g.shapeOf r).map fun s => some ⟨r, s⟩

/-- The references that other tables hold to this one, in the order of the
tables and of their foreign keys. -/
def incoming (g : Schema) (name : TableName) : Except LookupError (List Incoming) :=
  match g.lookup name with
  | .error e => .error e
  | .ok _ => ((g.foreignKeysTo name).mapM g.enter).map fun found => found.filterMap id

end Schema

end DeleteCascade
