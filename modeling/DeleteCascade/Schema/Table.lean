import DeleteCascade.Schema.Column
import DeleteCascade.Schema.ForeignKey
/-!
# Schema — tables
-/

namespace DeleteCascade

/-- A table with its columns, its keys and the object classes whose
objects it stores. -/
structure Table where
  name : TableName
  columns : List Column
  primaryKey : List String
  foreignKeys : List ForeignKey
  classes : List Int
  deriving DecidableEq, Inhabited

namespace Table

/-- The table of this name without any contents. -/
def empty (name : TableName) : Table := ⟨name, [], [], [], []⟩

/-- The column of this name. -/
def column? (t : Table) (name : String) : Option Column := t.columns.find? (·.isNamed name)

/-- The only column of the primary key, if it has one only. -/
def key? (t : Table) : Option String :=
  match t.primaryKey with
  | [k] => some k
  | _ => none

/-- Whether the column is the whole primary key. -/
def isKey (t : Table) (column : String) : Bool :=
  match t.key? with
  | some k => sameName k column
  | none => false

/-- Whether the column belongs to the primary key. -/
def keyContains (t : Table) (column : String) : Bool := t.primaryKey.any (sameName · column)

/-- Whether the column takes NULL. A column the table does not list does. -/
def isNullable (t : Table) (column : String) : Bool :=
  match t.column? column with
  | some c => c.nullable
  | none => true

/-- Adds a column at the end. -/
def addColumn (t : Table) (c : Column) : Table := { t with columns := t.columns ++ [c] }

/-- Adds a reference from one column to a column of a table in the same
schema, named after the table and the column. -/
def addReference (t : Table) (column target targetColumn : String) (onDelete : OnDelete) : Table :=
  { t with
    foreignKeys := t.foreignKeys ++
      [{ name := t.name.name ++ "_" ++ column ++ "_fk"
         source := t.name
         sourceColumns := [column]
         target := ⟨t.name.schema, target⟩
         targetColumns := [targetColumn]
         onDelete }] }

end Table

end DeleteCascade
