import DeleteCascade.Function.Basic
import DeleteCascade.Script.Sql
import DeleteCascade.Text.Lowercase
/-!
# Script — where a script goes

The schema and the package a script is made for, and what the dialects have
in common: how tables are written, and which local variables the body of a
function needs.
-/

namespace DeleteCascade

/-- What a script is made for. -/
structure ScriptContext where
  /-- Where the functions go; tables without a schema are taken to be there
  as well. -/
  schema : String
  /-- The package of the functions, where functions come in packages. -/
  package : String := "citydb_delete"
  /-- Whether each function comes with one that takes a single id. -/
  wrappers : Bool := true
  deriving DecidableEq

namespace ScriptContext

/-- How a table is written: in small letters, behind its schema. -/
def tableText (ctx : ScriptContext) (t : TableName) : String :=
  let schema := if t.schema.isEmpty then ctx.schema else t.schema
  if schema.isEmpty then lowercase t.name else lowercase schema ++ "." ++ lowercase t.name

end ScriptContext

/-- A function that a database has. -/
structure InstalledFunction where
  schema : String
  name : String
  arguments : String
  deriving DecidableEq

/-- The function with its arguments, as a statement names it. -/
def InstalledFunction.signature (f : InstalledFunction) : String :=
  s!"{f.schema}.{f.name}({f.arguments})"

/-- A list of object classes. -/
def classList (classes : List Int) : String := ", ".intercalate (classes.map toString)

/-- The conditions that a row has none of the owners, all of which must
hold. -/
def ownerTests (table : TableName) (keyColumn : String) (owners : List Owner) : Sql :=
  Sql.separated "\n         AND " (owners.map fun o => .noOwner ⟨table, keyColumn, o⟩)

namespace Block

variable {κ : Type}

/-- Whether the block collects candidates before it has them deleted. -/
def collects : Block κ → Bool
  | selfParts _ => true
  | bridgeCascade _ => true
  | childCascade b => b.detach || b.ownerCheck.isSome
  | _ => false

/-- Whether the block sends rows to subtypes. -/
def dispatches : Block κ → Bool
  | subtypeDispatch _ => true
  | _ => false

/-- The columns whose values the block keeps; none if it keeps none by its
kind. -/
def captures? : Block κ → Option (List String)
  | localDelete captured => some captured
  | _ => none

end Block

namespace DeleteFunction

/-- How many columns the function captures: those of its last local
delete. -/
def capturedCount (f : DeleteFunction) : Nat :=
  match (f.blocks.filterMap (·.captures?)).getLast? with
  | some captured => captured.length
  | none => 0

end DeleteFunction

end DeleteCascade
