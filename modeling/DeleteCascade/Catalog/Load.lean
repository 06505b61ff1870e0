import DeleteCascade.Catalog.Answer
import DeleteCascade.Catalog.Psql
import DeleteCascade.Catalog.Query
import DeleteCascade.Text.Lowercase
/-!
# Catalog — loading and installing

Loading asks for the tables and the foreign keys of a schema, and for
object classes and aggregations where the schema has tables of them.
Installing drops functions and creates others in one transaction.
-/

namespace DeleteCascade

/-- Lists a foreign key with the first table of its source's name. -/
def attachForeignKey (fk : ForeignKey) : List Table → List Table
  | [] => []
  | t :: rest =>
    if sameName t.name.name fk.source.name then
      { t with foreignKeys := t.foreignKeys ++ [fk] } :: rest
    else t :: attachForeignKey fk rest

/-- Gives a table the object classes that are stored under its name, which
the catalog has in small letters. -/
def attachClasses (rows : List Answer.ClassRow) (t : Table) : Table :=
  match rows.filter fun r => r.table == lowercase t.name.name with
  | [] => t
  | found => { t with classes := found.map (·.objectClass) }

namespace Connection

variable {m : Type → Type} [Monad m]

/-- The records in an answer, which must be readable. -/
def readRecords {α : Type} (read : Json → Option α) (answer : String) :
    ExceptT PsqlError m (List α) :=
  match Answer.records? read answer with
  | some found => pure found
  | none => throw .malformed

/-- Whether a schema has a table of this name. -/
def relationExists (c : Connection) (h : Host m) (schema table : String) :
    ExceptT PsqlError m Bool := do
  return trim (← c.query h (Query.relationExists schema table)) == "t"

/-- The ownership records that the aggregations of a schema make. -/
def loadOwnership (c : Connection) (h : Host m) (schema : String) :
    ExceptT PsqlError m (List OwnershipRecord) := do
  if ← c.relationExists h schema "aggregation_info" then
    readRecords Answer.aggregation? (← c.query h (Query.aggregations schema))
  else
    return []

/-- Gives the tables of a schema their object classes. -/
def loadClasses (c : Connection) (h : Host m) (schema : String) (tables : List Table) :
    ExceptT PsqlError m (List Table) := do
  if ← c.relationExists h schema "objectclass" then
    let rows ← readRecords Answer.class? (← c.query h (Query.objectClasses schema))
    return tables.map (attachClasses rows)
  else
    return tables

/-- Loads a schema with its ownership records. -/
def loadSchema (c : Connection) (h : Host m) (schema : String) : ExceptT PsqlError m Schema := do
  let tablesAnswer ← c.query h (Query.tables schema)
  let foreignKeysAnswer ← c.query h (Query.foreignKeys schema)
  let tables ← readRecords Answer.table? tablesAnswer
  let foreignKeys ← readRecords Answer.foreignKey? foreignKeysAnswer
  let tables ←
    c.loadClasses h schema (foreignKeys.foldl (fun tables fk => attachForeignKey fk tables) tables)
  let ownership ← c.loadOwnership h schema
  return { name := schema, tables, ownership }

/-- The functions of a schema whose names begin with a stem. -/
def listInstalled (c : Connection) (h : Host m) (schema stem : String) :
    ExceptT PsqlError m (List InstalledFunction) := do
  readRecords Answer.installed? (← c.query h (Query.installedFunctions schema stem))

/-- The script that drops functions and creates others. -/
def installScript (drops : List String) (script : String) : String :=
  String.join (drops.map fun drop => drop ++ "\n") ++ script

/-- Drops functions and creates others in one transaction. -/
def install (c : Connection) (h : Host m) (drops : List String) (script : String) :
    ExceptT PsqlError m Unit :=
  c.execute h (installScript drops script)

end Connection

end DeleteCascade
