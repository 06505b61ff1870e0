import DeleteCascade.Json.Reader
import DeleteCascade.Schema.Document
/-!
# Schema — snapshots

A snapshot is a schema in a file. It is loaded for a schema by name, which
it must describe up to letter case unless it names none, and the names in
it that lack a schema get that of the snapshot (`Schema.qualify`).
-/

namespace DeleteCascade

/-- Why a snapshot was not loaded. -/
inductive SnapshotError where
  /-- There is no readable file. -/
  | unreadable
  /-- The file does not hold a schema document. -/
  | malformed
  /-- The document describes another schema. -/
  | mismatch (expected found : String)
  deriving DecidableEq

/-- The message of an error of which the text is not left to others. -/
def SnapshotError.message? : SnapshotError → Option String
  | unreadable => none
  | malformed => none
  | mismatch expected found =>
    some s!"snapshot describes schema {found}, expected {expected}"

namespace TableName

/-- The name with a schema put in where it has none. -/
def qualify (schema : String) (t : TableName) : TableName :=
  if t.schema.isEmpty then { t with schema } else t

end TableName

namespace Schema

/-- Gives the tables and the ends of foreign keys without a schema that of
the whole. -/
def qualify (g : Schema) : Schema :=
  { g with
    tables := g.tables.map fun t =>
      { t with
        name := t.name.qualify g.name
        foreignKeys := t.foreignKeys.map fun fk =>
          { fk with source := fk.source.qualify g.name, target := fk.target.qualify g.name } } }

/-- The schema a document describes, taken as the one of this name. -/
def ofDocument (schema : String) (v : Json) : Except SnapshotError Schema :=
  match ofJson? v with
  | none => .error .malformed
  | some g =>
    if g.name.isEmpty then .ok { g with name := schema }.qualify
    else if sameName g.name schema then .ok g.qualify
    else .error (.mismatch schema g.name)

/-- Loads the schema of this name from the text of a snapshot; none if
there is no such file. -/
def ofSnapshot (schema : String) (file : Option String) : Except SnapshotError Schema :=
  match file with
  | none => .error .unreadable
  | some content =>
    match Json.parse? content with
    | none => .error .malformed
    | some v => ofDocument schema v

end Schema

end DeleteCascade
