import DeleteCascade.Json.Reader
import DeleteCascade.Schema.Document
import DeleteCascade.Script.Context
import DeleteCascade.Text.Blank
/-!
# Catalog — answers

Readers for what the queries answer. No answer and null both mean that
there is nothing.
-/

namespace DeleteCascade.Answer

/-- Reads an answer of several records. -/
def records? {α : Type} (read : Json → Option α) (answer : String) : Option (List α) :=
  let answer := trim answer
  if answer = "" ∨ answer = "null" then some [] else (Json.parse? answer).bind (Json.list? read)

/-- A table with its columns and its primary key. -/
def table? (v : Json) : Option Table := do
  let fs ← v.fields? ["schema", "name", "columns", "primary_key"]
  return { name := { schema := ← fs.get? "schema" Json.text?, name := ← fs.get? "name" Json.text? }
           columns := ← fs.get? "columns" (Json.list? Column.ofJson?)
           primaryKey := ← fs.get? "primary_key" (Json.list? Json.text?)
           foreignKeys := []
           classes := [] }

/-- The action that the catalog has a letter for; none is taken for any
other. -/
def onDelete (letter : String) : OnDelete :=
  match letter with
  | "r" => .restrict
  | "c" => .cascade
  | "n" => .setNull
  | "d" => .setDefault
  | _ => .noAction

/-- A foreign key. -/
def foreignKey? (v : Json) : Option ForeignKey := do
  let fs ← v.fields?
    ["name", "from_schema", "from_table", "from_columns", "to_schema", "to_table", "to_columns",
      "on_delete"]
  return { name := ← fs.get? "name" Json.text?
           source :=
            { schema := ← fs.get? "from_schema" Json.text?
              name := ← fs.get? "from_table" Json.text? }
           sourceColumns := ← fs.get? "from_columns" (Json.list? Json.text?)
           target :=
            { schema := ← fs.get? "to_schema" Json.text?
              name := ← fs.get? "to_table" Json.text? }
           targetColumns := ← fs.get? "to_columns" (Json.list? Json.text?)
           onDelete := onDelete (← fs.get? "on_delete" Json.text?) }

/-- An object class with the name of the table that stores it. -/
structure ClassRow where
  table : String
  objectClass : Int
  deriving DecidableEq

/-- An object class with its table. -/
def class? (v : Json) : Option ClassRow := do
  let fs ← v.fields? ["id", "table_name"]
  return { objectClass := ← fs.get? "id" Json.int32?
           table := ← fs.get? "table_name" Json.text? }

/-- An aggregation as an ownership record. -/
def aggregation? (v : Json) : Option OwnershipRecord := do
  let fs ← v.fields? ["child", "parent", "link", "composite"]
  let isComposite ← fs.get? "composite" Json.bool?
  return { child := ← fs.get? "child" Json.text?
           parent := ← fs.get? "parent" Json.text?
           link := ← fs.getD? "link" none (Json.nullable? Json.text?)
           kind := if isComposite then .composition else .aggregation }

/-- A function that the database has. -/
def installed? (v : Json) : Option InstalledFunction := do
  let fs ← v.fields? ["schema", "name", "arguments"]
  return { schema := ← fs.get? "schema" Json.text?
           name := ← fs.get? "name" Json.text?
           arguments := ← fs.get? "arguments" Json.text? }

end DeleteCascade.Answer
