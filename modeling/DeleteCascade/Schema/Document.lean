import DeleteCascade.Json.Record
import DeleteCascade.Schema.Basic
/-!
# Schema — as a document

The JSON form of a schema and of its parts, written with every field and
read with the optional ones left out: a missing schema name is empty, a
missing list is empty, and a foreign key without an action takes none.
-/

namespace DeleteCascade

namespace Column

/-- The column as a document. -/
def toJson (c : Column) : Json :=
  .record [("name", .text c.name), ("data_type", .text c.dataType), ("nullable", .bool c.nullable)]

/-- Reads a column. -/
def ofJson? (v : Json) : Option Column := do
  let fs ← v.fields? ["name", "data_type", "nullable"]
  return { name := ← fs.get? "name" Json.text?
           dataType := ← fs.get? "data_type" Json.text?
           nullable := ← fs.get? "nullable" Json.bool? }

end Column

namespace ForeignKey

/-- The foreign key as a document. -/
def toJson (fk : ForeignKey) : Json :=
  .record
    [("name", .text fk.name), ("from_schema", .text fk.source.schema),
      ("from_table", .text fk.source.name), ("from_columns", .texts fk.sourceColumns),
      ("to_schema", .text fk.target.schema), ("to_table", .text fk.target.name),
      ("to_columns", .texts fk.targetColumns), ("on_delete", .text fk.onDelete.name)]

/-- Reads a foreign key. -/
def ofJson? (v : Json) : Option ForeignKey := do
  let fs ← v.fields?
    ["name", "from_schema", "from_table", "from_columns", "to_schema", "to_table", "to_columns",
      "on_delete"]
  return { name := ← fs.get? "name" Json.text?
           source :=
            { schema := ← fs.getD? "from_schema" "" Json.text?
              name := ← fs.get? "from_table" Json.text? }
           sourceColumns := ← fs.get? "from_columns" (Json.list? Json.text?)
           target :=
            { schema := ← fs.getD? "to_schema" "" Json.text?
              name := ← fs.get? "to_table" Json.text? }
           targetColumns := ← fs.get? "to_columns" (Json.list? Json.text?)
           onDelete := ← fs.getD? "on_delete" .noAction (Json.choice? OnDelete.choices) }

end ForeignKey

namespace Table

/-- The table as a document. -/
def toJson (t : Table) : Json :=
  .record
    [("schema", .text t.name.schema), ("name", .text t.name.name),
      ("columns", .list Column.toJson t.columns), ("primary_key", .texts t.primaryKey),
      ("foreign_keys", .list ForeignKey.toJson t.foreignKeys),
      ("objectclass_ids", .list Json.int t.classes)]

/-- Reads a table. -/
def ofJson? (v : Json) : Option Table := do
  let fs ← v.fields?
    ["schema", "name", "columns", "primary_key", "foreign_keys", "objectclass_ids"]
  return { name :=
            { schema := ← fs.getD? "schema" "" Json.text?
              name := ← fs.get? "name" Json.text? }
           columns := ← fs.get? "columns" (Json.list? Column.ofJson?)
           primaryKey := ← fs.getD? "primary_key" [] (Json.list? Json.text?)
           foreignKeys := ← fs.getD? "foreign_keys" [] (Json.list? ForeignKey.ofJson?)
           classes := ← fs.getD? "objectclass_ids" [] (Json.list? Json.int32?) }

end Table

namespace OwnershipRecord

/-- The record as a document. -/
def toJson (r : OwnershipRecord) : Json :=
  .record
    [("child", .text r.child), ("parent", .text r.parent), ("link", .textOrNull r.link),
      ("kind", .text r.kind.name)]

/-- Reads a record. -/
def ofJson? (v : Json) : Option OwnershipRecord := do
  let fs ← v.fields? ["child", "parent", "link", "kind"]
  return { child := ← fs.get? "child" Json.text?
           parent := ← fs.get? "parent" Json.text?
           link := ← fs.getD? "link" none (Json.nullable? Json.text?)
           kind := ← fs.get? "kind" (Json.choice? Relation.choices) }

end OwnershipRecord

namespace Schema

/-- The schema as a document. -/
def toJson (g : Schema) : Json :=
  .record
    [("name", .text g.name), ("tables", .list Table.toJson g.tables),
      ("ownership", .list OwnershipRecord.toJson g.ownership)]

/-- Reads a schema. -/
def ofJson? (v : Json) : Option Schema := do
  let fs ← v.fields? ["name", "tables", "ownership"]
  return { name := ← fs.get? "name" Json.text?
           tables := ← fs.get? "tables" (Json.list? Table.ofJson?)
           ownership := ← fs.getD? "ownership" [] (Json.list? OwnershipRecord.ofJson?) }

end Schema

end DeleteCascade
