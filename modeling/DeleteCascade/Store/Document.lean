import DeleteCascade.Json.Basic
import DeleteCascade.Store.Basic
/-!
# Store — as a document

The contents of a store: the tables that have rows, and in each row the
columns that have values.
-/

namespace DeleteCascade

/-- A row of a table as a document, its columns spelled as the table spells
them. -/
def Row.toJson (r : Row) (t : Table) : Json :=
  .record (t.columns.filterMap fun c => (r.get? c.name).map fun v => (c.name, .int v))

namespace Store

/-- The contents of one table; none if it has no rows. -/
def tableToJson (s : Store) (t : Table) : Option (String × Json) :=
  match s.rows (s.schema.named t.name.name) with
  | [] => none
  | rows => some (t.name.name, .list (·.toJson t) rows)

/-- The contents as a document. -/
def toJson (s : Store) : Json := .record (s.schema.tables.filterMap s.tableToJson)

end Store

end DeleteCascade
