import DeleteCascade.Schema.Basic
import DeleteCascade.Store.Row
/-!
# Store — rows of a schema

A store holds rows for the tables of a schema. Rows come in by `insert` and
change by `update`, both of which make sure that keys are unique where one
is given and that every reference points at a row.

`rows_setRows` says what replacing the rows of one table does to the view
`rows`, and `size_setRows` what it does to the number of rows.
-/

namespace DeleteCascade

/-- Why a statement on a store fails. -/
inductive StoreError where
  | unknownTable (table : String)
  | unknownColumn (table column : String)
  /-- The table has no key of one column. -/
  | noKey (table : String)
  | duplicateKey (table : String) (key : Int)
  | missingRow (table : String) (key : Int)
  /-- A reference points at no row. -/
  | dangling (constraint table column : String) (value : Int)
  /-- Rows still point at rows that were deleted. -/
  | stillReferenced (constraint table : String)
  | notNull (table column : String)
  deriving DecidableEq

/-- The message of the error. -/
def StoreError.message : StoreError → String
  | unknownTable table => s!"table not found: {table}"
  | unknownColumn table column => s!"column {column} not found in {table}"
  | noKey table => s!"{table} has no single-column primary key"
  | duplicateKey table key => s!"duplicate key {key} in {table}"
  | missingRow table key => s!"no row with key {key} in {table}"
  | dangling constraint table column value =>
    s!"{constraint}: {table}.{column} = {value} has no matching row"
  | stillReferenced constraint table =>
    s!"{constraint}: rows of {table} still reference deleted rows"
  | notNull table column => s!"{table}.{column} cannot be set to NULL"

/-- Rows by the identity of their table. -/
abbrev Contents := List ((String × String) × List Row)

/-- Puts rows in the place of those of one table. -/
def Contents.put (key : String × String) (rows : List Row) : Contents → Contents
  | [] => [(key, rows)]
  | (k, old) :: rest => if k = key then (k, rows) :: rest else (k, old) :: put key rows rest

/-- A schema with rows in its tables. -/
structure Store where
  schema : Schema
  contents : Contents

namespace Store

/-- A store without rows. -/
def empty (schema : Schema) : Store := ⟨schema, []⟩

/-- The rows of a table, in the order they came in. -/
def rows (s : Store) (t : TableName) : List Row := (s.contents.lookup t.key).getD []

/-- Replaces the rows of a table. -/
def setRows (s : Store) (t : TableName) (rows : List Row) : Store :=
  { s with contents := s.contents.put t.key rows }

/-- How many rows there are. -/
def size (s : Store) : Nat := s.contents.foldr (fun entry n => entry.2.length + n) 0

@[simp] theorem schema_setRows (s : Store) (t : TableName) (rows : List Row) :
    (s.setRows t rows).schema = s.schema := rfl

theorem rows_setRows (s : Store) (t u : TableName) (rows : List Row) :
    (s.setRows t rows).rows u = if t.same u then rows else s.rows u := by
  simp only [Store.rows, setRows, TableName.same]
  induction s.contents with
  | nil =>
    by_cases h : t.key = u.key <;> simp_all [Contents.put, lookup_cons_eq]
  | cons entry rest ih =>
    obtain ⟨k, old⟩ := entry
    unfold Contents.put
    by_cases hk : k = t.key
    · subst hk
      by_cases h : t.key = u.key <;> simp_all [lookup_cons_eq]
    · by_cases hu : k = u.key
      · have : ¬ t.key = u.key := fun h => hk (hu.trans h.symm)
        simp_all
      · simp_all [lookup_cons_eq]

theorem size_setRows (s : Store) (t : TableName) (rows : List Row) :
    (s.setRows t rows).size + (s.rows t).length = s.size + rows.length := by
  simp only [size, setRows, Store.rows]
  induction s.contents with
  | nil => simp [Contents.put]
  | cons entry rest ih =>
    obtain ⟨k, old⟩ := entry
    unfold Contents.put
    by_cases hk : k = t.key
    · subst hk
      simp
      omega
    · simp_all [lookup_cons_eq]
      omega

/-- The definition of a table, which must be there. -/
def table (s : Store) (t : TableName) : Except StoreError Table :=
  match s.schema.table? t with
  | some d => .ok d
  | none => .error (.unknownTable t.qualified)

/-- The key column of a table. -/
def keyColumn (s : Store) (t : TableName) : Except StoreError String :=
  match s.table t with
  | .error e => .error e
  | .ok d =>
    match d.key? with
    | some k => .ok k
    | none => .error (.noKey t.qualified)

/-- Whether some row of a table has this value in a column. -/
def hasValue (s : Store) (t : TableName) (column : String) (value : Int) : Bool :=
  (s.rows t).any fun r => r.get? column == some value

/-- Makes sure that a reference of a row points at a row, which may be the
row itself. -/
def checkReference (s : Store) (t : TableName) (d : Table) (row : Row) (fk : ForeignKey) :
    Except StoreError Unit :=
  match fk.columns? with
  | none => .ok ()
  | some (column, targetColumn) =>
    match row.get? column with
    | none => .ok ()
    | some value =>
      if s.hasValue fk.target targetColumn value ||
          (fk.target.same t && row.get? targetColumn == some value) then .ok ()
      else .error (.dangling fk.name d.name.qualified column value)

/-- Makes sure that the references of a row point at rows. -/
def checkReferences (s : Store) (t : TableName) (d : Table) (row : Row) : Except StoreError Unit :=
  d.foreignKeys.forM (s.checkReference t d row)

/-- The row with these values, all of columns of the table. -/
def makeRow (d : Table) (values : List (String × Int)) : Except StoreError Row :=
  values.foldlM
    (fun row (column, value) =>
      if (d.column? column).isSome then .ok (row.set column value)
      else .error (.unknownColumn d.name.qualified column))
    Row.empty

/-- Makes sure that no row has the key of a new row, if it has one. -/
def checkKey (s : Store) (t : TableName) (d : Table) (row : Row) : Except StoreError Unit :=
  match d.key? with
  | none => .ok ()
  | some key =>
    match row.get? key with
    | none => .ok ()
    | some value =>
      if s.hasValue t key value then .error (.duplicateKey d.name.qualified value) else .ok ()

/-- Adds a row to a table of the schema. -/
def insert (s : Store) (name : String) (values : List (String × Int)) :
    Except StoreError Store := do
  let t := s.schema.named name
  let d ← s.table t
  let row ← makeRow d values
  s.checkKey t d row
  s.checkReferences t d row
  return s.setRows t (s.rows t ++ [row])

/-- Puts a row in the place of the first one that passes a test. -/
def replaceFirst (test : Row → Bool) (row : Row) : List Row → List Row
  | [] => []
  | r :: rest => if test r then row :: rest else r :: replaceFirst test row rest

/-- Gives one column of the row with this key a value. -/
def update (s : Store) (name : String) (id : Int) (column : String) (value : Int) :
    Except StoreError Store := do
  let t := s.schema.named name
  let d ← s.table t
  if (d.column? column).isNone then
    throw (.unknownColumn d.name.qualified column)
  let key ← s.keyColumn t
  let hasKey := fun r : Row => r.get? key == some id
  match (s.rows t).find? hasKey with
  | none => throw (.missingRow d.name.qualified id)
  | some old =>
    let row := old.set column value
    s.checkReferences t d row
    return s.setRows t (replaceFirst hasKey row (s.rows t))

/-- The keys of a table's rows, ascending; none if it has no key of one
column. -/
def ids (s : Store) (name : String) : List Int :=
  let t := s.schema.named name
  match s.keyColumn t with
  | .ok key => ((s.rows t).filterMap (·.get? key)).mergeSort (· ≤ ·)
  | .error _ => []

/-- How many rows a table has. -/
def count (s : Store) (name : String) : Nat := (s.rows (s.schema.named name)).length

/-- Whether a table has a row with this key. -/
def contains (s : Store) (name : String) (id : Int) : Bool := (s.ids name).contains id

/-- The value in a column of the row with this key. -/
def value? (s : Store) (name : String) (id : Int) (column : String) : Option Int :=
  let t := s.schema.named name
  match s.keyColumn t with
  | .ok key => ((s.rows t).find? fun r => r.get? key == some id).bind (·.get? column)
  | .error _ => none

end Store

end DeleteCascade
