import DeleteCascade.Schema.Basic
/-!
# Schema — references between tables

A reference is a foreign key of one column, resolved in a schema: it points
from a child table to a parent table, both of which the schema lists
(`table?_of_resolve`). The queries here give the references that leave a
table; those that enter it are read with the shape of their child table in
`Schema.Bridge`.
-/

namespace DeleteCascade

/-- Why a question about a schema has no answer. -/
inductive LookupError where
  /-- The schema has no such table. -/
  | unknownTable (table : String)
  /-- The table has no primary key of one column. -/
  | noKey (table : String)
  /-- The foreign key has several columns. -/
  | severalColumns (foreignKey table : String)
  deriving DecidableEq

/-- The message of the error. -/
def LookupError.message : LookupError → String
  | unknownTable table => s!"table not found: {table}"
  | noKey table => s!"table {table} has no single-column primary key"
  | severalColumns foreignKey table => s!"foreign key {foreignKey} on {table} spans several columns"

/-- A resolved foreign key, directed from the referencing to the referenced
table. -/
structure Reference where
  child : TableName
  childColumn : String
  parent : TableName
  parentColumn : String
  /-- Whether the child column takes NULL. -/
  nullable : Bool
  /-- Whether the child column is the whole primary key of the child. -/
  childIsKey : Bool
  onDelete : OnDelete
  deriving DecidableEq

namespace Reference

/-- Whether the table references itself. -/
def isSelf (r : Reference) : Bool := r.child.same r.parent

/-- The reference as messages show it. -/
def text (r : Reference) : String :=
  r.child.qualified ++ "." ++ r.childColumn ++ " -> " ++ r.parent.qualified ++ "." ++ r.parentColumn

end Reference

namespace Schema

/-- The table of this name, which must be there. -/
def lookup (g : Schema) (name : TableName) : Except LookupError Table :=
  match g.table? name with
  | some t => .ok t
  | none => .error (.unknownTable name.qualified)

/-- The key column of a table. -/
def keyColumn (g : Schema) (name : TableName) : Except LookupError String :=
  match g.lookup name with
  | .error e => .error e
  | .ok t =>
    match t.key? with
    | some k => .ok k
    | none => .error (.noKey name.qualified)

/-- Whether a table has a column of this name. -/
def hasColumn (g : Schema) (name : TableName) (column : String) : Except LookupError Bool :=
  (g.lookup name).map fun t => (t.column? column).isSome

/-- The reference a foreign key stands for. Its tables are those it names
itself, wherever it is listed. -/
def resolve (g : Schema) (fk : ForeignKey) : Except LookupError Reference :=
  match fk.columns? with
  | none => .error (.severalColumns fk.name fk.source.qualified)
  | some (childColumn, parentColumn) =>
    match g.lookup fk.source, g.lookup fk.target with
    | .error e, _ => .error e
    | .ok _, .error e => .error e
    | .ok child, .ok _ =>
      .ok
        { child := fk.source
          childColumn
          parent := fk.target
          parentColumn
          nullable := child.isNullable childColumn
          childIsKey := child.isKey childColumn
          onDelete := fk.onDelete }

/-- The references of a table, in the order of its foreign keys. -/
def outgoing (g : Schema) (name : TableName) : Except LookupError (List Reference) :=
  match g.lookup name with
  | .error e => .error e
  | .ok t => t.foreignKeys.mapM g.resolve

/-- The references of a table to itself. -/
def selfReferences (g : Schema) (name : TableName) : Except LookupError (List Reference) :=
  (g.outgoing name).map fun rs => rs.filter (·.isSelf)

theorem lookup_eq_ok {g : Schema} {name : TableName} {t : Table} :
    g.lookup name = .ok t ↔ g.table? name = some t := by
  unfold lookup
  split <;> simp_all

/-- Both ends of a resolved reference are tables of the schema. -/
theorem table?_of_resolve {g : Schema} {fk : ForeignKey} {r : Reference}
    (h : g.resolve fk = .ok r) :
    (g.table? r.child).isSome = true ∧ (g.table? r.parent).isSome = true := by
  unfold resolve at h
  split at h
  · cases h
  · split at h
    · cases h
    · cases h
    · rename_i hchild hparent
      cases h
      simp [lookup_eq_ok.1 hchild, lookup_eq_ok.1 hparent]

/-- What mapping a list yields comes from its members. -/
theorem exists_of_mapM_ok {ε α β : Type} {f : α → Except ε β} {l : List α} {l' : List β}
    (h : l.mapM f = .ok l') {b : β} (hb : b ∈ l') : ∃ a ∈ l, f a = .ok b := by
  induction l generalizing l' with
  | nil =>
    simp only [List.mapM_nil, pure, Except.pure, Except.ok.injEq] at h
    subst h
    cases hb
  | cons a l ih =>
    rw [List.mapM_cons] at h
    cases ha : f a with
    | error e => simp [ha, bind, Except.bind] at h
    | ok b' =>
      cases hl : l.mapM f with
      | error e => simp [ha, hl, bind, Except.bind] at h
      | ok bs =>
        simp only [ha, hl, bind, Except.bind, pure, Except.pure, Except.ok.injEq] at h
        subst h
        rcases List.mem_cons.1 hb with rfl | hb
        · exact ⟨a, by simp, ha⟩
        · obtain ⟨a', ha', hfa⟩ := ih hl hb
          exact ⟨a', by simp [ha'], hfa⟩

theorem table?_of_outgoing {g : Schema} {name : TableName} {rs : List Reference}
    (h : g.outgoing name = .ok rs) {r : Reference} (hr : r ∈ rs) :
    (g.table? r.child).isSome = true ∧ (g.table? r.parent).isSome = true := by
  unfold outgoing at h
  split at h
  · cases h
  · obtain ⟨fk, -, hfk⟩ := exists_of_mapM_ok h hr
    exact table?_of_resolve hfk

end Schema

end DeleteCascade
