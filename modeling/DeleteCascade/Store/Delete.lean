import DeleteCascade.Function.Block
import DeleteCascade.Store.Basic
/-!
# Store — deleting rows

One statement deletes the rows of a table that pass a test. They may
reference each other; every other row that points at one of them meets the
action of its foreign key, which may delete further rows. What is left to
be done is kept as a list of `Enforcement`s, and the statement ends because
a cascade that finds rows takes them out of the store
(`size_removeRows_lt`).
-/

namespace DeleteCascade

/-- What is to be done about a foreign key after rows were removed: no row
may point at the values they had. -/
structure Enforcement where
  foreignKey : ForeignKey
  column : String
  values : List Int

namespace Enforcement

/-- Whether a row points at a removed row. -/
def concerns (e : Enforcement) (r : Row) : Bool :=
  match r.get? e.column with
  | some v => e.values.contains v
  | none => false

end Enforcement

namespace Store

/-- The rows of a table that pass a test. -/
def select (s : Store) (t : TableName) (test : Row → Bool) : Except StoreError (List Row) :=
  (s.table t).map fun _ => (s.rows t).filter test

/-- Takes the rows that pass a test out of a table, whoever points at
them. -/
def removeRows (s : Store) (t : TableName) (test : Row → Bool) : Store :=
  s.setRows t ((s.rows t).filter fun r => !test r)

/-- Makes one column NULL in the rows of a table that pass a test. The
answer is these rows as they were. -/
def setNullWhere (s : Store) (t : TableName) (column : String) (test : Row → Bool) :
    Except StoreError (List Row × Store) :=
  match s.table t with
  | .error e => .error e
  | .ok d =>
    match d.column? column with
    | none => .error (.unknownColumn d.name.qualified column)
    | some c =>
      let touched := (s.rows t).filter test
      if !c.nullable && !touched.isEmpty then .error (.notNull t.qualified column)
      else
        .ok (touched, s.setRows t ((s.rows t).map fun r => if test r then r.clear column else r))

/-- What the foreign keys that point at a table ask for when rows of it are
gone. -/
def enforcements (g : Schema) (t : TableName) (removed : List Row) : List Enforcement :=
  (g.foreignKeysTo t).filterMap fun fk =>
    match fk.columns? with
    | none => none
    | some (column, targetColumn) =>
      match removed.filterMap (·.get? targetColumn) with
      | [] => none
      | values => some ⟨fk, column, values⟩

theorem length_filter_add_length_filter_not {α : Type} (p : α → Bool) (l : List α) :
    (l.filter p).length + (l.filter fun a => !p a).length = l.length := by
  induction l with
  | nil => rfl
  | cons a l ih => by_cases h : p a = true <;> simp [h] <;> omega

@[simp] theorem schema_removeRows (s : Store) (t : TableName) (test : Row → Bool) :
    (s.removeRows t test).schema = s.schema := rfl

/-- Removing some rows makes a store smaller. -/
theorem size_removeRows_lt {s : Store} {t : TableName} {test : Row → Bool}
    (h : (s.rows t).filter test ≠ []) : (s.removeRows t test).size < s.size := by
  have hsize := size_setRows s t ((s.rows t).filter fun r => !test r)
  have hsplit : ((s.rows t).filter test).length + ((s.rows t).filter fun r => !test r).length =
      (s.rows t).length := length_filter_add_length_filter_not test _
  have hpos : 0 < ((s.rows t).filter test).length := List.length_pos_iff.2 h
  simp only [removeRows]
  omega

/-- Making a column NULL keeps the number of rows. -/
theorem size_setNullWhere {s s' : Store} {t : TableName} {column : String} {test : Row → Bool}
    {touched : List Row} (h : s.setNullWhere t column test = .ok (touched, s')) :
    s'.size = s.size := by
  unfold setNullWhere at h
  split at h
  · cases h
  · split at h
    · cases h
    · simp only at h
      split at h
      · cases h
      · cases h
        have hsize := size_setRows s t
          ((s.rows t).map fun r => if test r then r.clear column else r)
        simp only [List.length_map] at hsize
        omega

/-- Carries out what the foreign keys ask for, the first first: a cascade
is followed to its end before the next key is looked at. -/
def enforce (s : Store) (pending : List Enforcement) : Except StoreError Store :=
  match pending with
  | [] => .ok s
  | e :: rest =>
    let child := e.foreignKey.source
    match e.foreignKey.onDelete with
    | .cascade =>
      match s.table child with
      | .error err => .error err
      | .ok _ =>
        match _removed : (s.rows child).filter e.concerns with
        | [] => s.enforce rest
        | r :: removed =>
          (s.removeRows child e.concerns).enforce
            (enforcements s.schema child (r :: removed) ++ rest)
    | .setNull =>
      match _cleared : s.setNullWhere child e.column e.concerns with
      | .error err => .error err
      | .ok (_, s') => s'.enforce rest
    | .noAction | .restrict | .setDefault =>
      if (s.rows child).any e.concerns then
        .error (.stillReferenced e.foreignKey.name child.qualified)
      else s.enforce rest
termination_by (s.size, pending.length)
decreasing_by
  · exact Prod.Lex.right _ (by simp)
  · exact Prod.Lex.left _ _ (size_removeRows_lt (by rw [_removed]; simp))
  · rw [size_setNullWhere _cleared]
    exact Prod.Lex.right _ (by simp)
  · exact Prod.Lex.right _ (by simp)

/-- Deletes the rows of a table that pass a test. The answer is these
rows. -/
def deleteWhere (s : Store) (t : TableName) (test : Row → Bool) :
    Except StoreError (List Row × Store) :=
  match s.table t with
  | .error e => .error e
  | .ok _ =>
    let removed := (s.rows t).filter test
    ((s.removeRows t test).enforce (enforcements s.schema t removed)).map fun s' => (removed, s')

/-- Whether an owner still holds the row with this key. -/
def isOwned (s : Store) (t : TableName) (key : String) (id : Int) : Owner → Bool
  | .ownColumn column =>
    (s.rows t).any fun r => r.get? key == some id && (r.get? column).isSome
  | .referencing table column => s.hasValue table column id

/-- The ids of rows that none of the owners holds; all of them if there are
no owners to ask. -/
def unowned (s : Store) (t : TableName) (key : String) (owners : Option (List Owner))
    (ids : List Int) : List Int :=
  match owners with
  | none => ids
  | some owners => ids.filter fun id => !owners.any (s.isOwned t key id)

end Store

end DeleteCascade
