import DeleteCascade.Text.Case
/-!
# Schema — table names

A table is named by its schema and its name in it. Spelling is kept for
output, while identity is that of `key`: `same_iff` makes sameness an
equivalence that ignores letter case in both parts.
-/

namespace DeleteCascade

/-- The name of a table, with the schema it lives in. -/
structure TableName where
  schema : String
  name : String
  deriving DecidableEq, Inhabited

namespace TableName

/-- What the identity of a table depends on. -/
def key (t : TableName) : String × String := (foldCase t.schema, foldCase t.name)

/-- Whether two names mean one table. -/
def same (a b : TableName) : Bool := a.key == b.key

/-- Whether one of the names means this table. -/
def isIn (t : TableName) (names : List TableName) : Bool := names.any t.same

/-- The name with its schema in front, if it has one. -/
def qualified (t : TableName) : String :=
  if t.schema.isEmpty then t.name else t.schema ++ "." ++ t.name

theorem same_iff {a b : TableName} : a.same b = true ↔ a.key = b.key := by simp [same]

@[simp] theorem same_refl (a : TableName) : a.same a = true := by simp [same]

theorem same_comm (a b : TableName) : a.same b = b.same a := by simp only [same, Bool.beq_comm]

theorem same_trans {a b c : TableName} (hab : a.same b = true) (hbc : b.same c = true) :
    a.same c = true :=
  same_iff.2 ((same_iff.1 hab).trans (same_iff.1 hbc))

theorem same_congr_left {a b : TableName} (hab : a.same b = true) (c : TableName) :
    a.same c = b.same c := by
  simp only [same, same_iff.1 hab]

theorem isIn_congr {a b : TableName} (hab : a.same b = true) (names : List TableName) :
    a.isIn names = b.isIn names := by
  unfold isIn
  congr 1
  funext c
  exact same_congr_left hab c

theorem isIn_iff {t : TableName} {names : List TableName} :
    t.isIn names = true ↔ ∃ u ∈ names, t.same u = true := by
  simp [isIn]

end TableName

end DeleteCascade
