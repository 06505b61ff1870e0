import DeleteCascade.Schema.TableName
/-!
# Schema — foreign keys

A foreign key ties columns of its source table to columns of its target
table. Deleting looks at the keys of one column on either side
(`columns?`); what the database does to the source rows when target rows
go is the key's `OnDelete`.
-/

namespace DeleteCascade

/-- What happens to the rows that hold a reference when the rows they
reference are deleted. -/
inductive OnDelete where
  | noAction
  | restrict
  | cascade
  | setNull
  | setDefault
  deriving DecidableEq, Inhabited

namespace OnDelete

/-- The action as a constraint definition states it. -/
def sql : OnDelete → String
  | noAction => "NO ACTION"
  | restrict => "RESTRICT"
  | cascade => "CASCADE"
  | setNull => "SET NULL"
  | setDefault => "SET DEFAULT"

/-- The names of the actions in documents. -/
def choices : List (String × OnDelete) :=
  [("no_action", noAction), ("restrict", restrict), ("cascade", cascade), ("set_null", setNull),
    ("set_default", setDefault)]

/-- The name of the action in documents. -/
def name : OnDelete → String
  | noAction => "no_action"
  | restrict => "restrict"
  | cascade => "cascade"
  | setNull => "set_null"
  | setDefault => "set_default"

theorem lookup_name (a : OnDelete) : choices.lookup a.name = some a := by cases a <;> rfl

end OnDelete

/-- A foreign key. -/
structure ForeignKey where
  name : String
  source : TableName
  sourceColumns : List String
  target : TableName
  targetColumns : List String
  onDelete : OnDelete
  deriving DecidableEq, Inhabited

namespace ForeignKey

/-- The referencing and the referenced column of a key with one of each. -/
def columns? (fk : ForeignKey) : Option (String × String) :=
  match fk.sourceColumns, fk.targetColumns with
  | [c], [p] => some (c, p)
  | _, _ => none

/-- Whether the key has one column on either side. -/
def isSingleColumn (fk : ForeignKey) : Bool := fk.columns?.isSome

end ForeignKey

end DeleteCascade
