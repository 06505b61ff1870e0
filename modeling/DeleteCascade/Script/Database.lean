import DeleteCascade.Text.Blank
import DeleteCascade.Text.Case
/-!
# Script — databases

The kinds of databases that can be named, and those of them for which
scripts are made: the dialects.
-/

namespace DeleteCascade

/-- A kind of database. -/
inductive Database where
  | postgresql
  | oracle
  | mysql
  deriving DecidableEq, Inhabited

namespace Database

/-- The name of the kind in documents. -/
def name : Database → String
  | postgresql => "postgresql"
  | oracle => "oracle"
  | mysql => "mysql"

/-- The names of the kinds in documents. -/
def choices : List (String × Database) :=
  [("postgresql", postgresql), ("postgres", postgresql), ("oracle", oracle), ("mysql", mysql)]

/-- The name of the kind in messages. -/
def title : Database → String
  | postgresql => "PostgreSQL"
  | oracle => "Oracle"
  | mysql => "MySQL"

/-- The kind that a user means: its name or a short form of it, in any
letter case and between any blanks. -/
def parse? (s : String) : Option Database :=
  (choices ++ [("pg", postgresql)]).lookup (foldCase (trim s))

theorem lookup_name (d : Database) : choices.lookup d.name = some d := by cases d <;> rfl

end Database

/-- Why there are no scripts for a database. -/
inductive DatabaseError where
  /-- The name means no kind of database. -/
  | unknown (name : String)
  /-- There is no dialect for the kind. -/
  | unsupported (database : Database)
  deriving DecidableEq

/-- The message of the error. -/
def DatabaseError.message : DatabaseError → String
  | unknown name => s!"unknown database kind: {name}"
  | unsupported database => "no delete script backend for " ++ database.title

/-- The languages in which scripts are written. -/
inductive Dialect where
  | postgresql
  | oracle
  deriving DecidableEq, Inhabited

namespace Dialect

/-- The database of a dialect. -/
def database : Dialect → Database
  | postgresql => .postgresql
  | oracle => .oracle

/-- How long a name may be. -/
def maxNameLength : Dialect → Nat
  | postgresql => 63
  | oracle => 30

end Dialect

namespace Database

/-- The dialect of a database. -/
def dialect : Database → Except DatabaseError Dialect
  | postgresql => .ok .postgresql
  | oracle => .ok .oracle
  | mysql => .error (.unsupported .mysql)

theorem dialect_database (d : Dialect) : d.database.dialect = .ok d := by cases d <;> rfl

end Database

end DeleteCascade
