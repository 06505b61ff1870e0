import DeleteCascade.Function.Basic
/-!
# Script — SQL text

The text of a script as far as it is looked into: the tables, functions and
local variables it names, the calls it makes with the conditions around
them, and the tests for owners are parts of their own, and the rest is
plain text. How the parts are written is left to a `Spelling`, so one text
has views (`calls`, `variablesUsed`, `ownerTests`, `definitions`) beside its
rendering.
-/

namespace DeleteCascade

/-- The local variables of a function in a script. -/
inductive Variable where
  | deletedIds
  | deletedChildIds
  | candidateIds
  | targetIds
  | dummyIds
  /-- The row at hand in a loop. -/
  | record
  /-- The values of a captured column. -/
  | refIds (slot : Nat)
  deriving DecidableEq

/-- The name of the variable. -/
def Variable.name : Variable → String
  | deletedIds => "deleted_ids"
  | deletedChildIds => "deleted_child_ids"
  | candidateIds => "candidate_ids"
  | targetIds => "target_ids"
  | dummyIds => "dummy_ids"
  | record => "rec"
  | refIds slot => s!"ref_ids_{slot}"

/-- A condition on the way to a call. -/
inductive Guard where
  | callerIsNot (caller : Caller)
  | notEmpty (ids : Variable)
  deriving DecidableEq

/-- The test that a row has no owner of some kind. -/
structure OwnerTest where
  table : TableName
  keyColumn : String
  owner : Owner
  deriving DecidableEq

/-- A text of SQL. -/
inductive Sql where
  | empty
  | text (s : String)
  | table (name : TableName)
  /-- The name of a function where it is defined. -/
  | defined (function : String)
  | var (v : Variable)
  | noOwner (test : OwnerTest)
  /-- The call of a function with ids. -/
  | call (function : String) (ids : Sql) (caller : Caller)
  /-- The call of a function with ids that passes on who calls. -/
  | relay (function ids : String)
  /-- Statements that are carried out under conditions, indented so far. -/
  | guarded (indent : Nat) (guards : List Guard) (body : Sql)
  | append (a b : Sql)

namespace Sql

instance : Coe String Sql := ⟨text⟩

/-- Texts one after the other. -/
def concat (parts : List Sql) : Sql := parts.foldr append empty

/-- Texts with a plain text between them. -/
def separated (separator : String) : List Sql → Sql
  | [] => empty
  | [part] => part
  | part :: rest => append part (append (text separator) (separated separator rest))

/-- The calls in a text with a caller of their own, in order, with the
conditions around them. -/
def guardedCalls : Sql → List (List Guard × String × Caller)
  | call function ids caller => ids.guardedCalls ++ [([], function, caller)]
  | guarded _ guards body => body.guardedCalls.map fun (inner, f) => (guards ++ inner, f)
  | append a b => a.guardedCalls ++ b.guardedCalls
  | _ => []

/-- The calls in a text with a caller of their own, in order. -/
def calls (s : Sql) : List (String × Caller) := s.guardedCalls.map (·.2)

/-- The variable in a condition. -/
def guardVariables : List Guard → List Variable
  | [] => []
  | .notEmpty v :: rest => v :: guardVariables rest
  | .callerIsNot _ :: rest => guardVariables rest

/-- The variables in a text, in order. -/
def variablesUsed : Sql → List Variable
  | var v => [v]
  | call _ ids _ => ids.variablesUsed
  | guarded _ guards body => guardVariables guards ++ body.variablesUsed
  | append a b => a.variablesUsed ++ b.variablesUsed
  | _ => []

/-- The tests for owners in a text, in order. -/
def ownerTests : Sql → List OwnerTest
  | noOwner test => [test]
  | call _ ids _ => ids.ownerTests
  | guarded _ _ body => body.ownerTests
  | append a b => a.ownerTests ++ b.ownerTests
  | _ => []

/-- The functions that a text defines, in order. -/
def definitions : Sql → List String
  | defined function => [function]
  | call _ ids _ => ids.definitions
  | guarded _ _ body => body.definitions
  | append a b => a.definitions ++ b.definitions
  | _ => []

end Sql

/-- How the parts of a text are written. -/
structure Spelling where
  table : TableName → String
  function : String → String
  /-- The id at hand in a test for owners. -/
  candidate : String
  /-- The condition that a collection of ids is not empty. -/
  notEmpty : String → String

namespace Spelling

/-- How a condition is written. -/
def guard (p : Spelling) : Guard → String
  | .callerIsNot caller => s!"caller <> {caller.code}"
  | .notEmpty ids => p.notEmpty ids.name

/-- How a test for owners is written. -/
def ownerTest (p : Spelling) (t : OwnerTest) : String :=
  match t.owner with
  | .ownColumn column =>
    let table := p.table t.table
    s!"NOT EXISTS (SELECT 1 FROM {table} o WHERE o.{t.keyColumn} = {p.candidate} " ++
      s!"AND o.{column} IS NOT NULL)"
  | .referencing table column =>
    let table := p.table table
    s!"NOT EXISTS (SELECT 1 FROM {table} o WHERE o.{column} = {p.candidate})"

/-- So many blanks. -/
def blanks (n : Nat) : String := String.ofList (List.replicate n ' ')

/-- How a text is written. -/
def render (p : Spelling) : Sql → String
  | .empty => ""
  | .text s => s
  | .table name => p.table name
  | .defined function => p.function function
  | .var v => v.name
  | .noOwner test => p.ownerTest test
  | .call function ids caller =>
    p.function function ++ "(" ++ p.render ids ++ s!", {caller.code})"
  | .relay function ids => p.function function ++ s!"({ids}, caller)"
  | .guarded indent guards body =>
    blanks indent ++ "IF " ++ " AND ".intercalate (guards.map p.guard) ++ " THEN\n" ++
      p.render body ++ blanks indent ++ "END IF;\n"
  | .append a b => p.render a ++ p.render b

end Spelling

end DeleteCascade
