import DeleteCascade.Function.Block
/-!
# Functions — delete functions

A delete function deletes a batch of rows of its table, given by their
keys, with everything the rows own.
-/

namespace DeleteCascade

/-- A delete function that is called, with the table it serves. -/
structure Callee where
  table : TableName
  function : String
  deriving DecidableEq, Inhabited

/-- A delete function. -/
structure DeleteFunction where
  table : TableName
  name : String
  keyColumn : String
  blocks : List (Block Callee)
  deriving DecidableEq

namespace DeleteFunction

/-- A function of which only the name is known yet. -/
def unwritten (table : TableName) (name : String) : DeleteFunction := ⟨table, name, "", []⟩

/-- What the function may call, in the order of its blocks. -/
def callees (f : DeleteFunction) : List Callee := f.blocks.flatMap (·.callees)

/-- What the function calls when called by `caller`. -/
def calls (f : DeleteFunction) (caller : Caller) : List (Callee × Caller) :=
  f.blocks.flatMap (·.calls caller)

/-- The columns captured by the first local delete. -/
def captured? (f : DeleteFunction) : Option (List String) :=
  f.blocks.findSome? fun b =>
    match b with
    | .localDelete captured => some captured
    | _ => none

/-- The first dispatch to subtypes. -/
def subtypeDispatch? (f : DeleteFunction) : Option (SubtypeDispatch Callee) :=
  f.blocks.findSome? fun b =>
    match b with
    | .subtypeDispatch d => some d
    | _ => none

/-- What the first parent cascade calls. -/
def parentCascade? (f : DeleteFunction) : Option Callee :=
  f.blocks.findSome? fun b =>
    match b with
    | .parentCascade callee => some callee
    | _ => none

/-- Whether any block cares about other owners. -/
def checksOwners (f : DeleteFunction) : Bool := f.blocks.any (·.checksOwners)

/-- The kinds of the blocks, in order. -/
def kinds (f : DeleteFunction) : List BlockKind := f.blocks.map (·.kind)

end DeleteFunction

end DeleteCascade
