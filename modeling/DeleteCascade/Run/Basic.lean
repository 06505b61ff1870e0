import DeleteCascade.Function.Basic
import DeleteCascade.Run.Ids
import DeleteCascade.Store.Delete
/-!
# Run — what a run works on

Delete functions are run against a store. A run keeps the store and the
calls made so far, and it may fail with the state it had reached
(`RunState` is the state of the monad `Run`): what becomes of the store
then is decided by the client's call.
-/

namespace DeleteCascade

/-- Why a run fails. -/
inductive RunError where
  /-- A statement on the store failed. -/
  | store (cause : StoreError)
  | unknownFunction (name : String)
  /-- Functions called each other too deeply. -/
  | tooDeep (function : String) (depth : Nat)
  deriving DecidableEq

/-- The message of the error. -/
def RunError.message : RunError → String
  | store cause => cause.message
  | unknownFunction name => s!"function not found: {name}"
  | tooDeep function depth => s!"call depth {depth} exceeded in {function}"

/-- One call of a function. -/
structure CallRecord where
  function : String
  caller : Caller
  ids : List Int
  /-- How many calls are around this one. -/
  depth : Nat
  deriving DecidableEq

/-- How far a run is. -/
structure RunState where
  store : Store
  /-- The calls made, in order. -/
  trace : List CallRecord

/-- A step of a run. -/
abbrev Run := EStateM RunError RunState

namespace Run

variable {α : Type}

/-- A step in which a statement changes the store. -/
def statement (change : Store → Except StoreError (α × Store)) : Run α := fun st =>
  match change st.store with
  | .ok (a, store) => .ok a { st with store }
  | .error e => .error (.store e) st

/-- A step that reads the store. -/
def query (read : Store → Except StoreError α) : Run α := fun st =>
  match read st.store with
  | .ok a => .ok a st
  | .error e => .error (.store e) st

/-- A step that notes a call. -/
def enter (call : CallRecord) : Run Unit := fun st =>
  .ok () { st with trace := st.trace ++ [call] }

end Run

/-- What one call of a function has gathered so far. -/
structure Frame where
  /-- The rows of the function's table that went, by key. -/
  deleted : List Int
  /-- The parts of these in the same table, by key. -/
  deletedParts : List Int
  /-- The different values of each captured column in the rows that went. -/
  captured : List (List Int)

namespace Frame

/-- What a call begins with. -/
def empty : Frame := ⟨[], [], []⟩

/-- The ids that a call reports. -/
def result (f : Frame) : List Int := ascending (f.deleted ++ f.deletedParts)

end Frame

/-- Functions to run, and how deep they may call each other. -/
structure Program where
  functions : List DeleteFunction
  maxDepth : Nat

namespace Program

/-- How deep functions may call each other unless something else is said. -/
def defaultMaxDepth : Nat := 128

/-- The function of a name; the last one, if there are several. -/
def lookup (p : Program) (name : String) : Option DeleteFunction :=
  p.functions.reverse.find? (·.name == name)

end Program

end DeleteCascade
