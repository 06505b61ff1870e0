import DeleteCascade.Run.Block
/-!
# Run — deleting as a client

A client calls a function with a batch, all of which is one transaction: if
it fails the store is as it was (`Deletion.store`). The calls are reported
either way.
-/

namespace DeleteCascade

/-- What a client's call comes to. -/
structure Deletion where
  /-- The ids of the rows deleted from the function's table. -/
  result : Except RunError (List Int)
  /-- The calls made, in order. -/
  trace : List CallRecord
  store : Store

/-- The answer to a client who asked for one id: the id, if its row was
deleted. -/
def Deletion.one (d : Deletion) (id : Int) : Except RunError (Option Int) :=
  d.result.map fun deleted => if deleted.contains id then some id else none

namespace Program

/-- Calls a function with a batch, `levels` calls deep at most. -/
def call (p : Program) (levels : Nat) (function : String) (ids : List Int) (caller : Caller) :
    Run (List Int) :=
  match levels with
  | 0 => throw (.tooDeep function (p.maxDepth + 1))
  | deeper + 1 =>
    match p.lookup function with
    | none => throw (.unknownFunction function)
    | some f => do
      let batch := ascending ids
      Run.enter ⟨function, caller, batch, p.maxDepth - deeper⟩
      if batch.isEmpty then
        return []
      let frame ← f.blocks.foldlM (fun frame b => b.run (p.call deeper) f batch caller frame) .empty
      return frame.result

/-- Calls a function as a client. -/
def delete (p : Program) (s : Store) (function : String) (ids : List Int) : Deletion :=
  match p.call (p.maxDepth + 1) function ids .external ⟨s, []⟩ with
  | .ok deleted st => ⟨.ok deleted, st.trace, st.store⟩
  | .error e st => ⟨.error e, st.trace, s⟩

end Program

end DeleteCascade
