import DeleteCascade.Run.Basic
/-!
# Run — blocks

What each kind of block does to the store. How a function is called is left
open here, so that a block is understood without the functions behind it.
-/

namespace DeleteCascade

/-- The way to call a function with a batch. -/
abbrev CallFunction := (function : String) → (ids : List Int) → (caller : Caller) → Run (List Int)

/-- Whether a row points through a column at a row of the batch. -/
def pointsInto (batch : List Int) (column : String) (r : Row) : Bool :=
  match r.get? column with
  | some v => batch.contains v
  | none => false

/-- Has a function delete rows owned by those of the running one, if there
are any. -/
def deleteOwned (call : CallFunction) (callee : Callee) (ids : List Int) : Run (List Int) :=
  if ids.isEmpty then pure [] else call callee.function ids .fromOwner

/-- The ids of rows that nothing owns any more. -/
def stillUnowned (t : TableName) (key : String) (owners : Option (List Owner)) (ids : List Int) :
    Run (List Int) :=
  return (← get).store.unowned t key owners ids

/-- Deletes the parts that the rows have in their own table. A row is not
its own part. -/
def SelfParts.run (b : SelfParts Callee) (call : CallFunction) (f : DeleteFunction)
    (batch : List Int) (frame : Frame) : Run Frame := do
  let isPart := fun r : Row =>
    pointsInto batch b.column r && r.get? b.column != r.get? f.keyColumn
  let parts ←
    if b.detach then Run.statement (·.setNullWhere f.table b.column isPart)
    else Run.query (·.select f.table isPart)
  let deleted ← deleteOwned call b.callee (parts.filterMap (·.get? f.keyColumn))
  return { frame with deletedParts := frame.deletedParts ++ deleted }

/-- Deletes the children that nothing else owns. -/
def ChildCascade.run (b : ChildCascade Callee) (call : CallFunction) (batch : List Int)
    (frame : Frame) : Run Frame := do
  let children ← Run.query (·.select b.child (pointsInto batch b.column))
  if b.detach then
    let _ ← Run.statement (·.setNullWhere b.child b.column (pointsInto batch b.column))
  let ids ← stillUnowned b.child b.childKey b.ownerCheck (children.filterMap (·.get? b.childKey))
  let _ ← deleteOwned call b.callee ids
  return frame

/-- Removes the bridge's links, and deletes the rows on the far side that
nothing else owns. -/
def BridgeCascade.run (b : BridgeCascade Callee) (call : CallFunction) (batch : List Int)
    (frame : Frame) : Run Frame := do
  let links ← Run.statement (·.deleteWhere b.bridge (pointsInto batch b.nearColumn))
  match b.callee with
  | none => return frame
  | some callee =>
    let ids ← stillUnowned b.target b.targetKey b.ownerCheck (links.filterMap (·.get? b.farColumn))
    let _ ← deleteOwned call callee ids
    return frame

/-- Has the subtype that stores the class of one object delete it. -/
def SubtypeDispatch.runTyped (b : SubtypeDispatch Callee) (call : CallFunction)
    (d : Discriminator) (frame : Frame) (id : Int) : Run Frame := do
  let rows ← Run.query (·.select d.table fun r => r.get? d.keyColumn == some id)
  match rows.head?.bind (·.get? d.column) with
  | none => return frame
  | some c =>
    match b.cases.find? (·.classes.contains c) with
    | none => return frame
    | some subtype =>
      let deleted ← call subtype.callee.function [id] .fromParent
      return if deleted.contains id then { frame with deleted := frame.deleted ++ [id] } else frame

/-- Has the subtypes delete their rows of the objects: first the one of
each object's class, then those without classes. -/
def SubtypeDispatch.run (b : SubtypeDispatch Callee) (call : CallFunction) (batch : List Int)
    (caller : Caller) (frame : Frame) : Run Frame := do
  let frame ←
    match b.discriminator with
    | some d => if caller.skipsSubtypes then pure frame else batch.foldlM (b.runTyped call d) frame
    | none => pure frame
  b.hooks.forM fun hook => do
    let _ ← call hook.function batch .fromParent
  return frame

/-- Deletes the rows themselves, and keeps the values of some columns. -/
def runLocalDelete (captured : List String) (f : DeleteFunction) (batch : List Int)
    (frame : Frame) : Run Frame := do
  let rows ← Run.statement (·.deleteWhere f.table (pointsInto batch f.keyColumn))
  return { frame with
    deleted := frame.deleted ++ rows.filterMap (·.get? f.keyColumn)
    captured := captured.map fun column => ascending (rows.filterMap (·.get? column)) }

/-- Deletes what the rows pointed at, as far as nothing else owns it. -/
def ReferencedCleanup.run (b : ReferencedCleanup Callee) (call : CallFunction) (frame : Frame) :
    Run Frame := do
  let ids ← stillUnowned b.target b.targetKey b.ownerCheck ((frame.captured[b.slot]?).getD [])
  let _ ← deleteOwned call b.callee ids
  return frame

/-- Deletes the rows of the supertype, unless it is the one that calls. -/
def runParentCascade (callee : Callee) (call : CallFunction) (caller : Caller) (frame : Frame) :
    Run Frame := do
  unless caller.skipsParent || frame.deleted.isEmpty do
    let _ ← call callee.function frame.deleted .fromSubtype
  return frame

/-- Carries out one block of a function. -/
def Block.run (b : Block Callee) (call : CallFunction) (f : DeleteFunction) (batch : List Int)
    (caller : Caller) (frame : Frame) : Run Frame :=
  match b with
  | .selfParts b => b.run call f batch frame
  | .childCascade b => b.run call batch frame
  | .bridgeCascade b => b.run call batch frame
  | .subtypeDispatch b => b.run call batch caller frame
  | .localDelete captured => runLocalDelete captured f batch frame
  | .referencedCleanup b => b.run call frame
  | .parentCascade callee => runParentCascade callee call caller frame

end DeleteCascade
