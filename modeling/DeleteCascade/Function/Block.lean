import DeleteCascade.Function.Caller
import DeleteCascade.Schema.TableName
/-!
# Functions — blocks

The body of a delete function is a list of blocks, each of which deals with
one kind of link of the function's table. A block says which functions it
calls; what stands for a called function is left open, since a body is
planned in terms of tables and gets function names later.

`Block.callees` lists what a block may call, and `Block.calls` what it does
call for a given caller of its function, and as what caller.
-/

namespace DeleteCascade

/-- One way in which a row can still be owned by another. -/
inductive Owner where
  /-- The row points at an owner through a column of its own. -/
  | ownColumn (column : String)
  /-- Rows of a table point at the row as their part. -/
  | referencing (table : TableName) (column : String)
  deriving DecidableEq

namespace Owner

/-- Whether two of them are the same way. -/
def same : Owner → Owner → Bool
  | ownColumn a, ownColumn b => a == b
  | referencing t a, referencing u b => t.same u && a == b
  | _, _ => false

end Owner

/-- Rows of the function's own table that are parts of the rows deleted. -/
structure SelfParts (κ : Type) where
  column : String
  /-- Whether the parts are cut off before they are deleted. -/
  detach : Bool
  callee : κ
  deriving DecidableEq

/-- Rows of another table that point at the rows deleted. -/
structure ChildCascade (κ : Type) where
  child : TableName
  childKey : String
  column : String
  /-- Whether the children are cut off before they are deleted. -/
  detach : Bool
  /-- The owners, any of which keeps a child; none if nothing does. -/
  ownerCheck : Option (List Owner)
  callee : κ
  deriving DecidableEq

/-- Rows linked to the rows deleted by a bridge. -/
structure BridgeCascade (κ : Type) where
  bridge : TableName
  nearColumn : String
  farColumn : String
  target : TableName
  targetKey : String
  ownerCheck : Option (List Owner)
  /-- The function of the far side, if the near side owns it. -/
  callee : Option κ
  deriving DecidableEq

/-- A subtype chosen by the class of the object. -/
structure SubtypeCase (κ : Type) where
  classes : List Int
  callee : κ
  deriving DecidableEq

/-- Where the class of an object is stored. -/
structure Discriminator where
  table : TableName
  keyColumn : String
  column : String
  deriving DecidableEq

/-- Rows of subtypes with the keys of the rows deleted. -/
structure SubtypeDispatch (κ : Type) where
  discriminator : Option Discriminator
  cases : List (SubtypeCase κ)
  /-- The subtypes without classes, which may hold a row of any object. -/
  hooks : List κ
  deriving DecidableEq

/-- Rows that the rows deleted pointed at. -/
structure ReferencedCleanup (κ : Type) where
  column : String
  /-- Which of the captured columns holds the ids. -/
  slot : Nat
  target : TableName
  targetKey : String
  ownerCheck : Option (List Owner)
  callee : κ
  deriving DecidableEq

/-- One step of the body of a delete function. -/
inductive Block (κ : Type) where
  | selfParts (b : SelfParts κ)
  | childCascade (b : ChildCascade κ)
  | bridgeCascade (b : BridgeCascade κ)
  | subtypeDispatch (b : SubtypeDispatch κ)
  /-- The rows themselves go, and the values of some columns are kept. -/
  | localDelete (captured : List String)
  | referencedCleanup (b : ReferencedCleanup κ)
  /-- The rows of the supertype with the same keys go. -/
  | parentCascade (callee : κ)
  deriving DecidableEq

/-- The kinds of steps a body goes through. -/
inductive BlockKind where
  | selfParts
  | childCascade
  | subtypeDispatch
  | localDelete
  | referencedCleanup
  | parentCascade
  deriving DecidableEq

/-- The name of the kind. -/
def BlockKind.name : BlockKind → String
  | selfParts => "SelfParts"
  | childCascade => "ChildCascade"
  | subtypeDispatch => "SubtypeDispatch"
  | localDelete => "LocalDelete"
  | referencedCleanup => "ReferencedCleanup"
  | parentCascade => "ParentCascade"

namespace Block

variable {κ μ : Type}

/-- Puts something else in the place of each called function. -/
def map (f : κ → μ) : Block κ → Block μ
  | selfParts b => selfParts ⟨b.column, b.detach, f b.callee⟩
  | childCascade b =>
    childCascade ⟨b.child, b.childKey, b.column, b.detach, b.ownerCheck, f b.callee⟩
  | bridgeCascade b =>
    bridgeCascade
      ⟨b.bridge, b.nearColumn, b.farColumn, b.target, b.targetKey, b.ownerCheck, b.callee.map f⟩
  | subtypeDispatch b =>
    subtypeDispatch
      ⟨b.discriminator, b.cases.map fun c => ⟨c.classes, f c.callee⟩, b.hooks.map f⟩
  | localDelete captured => localDelete captured
  | referencedCleanup b =>
    referencedCleanup ⟨b.column, b.slot, b.target, b.targetKey, b.ownerCheck, f b.callee⟩
  | parentCascade callee => parentCascade (f callee)

/-- What the block may call, in order. -/
def callees : Block κ → List κ
  | selfParts b => [b.callee]
  | childCascade b => [b.callee]
  | bridgeCascade b => b.callee.toList
  | subtypeDispatch b => b.cases.map (·.callee) ++ b.hooks
  | localDelete _ => []
  | referencedCleanup b => [b.callee]
  | parentCascade callee => [callee]

/-- What the block calls when its function was called by `caller`, with the
caller that it passes on. -/
def calls (caller : Caller) : Block κ → List (κ × Caller)
  | subtypeDispatch b =>
    (if caller.skipsSubtypes then [] else b.cases.map fun c => (c.callee, .fromParent)) ++
      b.hooks.map fun h => (h, .fromParent)
  | parentCascade callee => if caller.skipsParent then [] else [(callee, .fromSubtype)]
  | b => b.callees.map fun c => (c, .fromOwner)

/-- The kind of the block. A bridge leads to children as well. -/
def kind : Block κ → BlockKind
  | selfParts _ => .selfParts
  | childCascade _ => .childCascade
  | bridgeCascade _ => .childCascade
  | subtypeDispatch _ => .subtypeDispatch
  | localDelete _ => .localDelete
  | referencedCleanup _ => .referencedCleanup
  | parentCascade _ => .parentCascade

/-- Whether the block looks for other owners, or makes sure of one less. -/
def checksOwners : Block κ → Bool
  | childCascade b => b.ownerCheck.isSome || b.detach
  | bridgeCascade b => b.ownerCheck.isSome
  | _ => false

@[simp] theorem callees_map (f : κ → μ) (b : Block κ) :
    (b.map f).callees = b.callees.map f := by
  cases b <;> simp [map, callees, Function.comp_def]
  case bridgeCascade b => cases b.callee <;> rfl

@[simp] theorem kind_map (f : κ → μ) (b : Block κ) : (b.map f).kind = b.kind := by
  cases b <;> rfl

@[simp] theorem calls_map (f : κ → μ) (caller : Caller) (b : Block κ) :
    (b.map f).calls caller = (b.calls caller).map fun call => (f call.1, call.2) := by
  cases b with
  | subtypeDispatch b =>
    simp only [map, calls]
    split <;> simp [Function.comp_def]
  | parentCascade callee =>
    simp only [map, calls]
    split <;> simp
  | bridgeCascade b => cases h : b.callee <;> simp [map, calls, callees, h]
  | _ => simp [map, calls, callees]

end Block

end DeleteCascade
