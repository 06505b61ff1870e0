import DeleteCascade.Synthesis.Body
import DeleteCascade.Synthesis.Reach
/-!
# Synthesis — loops of owners

Rows may own each other in a loop, and then a cascade to children can come
back to the function it started from. Such a link is cut before the
children are deleted, if it may be NULL; otherwise a remark is left for the
reviewer.
-/

namespace DeleteCascade

/-- Adds a remark unless it was made before. -/
def addNote (notes : List String) (text : String) : List String :=
  if notes.contains text then notes else notes ++ [text]

namespace Setting

/-- Whether a block of a table's function cascades to children that lead
back, over a link that is not cut. -/
def leadsBack (r : Registry) (t : TableName) (b : Block Callee) : Bool :=
  match b with
  | .childCascade c => !c.detach && r.ownerCallReaches c.callee.table t
  | _ => false

/-- The reference behind a cascade to children. -/
def referenceOf? (incoming : List Incoming) (c : ChildCascade Callee) : Option Reference :=
  (incoming.map (·.reference)).find? fun r => r.child.same c.child && r.childColumn == c.column

/-- Cuts the link of one block if it leads back and may be NULL. -/
def cutBlock (r : Registry) (t : TableName) (incoming : List Incoming) (b : Block Callee) :
    Block Callee :=
  match b with
  | .childCascade c =>
    if leadsBack r t b && (referenceOf? incoming c).any (·.nullable) then
      .childCascade { c with detach := true }
    else b
  | _ => b

/-- The remark on one block, if it leads back over a link that cannot be
cut. -/
def cutNote? (r : Registry) (t : TableName) (incoming : List Incoming) (b : Block Callee) :
    Option String :=
  match b with
  | .childCascade c =>
    if leadsBack r t b then
      (referenceOf? incoming c).bind fun ref => if ref.nullable then none else some (cycleNote ref)
    else none
  | _ => none

/-- Cuts the links of one table's function that lead back to it. -/
def cutTable (s : Setting) (state : Registry × List String) (t : TableName) :
    Except SynthesisError (Registry × List String) :=
  let (r, notes) := state
  match r.get? t with
  | none => .ok state
  | some f =>
    if f.blocks.any (leadsBack r t) then
      match s.schema.incoming t with
      | .error e => .error (.lookup t e)
      | .ok incoming =>
        .ok
          (r.editBlocks t fun blocks => blocks.map (cutBlock r t incoming),
            (f.blocks.filterMap (cutNote? r t incoming)).foldl addNote notes)
    else .ok state

/-- Cuts the links that lead back, function by function. -/
def cutCycles (s : Setting) (r : Registry) (notes : List String) :
    Except SynthesisError (Registry × List String) :=
  (r.functions.map (·.table)).foldlM s.cutTable (r, notes)

end Setting

end DeleteCascade
