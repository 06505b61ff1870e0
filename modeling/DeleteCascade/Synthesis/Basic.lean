import DeleteCascade.Synthesis.Cycle
/-!
# Synthesis — the functions of a script

Starting from a root table, every table that a function calls gets a
function too, first visited first listed, and depth first. The traversal
ends because each visit that begins leaves fewer tables of the schema to
visit. At the end the loops of owners are cut.
-/

namespace DeleteCascade

/-- The functions of a script and the remarks on them. -/
structure Synthesis where
  registry : Registry
  notes : List String

namespace Setting

/-- Writes the function of a table whose visit has begun, and names the
tables it calls, in order. -/
def write (s : Setting) (r : Registry) (notes : List String) (t : TableName) :
    Except SynthesisError (Registry × List String × List TableName) :=
  let draft := s.draft t
  match r.reserveAll draft.mentions with
  | .error e => .error (.names e)
  | .ok r =>
    match draft.outcome with
    | .error e => .error e
    | .ok (keyColumn, blocks) =>
      .ok
        (r.complete t keyColumn (blocks.map (·.map r.callee)), draft.notes.foldl addNote notes,
          blocks.flatMap (·.callees))

/-- Writing needs a table of the schema and begins no visit. -/
theorem visited_write {s : Setting} {r r' : Registry} {notes notes' : List String} {t : TableName}
    {called : List TableName} (h : s.write r notes t = .ok (r', notes', called)) :
    (s.schema.table? t).isSome = true ∧ r'.visited = r.visited := by
  unfold write at h
  simp only at h
  split at h
  · cases h
  · rename_i r₁ hreserve
    split at h
    · cases h
    · rename_i houtcome
      cases h
      exact ⟨table?_of_draft houtcome, by simpa using Registry.visited_reserveAll hreserve⟩

/-- Visits the pending tables and all that their functions call, in order.
A table that is pending twice is visited once. -/
def visit (s : Setting) (pending : List TableName) (r : Registry) (notes : List String) :
    Except SynthesisError Synthesis :=
  match pending with
  | [] => .ok ⟨r, notes⟩
  | t :: rest =>
    match _begun : r.beginVisit t with
    | .error e => .error (.names e)
    | .ok (false, r') => s.visit rest r' notes
    | .ok (true, r') =>
      match _written : s.write r' notes t with
      | .error e => .error e
      | .ok (r'', notes', called) => s.visit (called ++ rest) r'' notes'
termination_by (s.schema.countOutside r.visited, pending.length)
decreasing_by
  · rw [Registry.visited_beginVisit_false _begun]
    exact Prod.Lex.right _ (by simp)
  · obtain ⟨hknown, hvisited⟩ := visited_write _written
    rw [hvisited]
    exact Prod.Lex.left _ _ (Registry.countOutside_beginVisit_lt _begun hknown)

/-- The functions needed to delete rows of the root table, named with a
stem and within a length. -/
def synthesize (s : Setting) (namer : Namer) (root : TableName) :
    Except SynthesisError Synthesis :=
  match s.visit [root] (.new namer) [] with
  | .error e => .error e
  | .ok result => (s.cutCycles result.registry result.notes).map fun (r, notes) => ⟨r, notes⟩

end Setting

end DeleteCascade
