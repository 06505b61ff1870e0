import DeleteCascade.Function.Basic
import DeleteCascade.Function.Namer
import DeleteCascade.Schema.Basic
/-!
# Functions — registry

The functions of one script, one for each table. A table gets its function
name when it is first mentioned (`reserve`), so that functions can call
each other in circles; its visit begins once, and completing it fills in
the body. Finished functions are listed in the order in which their visits
began.

Reserving a name touches no visit (`visited_reserve`), and a visit that
begins takes its table out of those still to visit
(`countOutside_beginVisit_lt`): this is what bounds the traversal of a schema.
-/

namespace DeleteCascade

/-- How far a table's function is. -/
inductive VisitState where
  /-- Named, with nothing written yet. -/
  | reserved
  | inProgress
  | done
  deriving DecidableEq

/-- The name of the state. -/
def VisitState.name : VisitState → String
  | reserved => "Reserved"
  | inProgress => "InProgress"
  | done => "Done"

/-- A registered function, written or not. -/
structure FunctionRecord where
  function : DeleteFunction
  isDone : Bool
  deriving DecidableEq

/-- The functions of one script. -/
structure Registry where
  namer : Namer
  /-- One record for each mentioned table, in the order of mention. -/
  records : List FunctionRecord
  /-- The tables whose visit began, in order. -/
  visited : List TableName

namespace Registry

/-- A registry without functions. -/
def new (namer : Namer) : Registry := ⟨namer, [], []⟩

/-- The record of a table. -/
def record? (r : Registry) (t : TableName) : Option FunctionRecord :=
  r.records.find? fun f => f.function.table.same t

/-- The function of a table, written or not. -/
def get? (r : Registry) (t : TableName) : Option DeleteFunction :=
  (r.record? t).map (·.function)

/-- The function name of a table. -/
def nameOf? (r : Registry) (t : TableName) : Option String := (r.get? t).map (·.name)

/-- How far the function of a table is. -/
def state? (r : Registry) (t : TableName) : Option VisitState :=
  (r.record? t).map fun f =>
    if f.isDone then .done else if t.isIn r.visited then .inProgress else .reserved

/-- Gives the function of a table a name unless it has one. -/
def reserve (r : Registry) (t : TableName) : Except NameOverflow (String × Registry) :=
  match r.record? t with
  | some f => .ok (f.function.name, r)
  | none =>
    match r.namer.assign t.name with
    | .error e => .error e
    | .ok (name, namer) =>
      .ok (name, { r with namer, records := r.records ++ [⟨.unwritten t name, false⟩] })

/-- Reserves names for several tables in turn. -/
def reserveAll (r : Registry) : List TableName → Except NameOverflow Registry
  | [] => .ok r
  | t :: rest =>
    match r.reserve t with
    | .error e => .error e
    | .ok (_, r) => r.reserveAll rest

/-- The function of a table, reserved if it is new. -/
def register (r : Registry) (t : TableName) : Except NameOverflow (DeleteFunction × Registry) :=
  match r.reserve t with
  | .error e => .error e
  | .ok (name, r) => .ok ((r.get? t).getD (.unwritten t name), r)

/-- Begins the visit of a table. The answer is no if it began before or is
over. -/
def beginVisit (r : Registry) (t : TableName) : Except NameOverflow (Bool × Registry) :=
  match r.reserve t with
  | .error e => .error e
  | .ok (_, r) =>
    if r.state? t = some .reserved then .ok (true, { r with visited := r.visited ++ [t] })
    else .ok (false, r)

/-- Changes the function of a table. -/
def modify (r : Registry) (t : TableName) (f : FunctionRecord → FunctionRecord) : Registry :=
  { r with records := r.records.map fun e => if e.function.table.same t then f e else e }

/-- Writes the function of a table, if it has a name. -/
def complete (r : Registry) (t : TableName) (keyColumn : String) (blocks : List (Block Callee)) :
    Registry :=
  r.modify t fun e => ⟨{ e.function with keyColumn, blocks }, true⟩

/-- Edits the body of a table's function. -/
def editBlocks (r : Registry) (t : TableName) (f : List (Block Callee) → List (Block Callee)) :
    Registry :=
  r.modify t fun e => { e with function := { e.function with blocks := f e.function.blocks } }

/-- The written functions, in the order of their visits. -/
def functions (r : Registry) : List DeleteFunction :=
  r.visited.filterMap fun t =>
    match r.record? t with
    | some e => if e.isDone then some e.function else none
    | none => none

/-- The names of the written functions, in the order of their visits. -/
def names (r : Registry) : List String := r.functions.map (·.name)

/-- How many tables have been mentioned. -/
def size (r : Registry) : Nat := r.records.length

/-- A called table with the name of its function. Tables are mentioned
before they are called, so there is one. -/
def callee (r : Registry) (t : TableName) : Callee := ⟨t, (r.nameOf? t).getD ""⟩

theorem visited_reserve {r r' : Registry} {t : TableName} {name : String}
    (h : r.reserve t = .ok (name, r')) : r'.visited = r.visited := by
  unfold reserve at h
  split at h
  · cases h; rfl
  · split at h
    · cases h
    · cases h; rfl

theorem visited_reserveAll {ts : List TableName} {r r' : Registry}
    (h : r.reserveAll ts = .ok r') : r'.visited = r.visited := by
  induction ts generalizing r with
  | nil => cases h; rfl
  | cons t ts ih =>
    unfold reserveAll at h
    split at h
    · cases h
    · rename_i hr
      exact (ih h).trans (visited_reserve hr)

@[simp] theorem visited_modify (r : Registry) (t : TableName)
    (f : FunctionRecord → FunctionRecord) : (r.modify t f).visited = r.visited := rfl

@[simp] theorem visited_complete (r : Registry) (t : TableName) (keyColumn : String)
    (blocks : List (Block Callee)) : (r.complete t keyColumn blocks).visited = r.visited := rfl

theorem visited_beginVisit_false {r r' : Registry} {t : TableName}
    (h : r.beginVisit t = .ok (false, r')) : r'.visited = r.visited := by
  unfold beginVisit at h
  split at h
  · cases h
  · rename_i hr
    split at h
    · cases h
    · cases h; exact visited_reserve hr

theorem visited_beginVisit_true {r r' : Registry} {t : TableName}
    (h : r.beginVisit t = .ok (true, r')) :
    r'.visited = r.visited ++ [t] ∧ t.isIn r.visited = false := by
  unfold beginVisit at h
  split at h
  · cases h
  · rename_i r₁ hr
    split at h
    · rename_i hstate
      cases h
      refine ⟨by rw [visited_reserve hr], ?_⟩
      rw [← visited_reserve hr]
      simp only [state?, Option.map_eq_some_iff] at hstate
      obtain ⟨e, -, he⟩ := hstate
      by_cases hin : t.isIn r₁.visited = true
      · simp only [hin, if_true] at he
        split at he <;> cases he
      · exact Bool.eq_false_iff.2 hin
    · cases h

/-- A visit that begins leaves fewer tables of the schema to visit. -/
theorem countOutside_beginVisit_lt {g : Schema} {r r' : Registry} {t : TableName}
    (h : r.beginVisit t = .ok (true, r')) (hknown : (g.table? t).isSome = true) :
    g.countOutside r'.visited < g.countOutside r.visited := by
  obtain ⟨hvisited, hold⟩ := visited_beginVisit_true h
  rw [hvisited]
  refine Schema.countOutside_lt (u := t) ?_ hold ?_ hknown
  · intro u hu
    simp only [TableName.isIn, List.any_append, Bool.or_eq_true] at hu ⊢
    exact Or.inl hu
  · simp [TableName.isIn]

end Registry

end DeleteCascade
