import DeleteCascade.Proofs.Function.Registry
/-!
# Registry — calls that write as they go

A call that fails might leave a registry half changed if the registry is
changed in place. Here the calls are told with everything they write and when:
names are tried one by one and taken where they are free (`Namer.takeFirst`),
and what was written before a failure stays written (`Registry.inPlace`).
These are the calls of the registry (`inPlace_eq_step`), of which a failing
one leaves the registry alone.
-/

namespace DeleteCascade

namespace Namer

variable {n : Namer} {base name table : String} {names : List String}

/-- Takes a name and says whether it was free. -/
def take (n : Namer) (name : String) : Bool × Namer :=
  if n.taken.contains name then (false, n) else (true, { n with taken := name :: n.taken })

/-- Tries names in turn until one could be taken. -/
def takeFirst (n : Namer) : List String → Option String × Namer
  | [] => (none, n)
  | name :: rest =>
    match n.take name with
    | (true, n) => (some name, n)
    | (false, n) => n.takeFirst rest

/-- The names for a base, in the order in which they are tried. -/
def candidates (base : String) (maxLength : Nat) : List String :=
  (if base.isEmpty then [] else [base]) ++
    (List.range' 1 maxNumber).filterMap (numbered? base maxLength)

/-- Gives out a name for the function of a table by trying one after the other. -/
def assignInPlace (n : Namer) (table : String) : Except NameOverflow String × Namer :=
  match n.takeFirst (candidates (n.baseName table) n.maxLength) with
  | (some name, n) => (.ok name, n)
  | (none, n) => (.error ⟨table, n.maxLength⟩, n)

/-- Searching what is made of a list is searching the list for what it makes. -/
theorem find?_filterMap_eq {α β : Type} (xs : List α) (f : α → Option β) (p : β → Bool) :
    (xs.filterMap f).find? p = xs.findSome? fun x => (f x).filter p := by
  induction xs with
  | nil => rfl
  | cons x xs ih =>
    rw [List.filterMap_cons, List.findSome?_cons]
    cases f x with
    | none => exact ih
    | some y =>
      dsimp only
      rw [List.find?_cons, Option.filter_some]
      cases p y with
      | true => rfl
      | false => exact ih

/-- The free name is the first free one among those that are tried. -/
theorem free?_eq_find? :
    n.free? base = (candidates base n.maxLength).find? fun name => !n.taken.contains name := by
  unfold free? candidates
  rw [List.find?_append, find?_filterMap_eq]
  cases base.isEmpty with
  | true => rfl
  | false =>
    rw [if_neg Bool.false_ne_true, List.find?_singleton]
    cases n.taken.contains base <;> rfl

/-- **Names that could not be taken leave no trace.** -/
theorem takeFirst_eq :
    n.takeFirst names = match names.find? fun name => !n.taken.contains name with
      | some name => (some name, { n with taken := name :: n.taken })
      | none => (none, n) := by
  induction names with
  | nil => rfl
  | cons name rest ih =>
    unfold takeFirst take
    rw [List.find?_cons]
    cases n.taken.contains name with
    | true => exact ih
    | false => rfl

/-- Trying names in place gives out the first free one, or nothing at all. -/
theorem assignInPlace_eq (n : Namer) (table : String) :
    n.assignInPlace table = match n.assign table with
      | .ok (name, n') => (.ok name, n')
      | .error e => (.error e, n) := by
  unfold assignInPlace assign
  rw [takeFirst_eq, ← free?_eq_find?]
  cases n.free? (n.baseName table) <;> rfl

end Namer

namespace Registry

variable {α : Type} {r r' : Registry} {t : TableName}

/-! ## Naming and beginning -/

/-- The answer of a call together with the registry it leaves, which is the
one before where the call fails. -/
def settle (r : Registry) : Except NameOverflow (α × Registry) → Except NameOverflow α × Registry
  | .ok (a, r') => (.ok a, r')
  | .error e => (.error e, r)

/-- `reserve` in place. -/
def reserveInPlace (r : Registry) (t : TableName) : Except NameOverflow String × Registry :=
  match r.record? t with
  | some f => (.ok f.function.name, r)
  | none =>
    match r.namer.assignInPlace t.name with
    | (.error e, namer) => (.error e, { r with namer })
    | (.ok name, namer) =>
      (.ok name, { r with namer, records := r.records ++ [⟨.unwritten t name, false⟩] })

/-- `register` in place. -/
def registerInPlace (r : Registry) (t : TableName) :
    Except NameOverflow DeleteFunction × Registry :=
  match r.reserveInPlace t with
  | (.error e, r) => (.error e, r)
  | (.ok name, r) => (.ok ((r.get? t).getD (.unwritten t name)), r)

/-- `beginVisit` in place. -/
def beginVisitInPlace (r : Registry) (t : TableName) : Except NameOverflow Bool × Registry :=
  match r.reserveInPlace t with
  | (.error e, r) => (.error e, r)
  | (.ok _, r) =>
    if r.state? t = some .reserved then (.ok true, { r with visited := r.visited ++ [t] })
    else (.ok false, r)

theorem reserveInPlace_eq (r : Registry) (t : TableName) :
    r.reserveInPlace t = r.settle (r.reserve t) := by
  unfold reserveInPlace reserve
  cases r.record? t with
  | some e => rfl
  | none =>
    -- a namer that gave out nothing is the one before, and so is the registry
    rw [Namer.assignInPlace_eq]
    cases r.namer.assign t.name <;> rfl

theorem registerInPlace_eq (r : Registry) (t : TableName) :
    r.registerInPlace t = r.settle (r.register t) := by
  unfold registerInPlace register
  rw [reserveInPlace_eq]
  cases r.reserve t <;> rfl

theorem beginVisitInPlace_eq (r : Registry) (t : TableName) :
    r.beginVisitInPlace t = r.settle (r.beginVisit t) := by
  unfold beginVisitInPlace beginVisit
  rw [reserveInPlace_eq]
  rcases r.reserve t with e | ⟨name, r'⟩
  · rfl
  · dsimp only [settle]
    split <;> rfl

/-! ## Calls and their answers -/

/-- A call that may change a registry. -/
inductive Request where
  | reserve (t : TableName)
  | register (t : TableName)
  | beginVisit (t : TableName)
  | complete (t : TableName) (keyColumn : String) (blocks : List (Block Callee))

/-- What a call that succeeds answers. -/
inductive Answer where
  | name (name : String)
  | function (f : DeleteFunction)
  | begun (first : Bool)
  | completed
  deriving DecidableEq

/-- Makes a call. -/
def perform (r : Registry) : Request → Except NameOverflow (Answer × Registry)
  | .reserve t => (r.reserve t).map fun (name, r) => (.name name, r)
  | .register t => (r.register t).map fun (f, r) => (.function f, r)
  | .beginVisit t => (r.beginVisit t).map fun (first, r) => (.begun first, r)
  | .complete t keyColumn blocks => .ok (.completed, r.complete t keyColumn blocks)

/-- The answer to a call, and the registry then. -/
def step (r : Registry) (c : Request) : Except NameOverflow Answer × Registry :=
  r.settle (r.perform c)

/-- The answer to a call that writes as it goes, and the registry then. -/
def inPlace (r : Registry) : Request → Except NameOverflow Answer × Registry
  | .reserve t => (r.reserveInPlace t).map (·.map .name) id
  | .register t => (r.registerInPlace t).map (·.map .function) id
  | .beginVisit t => (r.beginVisitInPlace t).map (·.map .begun) id
  | .complete t keyColumn blocks => (.ok .completed, r.complete t keyColumn blocks)

theorem settle_map {β : Type} (f : α → β) (outcome : Except NameOverflow (α × Registry)) :
    r.settle (outcome.map fun (a, r) => (f a, r)) = (r.settle outcome).map (·.map f) id := by
  rcases outcome with e | ⟨a, r'⟩ <;> rfl

/-- **Nothing is half written**: a call that writes as it goes does what a
call does that writes all or nothing. -/
theorem inPlace_eq_step (r : Registry) (c : Request) : r.inPlace c = r.step c := by
  cases c with
  | reserve t => simp only [inPlace, step, perform, reserveInPlace_eq, settle_map]
  | register t => simp only [inPlace, step, perform, registerInPlace_eq, settle_map]
  | beginVisit t => simp only [inPlace, step, perform, beginVisitInPlace_eq, settle_map]
  | complete t keyColumn blocks => rfl

end Registry

end DeleteCascade
