import DeleteCascade.Function.Namer
import DeleteCascade.Ownership.Classifier
import DeleteCascade.Schema.Reference
/-!
# Synthesis — drafts

A function body is first drafted from the schema alone. Besides its result
a draft keeps the tables it mentioned, since a table gets its function name
at first mention, and the remarks it made for a reviewer. Mentions made
before a failure count as well: running out of names comes before an error
that follows later.
-/

namespace DeleteCascade

/-- Why no delete functions were made. -/
inductive SynthesisError where
  /-- A question about a table had no answer. -/
  | lookup (table : TableName) (cause : LookupError)
  /-- The records about a link contradict each other. -/
  | conflict (table : TableName) (link : String) (cause : OwnershipConflict)
  /-- A supertype has classes below it and no column that holds the class. -/
  | noDiscriminator (table : TableName) (column : String)
  /-- There is no name left. -/
  | names (cause : NameOverflow)
  deriving DecidableEq

/-- The message of the error. -/
def SynthesisError.message : SynthesisError → String
  | lookup table cause => "introspection failed at " ++ table.qualified ++ ": " ++ cause.message
  | conflict table link cause =>
    "cannot classify " ++ link ++ " (visiting " ++ table.qualified ++ "): " ++ cause.message
  | noDiscriminator table column =>
    table.qualified ++ " has typed subtypes but no " ++ column ++ " column to dispatch on"
  | names cause => cause.message

/-- What drafting something yields. -/
structure Draft (α : Type) where
  /-- The tables mentioned, in order. -/
  mentions : List TableName
  /-- The remarks made, in order. -/
  notes : List String
  outcome : Except SynthesisError α

namespace Draft

variable {α β : Type}

/-- A result reached without a mention. -/
def ofExcept (r : Except SynthesisError α) : Draft α := ⟨[], [], r⟩

/-- Goes on with the result, if there is one. -/
def andThen (d : Draft α) (f : α → Draft β) : Draft β :=
  match d.outcome with
  | .error e => ⟨d.mentions, d.notes, .error e⟩
  | .ok a =>
    let next := f a
    ⟨d.mentions ++ next.mentions, d.notes ++ next.notes, next.outcome⟩

instance : Monad Draft where
  pure a := ofExcept (.ok a)
  bind := andThen

/-- Mentions a table. -/
def mention (t : TableName) : Draft TableName := ⟨[t], [], .ok t⟩

/-- Makes a remark. -/
def note (text : String) : Draft Unit := ⟨[], [text], .ok ()⟩

/-- The answer to a question about a table, asked while working on it. -/
def ask (table : TableName) (answer : Except LookupError α) : Draft α :=
  ofExcept (answer.mapError (.lookup table))

@[simp] theorem outcome_pure (a : α) : (pure a : Draft α).outcome = .ok a := rfl

@[simp] theorem outcome_ask (table : TableName) (answer : Except LookupError α) :
    (ask table answer).outcome = answer.mapError (.lookup table) := rfl

/-- A sequence succeeds when both of its parts do. -/
theorem outcome_bind_eq_ok {d : Draft α} {f : α → Draft β} {b : β} :
    (d >>= f).outcome = .ok b ↔ ∃ a, d.outcome = .ok a ∧ (f a).outcome = .ok b := by
  change (d.andThen f).outcome = .ok b ↔ _
  unfold andThen
  cases h : d.outcome <;> simp

end Draft

end DeleteCascade
