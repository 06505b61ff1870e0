import DeleteCascade.Text.Lowercase
/-!
# Functions — names

A function is named after its table, in small letters behind a common stem,
cut to the length that the database allows. Where tables would share a name
the later ones get a number, for which the name is cut further.
-/

namespace DeleteCascade

/-- No name is left for the function of a table. -/
structure NameOverflow where
  table : String
  maxLength : Nat
  deriving DecidableEq

/-- The message of the error. -/
def NameOverflow.message (e : NameOverflow) : String :=
  s!"no free function name for {e.table} within {e.maxLength} characters"

/-- Names given out so far, and what new ones are made of. -/
structure Namer where
  /-- What every name begins with, in small letters. -/
  stem : String
  maxLength : Nat
  taken : List String

namespace Namer

/-- The first characters of a text. -/
def cut (s : String) (length : Nat) : String := String.ofList (s.toList.take length)

/-- A namer that has given out nothing. -/
def new (stem : String) (maxLength : Nat) : Namer := ⟨lowercase stem, maxLength, []⟩

/-- The name of a table's function, were it the only one. -/
def baseName (n : Namer) (table : String) : String :=
  cut (n.stem ++ lowercase table) n.maxLength

/-- The base name with a number, if one character is left beside it. -/
def numbered? (base : String) (maxLength number : Nat) : Option String :=
  let digits := toString number
  if digits.length < maxLength then some (cut base (maxLength - digits.length) ++ digits)
  else none

/-- The largest number a name can get. -/
def maxNumber : Nat := 999

/-- The first name for a base that is not taken: the base itself unless it
is empty, then the base with the numbers from one. -/
def free? (n : Namer) (base : String) : Option String :=
  if !base.isEmpty && !n.taken.contains base then some base
  else
    (List.range' 1 maxNumber).findSome? fun number =>
      (numbered? base n.maxLength number).filter fun name => !n.taken.contains name

/-- Gives out a name for the function of a table. -/
def assign (n : Namer) (table : String) : Except NameOverflow (String × Namer) :=
  match n.free? (n.baseName table) with
  | some name => .ok (name, { n with taken := name :: n.taken })
  | none => .error ⟨table, n.maxLength⟩

end Namer

end DeleteCascade
