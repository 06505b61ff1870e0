import DeleteCascade.Text.Case
/-!
# Schema — columns
-/

namespace DeleteCascade

/-- A column of a table. -/
structure Column where
  name : String
  dataType : String
  nullable : Bool
  deriving DecidableEq, Inhabited

namespace Column

/-- Whether the column goes by this name. -/
def isNamed (c : Column) (name : String) : Bool := sameName c.name name

/-- The type as a definition states it. -/
def typeText (c : Column) : String :=
  if c.nullable then c.dataType else c.dataType ++ " NOT NULL"

end Column

end DeleteCascade
