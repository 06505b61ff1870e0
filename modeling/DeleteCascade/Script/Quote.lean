/-!
# Script — quoted names and texts

Names and texts as SQL writes them: between quotes, with a quote inside
written twice. A pattern for texts that begin with a given one takes the
wildcards in it literally.
-/

namespace DeleteCascade.Quote

/-- Writes one character twice wherever it stands. -/
def double (q : Char) (s : String) : String :=
  String.ofList (s.toList.flatMap fun c => if c = q then [c, c] else [c])

/-- A quoted identifier. -/
def identifier (name : String) : String := "\"" ++ double '"' name ++ "\""

/-- A text literal. -/
def literal (value : String) : String := "'" ++ double '\'' value ++ "'"

/-- A pattern that only matches the text itself. -/
def pattern (s : String) : String :=
  String.ofList
    (s.toList.flatMap fun c => if c = '\\' || c = '%' || c = '_' then ['\\', c] else [c])

/-- The literal of the pattern for what begins with a text. -/
def startsWith (s : String) : String := literal (pattern s ++ "%")

end DeleteCascade.Quote
