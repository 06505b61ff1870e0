import DeleteCascade.Json.Basic
/-!
# JSON — writing a text

The compact spelling of a value: no blanks, members in order, and escapes
only where the grammar demands them.
-/

namespace DeleteCascade.Json

namespace Printer

/-- One digit of a code unit. -/
def hexDigit (n : Nat) : Char := Nat.digitChar (n % 16)

/-- A character inside a string. -/
def char (c : Char) : String :=
  if c = '"' then "\\\""
  else if c = '\\' then "\\\\"
  else if c = '\n' then "\\n"
  else if c.toNat < 0x20 then
    "\\u00" ++ String.ofList [hexDigit (c.toNat / 16), hexDigit c.toNat]
  else c.toString

/-- A string with its quotes. A string without a text is written as the
replacement character. -/
def string (s : Option String) : String :=
  "\"" ++ String.join ((s.getD "\ufffd").toList.map char) ++ "\""

mutual

/-- The text of a value. -/
def value : Json → String
  | .null => "null"
  | .bool b => if b then "true" else "false"
  | .number n => n
  | .string s => string s
  | .array items => "[" ++ elements items ++ "]"
  | .object items => "\x7b" ++ members items ++ "\x7d"

/-- The texts of the items with commas between them. -/
def elements : List Json → String
  | [] => ""
  | [v] => value v
  | v :: rest => value v ++ "," ++ elements rest

/-- The texts of the members with commas between them. -/
def members : List (Option String × Json) → String
  | [] => ""
  | [(k, v)] => string k ++ ":" ++ value v
  | (k, v) :: rest => string k ++ ":" ++ value v ++ "," ++ members rest

end

end Printer

/-- The compact text of a value. -/
def render (v : Json) : String := Printer.value v

end DeleteCascade.Json
