/-!
# JSON — values

A JSON document as its grammar gives it. Members keep their order and
their repetitions, numbers keep their spelling, and a string whose escapes
name half of a surrogate pair is a string without a text: whether these
matter is decided where a value is read as something.
-/

namespace DeleteCascade

/-- A JSON value. -/
inductive Json where
  | null
  | bool (value : Bool)
  /-- A number by its spelling. -/
  | number (spelling : String)
  /-- A string; without a text if it names half a surrogate pair. -/
  | string (text : Option String)
  | array (items : List Json)
  | object (members : List (Option String × Json))
  deriving Inhabited

namespace Json

/-- The string of a text. -/
def text (s : String) : Json := .string (some s)

/-- The number of an integer. -/
def int (n : Int) : Json := .number (toString n)

/-- The text, or null. -/
def textOrNull : Option String → Json
  | some s => text s
  | none => .null

/-- The array of the encoded items. -/
def list {α : Type} (encode : α → Json) (items : List α) : Json := .array (items.map encode)

/-- The array of texts. -/
def texts (items : List String) : Json := list text items

/-- The object with these members, in order. -/
def record (members : List (String × Json)) : Json :=
  .object (members.map fun (key, value) => (some key, value))

end Json

end DeleteCascade
