import DeleteCascade.Json.Basic
/-!
# JSON — values read as something

Readers from a JSON value to a value of the library, `none` where it is
not of the wanted form. A record may be given as an object, whose unknown
members are ignored and whose known ones may stand once, or as the array
of its fields in order, the last ones left out (`fields?`).
-/

namespace DeleteCascade.Json

/-- A text. -/
def text? : Json → Option String
  | .string s => s
  | _ => none

/-- A truth value. -/
def bool? : Json → Option Bool
  | .bool b => some b
  | _ => none

/-- An integer: a number spelled without point and exponent. A negative
zero is no integer. -/
def integer? : Json → Option Int
  | .number s => if s = "-0" then none else s.toInt?
  | _ => none

/-- An integer of 32 bits. -/
def int32? (v : Json) : Option Int :=
  match integer? v with
  | some n => if -2147483648 ≤ n ∧ n ≤ 2147483647 then some n else none
  | none => none

/-- An array, every item of which can be read. -/
def list? {α : Type} (read : Json → Option α) : Json → Option (List α)
  | .array items => items.mapM read
  | _ => none

/-- Null, or what can be read. -/
def nullable? {α : Type} (read : Json → Option α) : Json → Option (Option α)
  | .null => some none
  | v => (read v).map some

/-- One of the named choices: its name, or an object of that one name
without a content. -/
def choice? {α : Type} (choices : List (String × α)) : Json → Option α
  | .string (some s) => choices.lookup s
  | .object [(some s, .null)] => choices.lookup s
  | _ => none

/-- The given fields of a record by name. -/
abbrev Fields := List (String × Json)

/-- The fields of a record that has fields of these names, in this order. -/
def fields? (names : List String) : Json → Option Fields
  | .object members => do
    let members ← members.mapM fun (key, v) => key.map fun k => (k, v)
    let known := members.filter fun (key, _) => names.contains key
    if (known.map Prod.fst).Nodup then some known else none
  | .array items => if items.length ≤ names.length then some (names.zip items) else none
  | _ => none

/-- A field that must be given. -/
def Fields.get? {α : Type} (fs : Fields) (name : String) (read : Json → Option α) : Option α :=
  (fs.lookup name).bind read

/-- A field that may be left out. -/
def Fields.getD? {α : Type} (fs : Fields) (name : String) (default : α) (read : Json → Option α) :
    Option α :=
  match fs.lookup name with
  | some v => read v
  | none => some default

end DeleteCascade.Json
