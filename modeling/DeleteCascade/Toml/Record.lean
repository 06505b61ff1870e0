import DeleteCascade.Toml.Basic
/-!
# TOML — values read as something

Readers from a TOML value to a value of the library, `none` where it is not
of the wanted form. A record may be given as a table, whose unknown keys
are ignored, or as the array of its fields in order.
-/

namespace DeleteCascade.Toml

/-- A text. -/
def text? : Toml → Option String
  | string s => some s
  | _ => none

/-- A truth value. -/
def bool? : Toml → Option Bool
  | bool b => some b
  | _ => none

/-- A number for counting. -/
def nat? : Toml → Option Nat
  | integer n => if 0 ≤ n then some n.toNat else none
  | _ => none

/-- Several values, each of which can be read. -/
def list? {α : Type} (read : Toml → Option α) : Toml → Option (List α)
  | array items => items.mapM read
  | tables elements => elements.mapM fun entries => read (table .header entries)
  | _ => none

/-- Whether a value has no content. -/
def isEmpty : Toml → Bool
  | array [] => true
  | table _ [] => true
  | _ => false

/-- One of the named choices: its name, or a table of that one key without a
content. -/
def choice? {α : Type} (choices : List (String × α)) : Toml → Option α
  | string s => choices.lookup s
  | table _ [(s, v)] => if v.isEmpty then choices.lookup s else none
  | _ => none

/-- The given fields of a record that has fields of these names, in this
order. Items after the last field are ignored. -/
def fields? (names : List String) : Toml → Option Entries
  | table _ entries => some entries
  | array items => some (names.zip items)
  | _ => none

/-- A field that must be given. -/
def Entries.get? {α : Type} (es : Entries) (name : String) (read : Toml → Option α) : Option α :=
  (es.lookup name).bind read

/-- A field that may be left out. -/
def Entries.getD? {α : Type} (es : Entries) (name : String) (default : α)
    (read : Toml → Option α) : Option α :=
  match es.lookup name with
  | some v => read v
  | none => some default

end DeleteCascade.Toml
