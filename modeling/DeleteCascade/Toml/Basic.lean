/-!
# TOML — documents

A TOML document gives values to keys, section by section. A table can be
written in several places, and which of them go together depends on how
each was begun (`TableKind`): a header may complete a table that other
headers implied, and dotted keys may add to a table that dotted keys began,
but nothing that has been defined is defined again.
-/

namespace DeleteCascade

/-- How a table came about. -/
inductive TableKind where
  /-- Written out as a value. -/
  | inline
  /-- Defined by a header of its own. -/
  | header
  /-- Implied by the header of a table inside. -/
  | implied
  /-- Begun by a dotted key. -/
  | dotted
  deriving DecidableEq

/-- A TOML value. -/
inductive Toml where
  | string (text : String)
  | integer (value : Int)
  /-- A number with a fraction or an exponent, by its spelling. -/
  | float (spelling : String)
  | bool (value : Bool)
  /-- A date, a time or both, by its spelling. -/
  | datetime (spelling : String)
  | array (items : List Toml)
  | table (kind : TableKind) (entries : List (String × Toml))
  /-- Tables of which each has a header of its own. -/
  | tables (elements : List (List (String × Toml)))
  deriving Inhabited

namespace Toml

/-- The entries of a table. -/
abbrev Entries := List (String × Toml)

/-- Gives a key that is there another value. -/
def Entries.replace (key : String) (v : Toml) : Entries → Entries
  | [] => []
  | (k, old) :: rest => if k = key then (k, v) :: rest else (k, old) :: replace key v rest

/-- Changes the table that a path leads to, beginning at a table of some
kind. Tables on the way that are not there are made. A dotted key may not
pass a table that has a header, and nothing passes a table written out as a
value; of tables with a header each the path goes to the last. -/
def Entries.change (dotted : Bool) (f : TableKind → Entries → Option Entries) :
    (path : List String) → TableKind → Entries → Option Entries
  | [], kind, entries => f kind entries
  | key :: path, _, entries =>
    match entries.lookup key with
    | none => do
      let kind := if dotted then .dotted else .implied
      let sub ← Entries.change dotted f path kind []
      return entries ++ [(key, .table kind sub)]
    | some (.table kind sub) =>
      if kind = .inline || (dotted && kind = .header) then none
      else do
        let sub ← Entries.change dotted f path kind sub
        return Entries.replace key (.table kind sub) entries
    | some (.tables elements) =>
      match elements.getLast? with
      | none => none
      | some last => do
        let last ← Entries.change dotted f path .header last
        return Entries.replace key (.tables (elements.dropLast ++ [last])) entries
    | some _ => none

/-- A key, dotted or not, with its value. -/
structure Pair where
  path : List String
  key : String
  value : Toml

/-- Enters a pair in a table. A dotted key only adds to a table that dotted
keys began. -/
def Entries.insertPair (entries : Entries) (p : Pair) : Option Entries :=
  Entries.change true
    (fun kind entries =>
      if (kind == .dotted) == p.path.isEmpty then none
      else if (entries.lookup p.key).isSome then none
      else some (entries ++ [(p.key, p.value)]))
    p.path .header entries

/-- Enters pairs in a table. -/
def Entries.insertPairs (entries : Entries) (ps : List Pair) : Option Entries :=
  ps.foldlM Entries.insertPair entries

/-- What a section of a document defines. -/
inductive Header where
  /-- The document itself. -/
  | root
  | table (path : List String) (key : String)
  /-- One more of several tables. -/
  | element (path : List String) (key : String)

/-- A header with the pairs below it. -/
structure Section where
  header : Header
  pairs : List Pair

/-- Enters a section in a document. -/
def Entries.insertSection (root : Entries) (s : Section) : Option Entries :=
  match s.header with
  | .root => root.insertPairs s.pairs
  | .table path key =>
    Entries.change false
      (fun _ entries =>
        match entries.lookup key with
        | none => do
          let body ← Entries.insertPairs [] s.pairs
          return entries ++ [(key, .table .header body)]
        | some (.table .implied implied) => do
          let body ← Entries.insertPairs implied s.pairs
          return Entries.replace key (.table .header body) entries
        | some _ => none)
      path .header root
  | .element path key =>
    Entries.change false
      (fun _ entries =>
        match entries.lookup key with
        | none => do
          let body ← Entries.insertPairs [] s.pairs
          return entries ++ [(key, .tables [body])]
        | some (.tables elements) => do
          let body ← Entries.insertPairs [] s.pairs
          return Entries.replace key (.tables (elements ++ [body])) entries
        | some _ => none)
      path .header root

/-- The entries of the document that has these sections. -/
def Entries.ofSections (sections : List Section) : Option Entries :=
  sections.foldlM Entries.insertSection []

end Toml

end DeleteCascade
