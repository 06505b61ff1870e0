import DeleteCascade.Toml.Number
import DeleteCascade.Toml.Text
/-!
# TOML — reading a text

`Toml.parse?` reads a document line by line into sections and puts these
together. A value may be nested `maxDepth` deep, and a key may have so many
parts.
-/

namespace DeleteCascade.Toml

/-- How deep values may be nested, and how many parts a key may have. -/
def maxDepth : Nat := 79

/-- The rest after the blanks inside a line. -/
def skipBlanks (cs : List Char) : List Char := cs.dropWhile isInlineBlank

/-- The rest after a comment, if one begins here. -/
def skipComment : List Char → List Char
  | '#' :: rest => rest.dropWhile isPrintable
  | cs => cs

/-- The rest after the end of a line, which may hold blanks and a comment
before it. -/
def lineEnd? (cs : List Char) : Option (List Char) :=
  match skipComment (skipBlanks cs) with
  | [] => some []
  | '\n' :: rest => some rest
  | '\r' :: '\n' :: rest => some rest
  | _ => none

/-- The rest after blanks, line ends and comments. -/
def skipGap (inComment : Bool) : List Char → List Char
  | [] => []
  | '\r' :: '\n' :: rest => skipGap false rest
  | '\n' :: rest => skipGap false rest
  | c :: rest =>
    if inComment then
      if isPrintable c then skipGap true rest else c :: rest
    else if isInlineBlank c then skipGap false rest
    else if c = '#' then skipGap true rest
    else c :: rest

/-- Whether a character may stand in a key without quotes. -/
def isBare (c : Char) : Bool := c.isAlphanum || c == '-' || c == '_'

/-- One part of a key. -/
def keyPart? : List Char → Option (String × List Char)
  | '"' :: rest => basicString [] rest
  | '\'' :: rest => literalString [] rest
  | cs =>
    match cs.span isBare with
    | ([], _) => none
    | (name, rest) => some (String.ofList name, rest)

/-- A key with dots between its parts, of which there may be `parts`. -/
def keyParts? (parts : Nat) (cs : List Char) : Option (List String × List Char) :=
  match parts with
  | 0 => none
  | parts + 1 => do
    let (part, rest) ← keyPart? (skipBlanks cs)
    match skipBlanks rest with
    | '.' :: rest =>
      let (more, rest) ← keyParts? parts rest
      return (part :: more, rest)
    | rest => return ([part], rest)

/-- A key: the parts before the last dot, and the last part. -/
def key? (cs : List Char) : Option ((List String × String) × List Char) := do
  let (parts, rest) ← keyParts? maxDepth cs
  return ((parts.dropLast, ← parts.getLast?), rest)

/-- A reader of values. -/
abbrev ReadValue := List Char → Option (Toml × List Char)

/-- A key with its value. -/
def pair? (value : ReadValue) (cs : List Char) : Option (Pair × List Char) := do
  let ((path, key), rest) ← key? cs
  match rest with
  | '=' :: rest =>
    let (v, rest) ← value (skipBlanks rest)
    return (⟨path, key, v⟩, rest)
  | _ => none

/-- The items of an array behind its bracket, at most `fuel` of them. A
comma may follow the last one. -/
def items? (value : ReadValue) (fuel : Nat) (cs : List Char) : Option (List Toml × List Char) :=
  match fuel with
  | 0 => none
  | fuel + 1 =>
    match skipGap false cs with
    | ']' :: rest => some ([], rest)
    | cs => do
      let (v, rest) ← value cs
      match skipGap false rest with
      | ',' :: rest =>
        let (vs, rest) ← items? value fuel rest
        return (v :: vs, rest)
      | ']' :: rest => return ([v], rest)
      | _ => none

/-- The pairs of a table written out as a value, behind its first brace or a
comma, at most `fuel` of them. -/
def pairs? (value : ReadValue) (fuel : Nat) (cs : List Char) : Option (List Pair × List Char) :=
  match fuel with
  | 0 => none
  | fuel + 1 => do
    let (p, rest) ← pair? value cs
    match skipBlanks rest with
    | ',' :: rest =>
      let (ps, rest) ← pairs? value fuel rest
      return (p :: ps, rest)
    | '}' :: rest => return ([p], rest)
    | _ => none

/-- A table written out as a value, behind its first brace. -/
def inlineTable? (value : ReadValue) (cs : List Char) : Option (Toml × List Char) :=
  match skipBlanks cs with
  | '}' :: rest => some (.table .inline [], rest)
  | cs => do
    let (ps, rest) ← pairs? value cs.length cs
    return (.table .inline (← Entries.insertPairs [] ps), rest)

/-- A value, with `depth` levels of arrays and tables in it at most. -/
def value? (depth : Nat) (cs : List Char) : Option (Toml × List Char) :=
  let text (r : Option (String × List Char)) : Option (Toml × List Char) :=
    r.map fun (s, rest) => (.string s, rest)
  match cs with
  | '"' :: '"' :: '"' :: rest => text (basicText false [] (dropLineEnd rest))
  | '"' :: rest => text (basicString [] rest)
  | '\'' :: '\'' :: '\'' :: rest => text (literalText [] (dropLineEnd rest))
  | '\'' :: rest => text (literalString [] rest)
  | 't' :: 'r' :: 'u' :: 'e' :: rest => some (.bool true, rest)
  | 'f' :: 'a' :: 'l' :: 's' :: 'e' :: rest => some (.bool false, rest)
  | '[' :: rest =>
    match depth with
    | 0 => none
    | depth + 1 => (items? (value? depth) cs.length rest).map fun (vs, rest) => (.array vs, rest)
  | '{' :: rest =>
    match depth with
    | 0 => none
    | depth + 1 => inlineTable? (value? depth) rest
  | cs => numeric? cs

/-- A header behind its first bracket. -/
def header? : List Char → Option (Header × List Char)
  | '[' :: cs => do
    let ((path, key), rest) ← key? cs
    match rest with
    | ']' :: ']' :: rest => return (.element path key, rest)
    | _ => none
  | cs => do
    let ((path, key), rest) ← key? cs
    match rest with
    | ']' :: rest => return (.table path key, rest)
    | _ => none

/-- The sections of a document from the current one on, which has these
pairs so far, latest first. There are at most `fuel` lines. -/
def sections? (fuel : Nat) (header : Header) (pairs : List Pair) (cs : List Char) :
    Option (List Section) :=
  match fuel with
  | 0 => none
  | fuel + 1 =>
    match skipBlanks cs with
    | [] => some [⟨header, pairs.reverse⟩]
    | '\n' :: rest => sections? fuel header pairs rest
    | '\r' :: '\n' :: rest => sections? fuel header pairs rest
    | '#' :: rest => do sections? fuel header pairs (← lineEnd? ('#' :: rest))
    | '[' :: rest => do
      let (next, rest) ← header? rest
      let more ← sections? fuel next [] (← lineEnd? rest)
      return ⟨header, pairs.reverse⟩ :: more
    | cs => do
      let (p, rest) ← pair? (value? maxDepth) cs
      sections? fuel header (p :: pairs) (← lineEnd? rest)

/-- The entries of a TOML document. A byte order mark before it does not
count. -/
def parse? (s : String) : Option Entries := do
  let cs := match s.toList with
    | '\ufeff' :: rest => rest
    | cs => cs
  Entries.ofSections (← sections? (cs.length + 1) .root [] cs)

end DeleteCascade.Toml
