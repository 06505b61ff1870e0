import DeleteCascade.Json.Basic
/-!
# JSON — reading a text

`Json.parse?` accepts exactly the texts of the JSON grammar: one value
with blanks around it, nothing before and nothing after. Escapes and
numbers are checked by the grammar alone.
-/

namespace DeleteCascade.Json

namespace Reader

/-- The four blanks of the grammar. -/
def isSpace (c : Char) : Bool := c == ' ' || c == '\n' || c == '\t' || c == '\r'

/-- The rest after any blanks. -/
def skip (cs : List Char) : List Char := cs.dropWhile isSpace

/-- The value of a hexadecimal digit. -/
def hexDigit? (c : Char) : Option Nat :=
  if '0' ≤ c && c ≤ '9' then some (c.toNat - '0'.toNat)
  else if 'a' ≤ c && c ≤ 'f' then some (c.toNat - 'a'.toNat + 10)
  else if 'A' ≤ c && c ≤ 'F' then some (c.toNat - 'A'.toNat + 10)
  else none

/-- The value of four hexadecimal digits. -/
def unit? (a b c d : Char) : Option Nat := do
  return (((← hexDigit? a) * 16 + (← hexDigit? b)) * 16 + (← hexDigit? c)) * 16 + (← hexDigit? d)

/-- What an escaped character stands for. -/
def escaped? (c : Char) : Option Char :=
  match c with
  | '"' => some '"'
  | '\\' => some '\\'
  | '/' => some '/'
  | 'b' => some '\x08'
  | 'f' => some '\x0c'
  | 'n' => some '\n'
  | 'r' => some '\r'
  | 't' => some '\t'
  | _ => none

/-- What a string has said so far: its characters, latest first, the first
half of a surrogate pair that waits for its second, and whether every half
found its partner. -/
structure Spoken where
  chars : List Char := []
  half : Option Nat := none
  whole : Bool := true

/-- A character that stands for itself. -/
def Spoken.push (s : Spoken) (c : Char) : Spoken :=
  ⟨c :: s.chars, none, s.whole && s.half.isNone⟩

/-- A code unit named by an escape. -/
def Spoken.pushUnit (s : Spoken) (u : Nat) : Spoken :=
  match s.half with
  | some h =>
    if 0xDC00 ≤ u && u ≤ 0xDFFF then
      let c := Char.ofNat (0x10000 + (h - 0xD800) * 0x400 + (u - 0xDC00))
      { s with chars := c :: s.chars, half := none }
    else { s with whole := false, half := none }
  | none =>
    if 0xD800 ≤ u && u ≤ 0xDBFF then { s with half := some u }
    else if 0xDC00 ≤ u && u ≤ 0xDFFF then { s with whole := false }
    else s.push (Char.ofNat u)

/-- The text that was spoken, if it is one. -/
def Spoken.text? (s : Spoken) : Option String :=
  if s.whole && s.half.isNone then some (String.ofList s.chars.reverse) else none

/-- The rest of a string after its opening quote, up to the closing one. -/
def string (s : Spoken) : List Char → Option (Option String × List Char)
  | [] => none
  | '"' :: rest => some (s.text?, rest)
  | '\\' :: 'u' :: a :: b :: c :: d :: rest =>
    match unit? a b c d with
    | some u => string (s.pushUnit u) rest
    | none => none
  | '\\' :: c :: rest =>
    match escaped? c with
    | some e => string (s.push e) rest
    | none => none
  | c :: rest => if c.toNat < 0x20 then none else string (s.push c) rest

/-- One or more digits and what follows them. -/
def digits (cs : List Char) : Option (List Char × List Char) :=
  match cs.span Char.isDigit with
  | ([], _) => none
  | found => some found

/-- The digits before the point: a zero stands alone. -/
def whole : List Char → Option (List Char × List Char)
  | '0' :: rest => some (['0'], rest)
  | cs => digits cs

/-- The point and the digits after it, if there is a point. -/
def fraction : List Char → Option (List Char × List Char)
  | '.' :: rest => do
    let (ds, rest) ← digits rest
    return ('.' :: ds, rest)
  | cs => some ([], cs)

/-- The sign of an exponent. -/
def sign : List Char → List Char × List Char
  | '+' :: rest => (['+'], rest)
  | '-' :: rest => (['-'], rest)
  | cs => ([], cs)

/-- The exponent, if there is one. -/
def exponent : List Char → Option (List Char × List Char)
  | c :: rest =>
    if c == 'e' || c == 'E' then do
      let (sgn, rest) := sign rest
      let (ds, rest) ← digits rest
      return (c :: sgn ++ ds, rest)
    else some ([], c :: rest)
  | [] => some ([], [])

/-- The number at the head of the text. -/
def number (cs : List Char) : Option (String × List Char) := do
  let (minus, cs) := match cs with
    | '-' :: rest => (['-'], rest)
    | _ => ([], cs)
  let (w, cs) ← whole cs
  let (f, cs) ← fraction cs
  let (e, cs) ← exponent cs
  return (String.ofList (minus ++ w ++ f ++ e), cs)

mutual

/-- The value at the head of the text, blanks before it allowed. A value
nested deeper than `fuel` is refused; a text has no more levels than
characters. -/
def value (fuel : Nat) (cs : List Char) : Option (Json × List Char) :=
  match fuel with
  | 0 => none
  | fuel + 1 =>
    match skip cs with
    | 'n' :: 'u' :: 'l' :: 'l' :: rest => some (.null, rest)
    | 't' :: 'r' :: 'u' :: 'e' :: rest => some (.bool true, rest)
    | 'f' :: 'a' :: 'l' :: 's' :: 'e' :: rest => some (.bool false, rest)
    | '"' :: rest => do
      let (s, rest) ← string {} rest
      return (.string s, rest)
    | '[' :: rest =>
      match skip rest with
      | ']' :: rest => some (.array [], rest)
      | rest => do
        let (items, rest) ← elements fuel rest
        return (.array items, rest)
    | '{' :: rest =>
      match skip rest with
      | '}' :: rest => some (.object [], rest)
      | rest => do
        let (items, rest) ← members fuel rest
        return (.object items, rest)
    | rest => do
      let (n, rest) ← number rest
      return (.number n, rest)

/-- One or more values with commas between them and a bracket at the end. -/
def elements (fuel : Nat) (cs : List Char) : Option (List Json × List Char) :=
  match fuel with
  | 0 => none
  | fuel + 1 => do
    let (item, rest) ← value fuel cs
    match skip rest with
    | ',' :: rest =>
      let (items, rest) ← elements fuel rest
      return (item :: items, rest)
    | ']' :: rest => return ([item], rest)
    | _ => none

/-- One or more members with commas between them and a brace at the end. -/
def members (fuel : Nat) (cs : List Char) : Option (List (Option String × Json) × List Char) :=
  match fuel with
  | 0 => none
  | fuel + 1 =>
    match skip cs with
    | '"' :: rest => do
      let (key, rest) ← string {} rest
      match skip rest with
      | ':' :: rest =>
        let (item, rest) ← value fuel rest
        match skip rest with
        | ',' :: rest =>
          let (items, rest) ← members fuel rest
          return ((key, item) :: items, rest)
        | '}' :: rest => return ([(key, item)], rest)
        | _ => none
      | _ => none
    | _ => none

end

end Reader

/-- The value that the text writes, if it is a JSON text. -/
def parse? (s : String) : Option Json :=
  let cs := s.toList
  match Reader.value (2 * cs.length + 2) cs with
  | some (v, rest) => if Reader.skip rest = [] then some v else none
  | none => none

end DeleteCascade.Json
