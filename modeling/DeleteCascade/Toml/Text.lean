/-!
# TOML — strings

The four kinds of strings. A string between double quotes has escapes, one
between single quotes has none, and with three quotes on either side it may
go over several lines, each of which ends with a single line feed in the
text. Each reader begins behind the opening quotes and keeps what it read
in reverse.
-/

namespace DeleteCascade.Toml

/-- Whether a comment may hold a character: no control character but the
tab. -/
def isPrintable (c : Char) : Bool :=
  c == '\t' || (0x20 ≤ c.toNat && c.toNat ≤ 0x7E) || 0x80 ≤ c.toNat

/-- The blanks inside a line. -/
def isInlineBlank (c : Char) : Bool := c == ' ' || c == '\t'

/-- The value of a hexadecimal digit. -/
def hexDigit? (c : Char) : Option Nat :=
  if '0' ≤ c && c ≤ '9' then some (c.toNat - '0'.toNat)
  else if 'a' ≤ c && c ≤ 'f' then some (c.toNat - 'a'.toNat + 10)
  else if 'A' ≤ c && c ≤ 'F' then some (c.toNat - 'A'.toNat + 10)
  else none

/-- The character whose code point hexadecimal digits spell; a surrogate is
none. -/
def codePoint? (digits : List Char) : Option Char := do
  let n ← digits.foldlM (fun n c => (hexDigit? c).map (n * 16 + ·)) 0
  if n < 0xD800 ∨ (0xDFFF < n ∧ n < 0x110000) then some (Char.ofNat n) else none

/-- What an escaped character stands for. -/
def escaped? (c : Char) : Option Char :=
  match c with
  | 'b' => some '\x08'
  | 'f' => some '\x0c'
  | 'n' => some '\n'
  | 'r' => some '\r'
  | 't' => some '\t'
  | '"' => some '"'
  | '\\' => some '\\'
  | _ => none

/-- The text that was read in reverse. -/
def finish (read : List Char) (rest : List Char) : Option (String × List Char) :=
  some (String.ofList read.reverse, rest)

/-- A string between double quotes. -/
def basicString (read : List Char) : List Char → Option (String × List Char)
  | [] => none
  | '"' :: rest => finish read rest
  | '\\' :: 'u' :: a :: b :: c :: d :: rest =>
    match codePoint? [a, b, c, d] with
    | some x => basicString (x :: read) rest
    | none => none
  | '\\' :: 'U' :: a :: b :: c :: d :: e :: f :: g :: h :: rest =>
    match codePoint? [a, b, c, d, e, f, g, h] with
    | some x => basicString (x :: read) rest
    | none => none
  | '\\' :: c :: rest =>
    match escaped? c with
    | some x => basicString (x :: read) rest
    | none => none
  | c :: rest => if isPrintable c then basicString (c :: read) rest else none

/-- A string between single quotes. -/
def literalString (read : List Char) : List Char → Option (String × List Char)
  | [] => none
  | '\'' :: rest => finish read rest
  | c :: rest => if isPrintable c then literalString (c :: read) rest else none

/-- Whether a line ends here, blanks apart. -/
def lineEndsHere (cs : List Char) : Bool :=
  match cs.dropWhile isInlineBlank with
  | '\n' :: _ => true
  | '\r' :: '\n' :: _ => true
  | _ => false

/-- The rest without a line end that it begins with. -/
def dropLineEnd : List Char → List Char
  | '\n' :: rest => rest
  | '\r' :: '\n' :: rest => rest
  | cs => cs

/-- A string between three double quotes on either side. Up to two quotes
may stand before the closing ones, and a backslash at the end of a line
takes away all blanks and line ends that follow (`joining`). -/
def basicText (joining : Bool) (read : List Char) : List Char → Option (String × List Char)
  | [] => none
  | '"' :: '"' :: '"' :: '"' :: '"' :: rest => finish ('"' :: '"' :: read) rest
  | '"' :: '"' :: '"' :: '"' :: rest => finish ('"' :: read) rest
  | '"' :: '"' :: '"' :: rest => finish read rest
  | '\\' :: 'u' :: a :: b :: c :: d :: rest =>
    match codePoint? [a, b, c, d] with
    | some x => basicText false (x :: read) rest
    | none => none
  | '\\' :: 'U' :: a :: b :: c :: d :: e :: f :: g :: h :: rest =>
    match codePoint? [a, b, c, d, e, f, g, h] with
    | some x => basicText false (x :: read) rest
    | none => none
  | '\\' :: c :: rest =>
    if lineEndsHere (c :: rest) then basicText true read (c :: rest)
    else
      match escaped? c with
      | some x => basicText false (x :: read) rest
      | none => none
  | '\r' :: '\n' :: rest => basicText joining (if joining then read else '\n' :: read) rest
  | '\n' :: rest => basicText joining (if joining then read else '\n' :: read) rest
  | c :: rest =>
    if !isPrintable c then none
    else if joining && isInlineBlank c then basicText true read rest
    else basicText false (c :: read) rest

/-- A string between three single quotes on either side. Up to two quotes
may stand before the closing ones. -/
def literalText (read : List Char) : List Char → Option (String × List Char)
  | [] => none
  | '\'' :: '\'' :: '\'' :: '\'' :: '\'' :: rest => finish ('\'' :: '\'' :: read) rest
  | '\'' :: '\'' :: '\'' :: '\'' :: rest => finish ('\'' :: read) rest
  | '\'' :: '\'' :: '\'' :: rest => finish read rest
  | '\r' :: '\n' :: rest => literalText ('\n' :: read) rest
  | '\n' :: rest => literalText ('\n' :: read) rest
  | c :: rest => if isPrintable c then literalText (c :: read) rest else none

end DeleteCascade.Toml
