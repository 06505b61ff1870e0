import DeleteCascade.Toml.Basic
/-!
# TOML — numbers, dates and times

The values that begin with a digit or a sign. A date or a time is tried
first, then a number with a fraction or an exponent, then an integer, which
has to fit 64 bits.
-/

namespace DeleteCascade.Toml

/-- What follows a first digit: more digits, with single underscores
between them. -/
def moreDigits (isDigit : Char → Bool) : List Char → List Char × List Char
  | [] => ([], [])
  | '_' :: c :: rest =>
    if isDigit c then
      let (ds, rest) := moreDigits isDigit rest
      (c :: ds, rest)
    else ([], '_' :: c :: rest)
  | c :: rest =>
    if isDigit c then
      let (ds, rest) := moreDigits isDigit rest
      (c :: ds, rest)
    else ([], c :: rest)

/-- One or more digits, with single underscores between them. -/
def someDigits (isDigit : Char → Bool) : List Char → Option (List Char × List Char)
  | c :: rest =>
    if isDigit c then
      let (ds, rest) := moreDigits isDigit rest
      some (c :: ds, rest)
    else none
  | [] => none

/-- A sign, if there is one: whether it is a minus. -/
def sign : List Char → Bool × List Char
  | '+' :: rest => (false, rest)
  | '-' :: rest => (true, rest)
  | cs => (false, cs)

/-- The digits of a decimal integer: a zero stands alone. -/
def wholeDigits : List Char → Option (List Char × List Char)
  | '0' :: rest => some (['0'], rest)
  | cs => someDigits Char.isDigit cs

/-- The value of a digit in some base up to sixteen. -/
def digitValue (c : Char) : Nat :=
  if c.isDigit then c.toNat - '0'.toNat
  else if 'a' ≤ c then c.toNat - 'a'.toNat + 10
  else c.toNat - 'A'.toNat + 10

/-- Whether a character is a digit in a base up to sixteen. -/
def isDigitIn (base : Nat) (c : Char) : Bool :=
  (c.isDigit || ('a' ≤ c && c ≤ 'f') || ('A' ≤ c && c ≤ 'F')) && digitValue c < base

/-- The number that digits spell. -/
def ofDigits (base : Nat) (ds : List Char) : Nat :=
  ds.foldl (fun n c => n * base + digitValue c) 0

/-- The integer of a number, if it fits 64 bits. -/
def int64? (n : Int) : Option Toml :=
  if -9223372036854775808 ≤ n ∧ n ≤ 9223372036854775807 then some (.integer n) else none

/-- An integer without a sign in one of the other bases. -/
def basedInteger? (base : Nat) (cs : List Char) : Option (Toml × List Char) := do
  let (ds, rest) ← someDigits (isDigitIn base) cs
  return (← int64? (ofDigits base ds), rest)

/-- An integer. -/
def integer? : List Char → Option (Toml × List Char)
  | '0' :: 'x' :: rest => basedInteger? 16 rest
  | '0' :: 'o' :: rest => basedInteger? 8 rest
  | '0' :: 'b' :: rest => basedInteger? 2 rest
  | cs => do
    let (minus, cs) := sign cs
    let (ds, rest) ← wholeDigits cs
    let n : Int := ofDigits 10 ds
    return (← int64? (if minus then -n else n), rest)

/-- The exponent of a number, if there is one. -/
def exponent? : List Char → Option (Int × List Char)
  | c :: rest =>
    if c == 'e' || c == 'E' then do
      let (minus, rest) := sign rest
      let (ds, rest) ← someDigits Char.isDigit rest
      let n : Int := ofDigits 10 ds
      return (if minus then -n else n, rest)
    else none
  | [] => none

/-- Whether the decimal number with these digits and this exponent is too
large for a double: no less than the middle between the largest double and
the power of two above it. -/
def overflows (digits : Nat) (exponent : Int) : Bool :=
  let magnitude : Int := (toString digits).length + exponent
  if digits = 0 ∨ magnitude < 300 then false
  else if magnitude > 320 then true
  else
    let limit := Nat.pow 2 1024 - Nat.pow 2 970
    if exponent < 0 then digits ≥ limit * Nat.pow 10 exponent.natAbs
    else digits * Nat.pow 10 exponent.natAbs ≥ limit

/-- What was read, when `rest` is what remains of `cs`. -/
def spelling (cs rest : List Char) : String :=
  String.ofList (cs.take (cs.length - rest.length))

/-- A number with a fraction, an exponent or both. It must not be too large
for a double, while one that is too far below zero is let pass. -/
def decimal? (cs : List Char) : Option (Toml × List Char) := do
  let (minus, afterSign) := sign cs
  let (whole, afterWhole) ← wholeDigits afterSign
  let (fraction, exponent, rest) ←
    match afterWhole with
    | '.' :: afterPoint => do
      let (ds, rest) ← someDigits Char.isDigit afterPoint
      match rest with
      | c :: _ =>
        if c == 'e' || c == 'E' then do
          let (e, rest) ← exponent? rest
          some (ds, e, rest)
        else some (ds, (0 : Int), rest)
      | [] => some (ds, (0 : Int), rest)
    | _ => do
      let (e, rest) ← exponent? afterWhole
      some ([], e, rest)
  if !minus && overflows (ofDigits 10 (whole ++ fraction)) (exponent - fraction.length) then none
  else some (.float (spelling cs rest), rest)

/-- Infinity, or what is not a number. -/
def special? (cs : List Char) : Option (Toml × List Char) :=
  match (sign cs).2 with
  | 'i' :: 'n' :: 'f' :: rest => some (.float (spelling cs rest), rest)
  | 'n' :: 'a' :: 'n' :: rest => some (.float (spelling cs rest), rest)
  | _ => none

/-- Two digits, as a number no larger than `limit`. -/
def twoDigits (limit : Nat) : List Char → Option (Nat × List Char)
  | a :: b :: rest =>
    if a.isDigit && b.isDigit && ofDigits 10 [a, b] ≤ limit then some (ofDigits 10 [a, b], rest)
    else none
  | _ => none

/-- How many days a month has. -/
def daysIn (year month : Nat) : Nat :=
  if month = 2 then
    if year % 4 = 0 ∧ (year % 100 ≠ 0 ∨ year % 400 = 0) then 29 else 28
  else if month = 4 ∨ month = 6 ∨ month = 9 ∨ month = 11 then 30
  else 31

/-- The rest after a date of the calendar. -/
def date? : List Char → Option (List Char)
  | a :: b :: c :: d :: '-' :: cs =>
    if a.isDigit && b.isDigit && c.isDigit && d.isDigit then
      match twoDigits 12 cs with
      | some (month, '-' :: cs) =>
        match twoDigits (daysIn (ofDigits 10 [a, b, c, d]) month) cs with
        | some (day, rest) => if month = 0 ∨ day = 0 then none else some rest
        | none => none
      | _ => none
    else none
  | _ => none

/-- The rest after a time of the day. -/
def time? (cs : List Char) : Option (List Char) :=
  match twoDigits 23 cs with
  | some (_, ':' :: cs) =>
    match twoDigits 59 cs with
    | some (_, ':' :: cs) =>
      match twoDigits 60 cs with
      | some (_, '.' :: c :: rest) =>
        if c.isDigit then some (rest.dropWhile Char.isDigit) else some ('.' :: c :: rest)
      | some (_, rest) => some rest
      | none => none
    | _ => none
  | _ => none

/-- The rest after the distance from universal time, if it is given. -/
def offset : List Char → List Char
  | 'Z' :: rest => rest
  | 'z' :: rest => rest
  | c :: rest =>
    if c == '+' || c == '-' then
      match twoDigits 23 rest with
      | some (_, ':' :: after) =>
        match twoDigits 59 after with
        | some (_, after) => after
        | none => c :: rest
      | _ => c :: rest
    else c :: rest
  | [] => []

/-- The rest after the time that follows a date, if one does. -/
def timeAfterDate : List Char → List Char
  | c :: rest =>
    if c == 'T' || c == 't' || c == ' ' then
      match time? rest with
      | some after => offset after
      | none => c :: rest
    else c :: rest
  | [] => []

/-- A date, a time or both. -/
def datetime? (cs : List Char) : Option (Toml × List Char) :=
  match date? cs with
  | some rest =>
    let rest := timeAfterDate rest
    some (.datetime (spelling cs rest), rest)
  | none => (time? cs).map fun rest => (.datetime (spelling cs rest), rest)

/-- A value that begins with a digit or a sign. -/
def numeric? (cs : List Char) : Option (Toml × List Char) :=
  datetime? cs <|> decimal? cs <|> special? cs <|> integer? cs

end DeleteCascade.Toml
