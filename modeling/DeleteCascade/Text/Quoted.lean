import DeleteCascade.Text.Quoted.Table
import DeleteCascade.Text.Lowercase
/-!
# Text — quoted for a message

A text as a message shows it: between double quotes, with a backslash
before the characters that would mislead a reader and the code point in
place of those that cannot be seen.
-/

namespace DeleteCascade.Quoted

/-- A hexadecimal number in small digits, without leading zeros. -/
def hex (n : Nat) : String := String.ofList (Nat.toDigits 16 n)

/-- How one character is shown. -/
def char (c : Char) : String :=
  if c = '\x00' then "\\0"
  else if c = '\t' then "\\t"
  else if c = '\r' then "\\r"
  else if c = '\n' then "\\n"
  else if c = '\\' then "\\\\"
  else if c = '"' then "\\\""
  else if c ≠ ' ' &&
      (Lowercase.inRanges extendingRanges c.toNat || Lowercase.inRanges hiddenRanges c.toNat) then
    "\\u\x7b" ++ hex c.toNat ++ "\x7d"
  else c.toString

end DeleteCascade.Quoted

namespace DeleteCascade

/-- The text between double quotes, with every character shown. -/
def quoted (s : String) : String :=
  "\"" ++ String.join (s.toList.map Quoted.char) ++ "\""

end DeleteCascade
