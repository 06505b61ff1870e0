import DeleteCascade.Text.Lowercase.Table
/-!
# Text — lowercasing

Names that are written into a script are made small by the full Unicode
rule: every character by the case tables, the dotted capital `İ` into two
characters, and the capital sigma by its place, since it has a form of its
own at the end of a word.
-/

namespace DeleteCascade.Lowercase

/-- Whether a code point lies in one of the ranges. -/
def inRanges (ranges : List (Nat × Nat)) (n : Nat) : Bool :=
  ranges.any fun (lo, hi) => lo ≤ n && n ≤ hi

/-- A letter of some case. -/
def isCased (c : Char) : Bool := inRanges casedRanges c.toNat

/-- A character that stands inside words without ending them. -/
def isCaseIgnorable (c : Char) : Bool := inRanges caseIgnorableRanges c.toNat

/-- The small form of a character, wherever it stands. -/
def smallForm (c : Char) : List Char :=
  if c = 'İ' then ['i', '\u0307'] else
  match smallForms.find? fun (lo, hi, step, _) =>
      lo ≤ c.toNat && c.toNat ≤ hi && (c.toNat - lo) % step == 0 with
  | some (_, _, _, distance) => [Char.ofNat (c.toNat + distance).toNat]
  | none => [c]

/-- Whether the first character that counts is a letter. -/
def meetsLetter (cs : List Char) : Bool :=
  match cs.dropWhile isCaseIgnorable with
  | c :: _ => isCased c
  | [] => false

/-- Lowercases a text of which `before` has been read, nearest first. A
capital sigma is final when a letter stands before it and none after. -/
def chars (before : List Char) : List Char → List Char
  | [] => []
  | c :: rest =>
    let small :=
      if c = 'Σ' then
        [if meetsLetter before && !meetsLetter rest then 'ς' else 'σ']
      else smallForm c
    small ++ chars (c :: before) rest

end DeleteCascade.Lowercase

namespace DeleteCascade

/-- The text in small letters. -/
def lowercase (s : String) : String := String.ofList (Lowercase.chars [] s.toList)

end DeleteCascade
