/-!
# Text — identifiers up to letter case

Database identifiers are compared with the case of their ASCII letters
ignored, and only of those: `É` and `é` name two different tables. Two
names are the same exactly when they fold to one text (`sameName_iff`), so
sameness is an equivalence and a folded name serves as a key.
-/

namespace DeleteCascade

/-- The text with its ASCII capitals made small. -/
def foldCase (s : String) : String := String.ofList (s.toList.map Char.toLower)

/-- Whether two identifiers name the same thing. -/
def sameName (a b : String) : Bool := foldCase a == foldCase b

theorem sameName_iff {a b : String} : sameName a b = true ↔ foldCase a = foldCase b := by
  simp [sameName]

@[simp] theorem sameName_refl (a : String) : sameName a a = true := by simp [sameName]

theorem sameName_comm (a b : String) : sameName a b = sameName b a := by
  simp only [sameName, Bool.beq_comm]

theorem sameName_trans {a b c : String} (hab : sameName a b = true) (hbc : sameName b c = true) :
    sameName a c = true :=
  sameName_iff.2 ((sameName_iff.1 hab).trans (sameName_iff.1 hbc))

end DeleteCascade
