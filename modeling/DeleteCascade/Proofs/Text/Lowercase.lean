import DeleteCascade.Text.Case
import DeleteCascade.Text.Lowercase
/-!
# Text — small letters and identity

Identifiers are compared with the case of their ASCII letters ignored, and the
names made from them are written in small letters by the full Unicode rule. The
two go together: making the ASCII capitals small beforehand changes nothing
(`Lowercase.chars_map_toLower`), so identifiers that name the same thing have
one form in small letters (`lowercase_congr`).
-/

namespace DeleteCascade

namespace Lowercase

/-- The ASCII capitals. -/
def capitals : List Char := (List.range 26).map fun i => Char.ofNat ('A'.toNat + i)

/-- Only ASCII capitals have a small letter in ASCII. -/
theorem toLower_eq_or_mem_capitals (c : Char) : c.toLower = c ∨ c ∈ capitals := by
  unfold Char.toLower
  split
  · rename_i h
    obtain ⟨hlo, hhi⟩ := h
    have hlo' : 65 ≤ c.toNat := hlo
    have hhi' : c.toNat ≤ 90 := hhi
    refine Or.inr (List.mem_map.2 ⟨c.toNat - 65, List.mem_range.2 (by omega), ?_⟩)
    rw [show 'A'.toNat = 65 from rfl, Nat.add_sub_cancel' hlo', Char.ofNat_toNat]
  · exact Or.inl rfl

/-- **A letter counts as its small letter does**, wherever it stands. -/
theorem toLower_alike (c : Char) : isCaseIgnorable c.toLower = isCaseIgnorable c ∧
    isCased c.toLower = isCased c ∧ smallForm c.toLower = smallForm c ∧
    (c.toLower = 'Σ' ↔ c = 'Σ') := by
  rcases toLower_eq_or_mem_capitals c with h | h
  · rw [h]
    exact ⟨rfl, rfl, rfl, Iff.rfl⟩
  · -- the capitals are gone through, and not all characters
    have hall : capitals.all (fun c => isCaseIgnorable c.toLower = isCaseIgnorable c ∧
        isCased c.toLower = isCased c ∧ smallForm c.toLower = smallForm c ∧
        (c.toLower = 'Σ' ↔ c = 'Σ')) = true := by decide +kernel
    exact of_decide_eq_true (List.all_eq_true.1 hall c h)

theorem meetsLetter_map_toLower (cs : List Char) :
    meetsLetter (cs.map Char.toLower) = meetsLetter cs := by
  have hskip : isCaseIgnorable ∘ Char.toLower = isCaseIgnorable :=
    funext fun c => (toLower_alike c).1
  unfold meetsLetter
  rw [List.dropWhile_map, hskip]
  cases cs.dropWhile isCaseIgnorable with
  | nil => rfl
  | cons c rest => exact (toLower_alike c).2.1

/-- **Making ASCII capitals small beforehand changes nothing.** -/
theorem chars_map_toLower (before cs : List Char) :
    chars (before.map Char.toLower) (cs.map Char.toLower) = chars before cs := by
  induction cs generalizing before with
  | nil => rfl
  | cons c rest ih =>
    obtain ⟨-, -, hsmall, hsigma⟩ := toLower_alike c
    have hrest := ih (c :: before)
    rw [List.map_cons] at hrest
    simp only [List.map_cons, chars, meetsLetter_map_toLower, hsmall, hsigma, hrest]

end Lowercase

theorem lowercase_foldCase (s : String) : lowercase (foldCase s) = lowercase s := by
  unfold lowercase foldCase
  rw [String.toList_ofList]
  exact congrArg String.ofList (Lowercase.chars_map_toLower [] s.toList)

/-- **Identifiers that name the same thing have one form in small letters.** -/
theorem lowercase_congr {a b : String} (h : sameName a b) : lowercase a = lowercase b := by
  rw [← lowercase_foldCase a, sameName_iff.1 h, lowercase_foldCase]

end DeleteCascade
