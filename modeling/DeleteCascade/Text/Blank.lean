/-!
# Text — blanks

The characters with the Unicode property White_Space, and a text without
those at its two ends. A text is empty after `trim` exactly when it holds
blanks only (`trim_eq_empty_iff`).
-/

namespace DeleteCascade

/-- A character of white space. -/
def isBlank (c : Char) : Bool :=
  let n := c.toNat
  (9 ≤ n && n ≤ 13) || n == 0x20 || n == 0x85 || n == 0xA0 || n == 0x1680 ||
    (0x2000 ≤ n && n ≤ 0x200A) || n == 0x2028 || n == 0x2029 || n == 0x202F ||
    n == 0x205F || n == 0x3000

/-- The text without the blanks it begins and ends with. -/
def trim (s : String) : String :=
  String.ofList
    ((s.toList.dropWhile isBlank).reverse.dropWhile isBlank).reverse

theorem dropWhile_eq_nil_iff_all {α : Type} {p : α → Bool} {l : List α} :
    l.dropWhile p = [] ↔ ∀ a ∈ l, p a = true := by
  induction l with
  | nil => simp
  | cons a l ih => by_cases h : p a = true <;> simp_all

theorem trim_eq_empty_iff {s : String} : trim s = "" ↔ ∀ c ∈ s.toList, isBlank c = true := by
  have hnil : ∀ l : List Char, String.ofList l = "" ↔ l = [] := by
    intro l
    constructor
    · intro h
      have := congrArg String.toList h
      simpa using this
    · rintro rfl; rfl
  rw [trim, hnil, List.reverse_eq_nil_iff, dropWhile_eq_nil_iff_all]
  constructor
  · intro h
    rw [← dropWhile_eq_nil_iff_all]
    match hd : s.toList.dropWhile isBlank with
    | [] => rfl
    | c :: rest =>
      have hc : isBlank c = true := h c (by simp [hd])
      have hne : s.toList.dropWhile isBlank ≠ [] := by simp [hd]
      have := List.head_dropWhile_not isBlank hne
      simp [hd, hc] at this
  · intro h c hc
    exact h c ((List.dropWhile_sublist isBlank).mem (List.mem_reverse.1 hc))

end DeleteCascade
