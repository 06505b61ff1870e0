import Mathlib.Data.List.Basic
/-!
# Text — numbers

How numbers are written: a natural number by its digits, of which the first is
no zero, and an integer by those with or without a sign.
-/

namespace DeleteCascade

theorem head_toDigits_ne_zero {n : Nat} (h : 0 < n) : (Nat.toDigits 10 n).head? ≠ some '0' := by
  induction n using Nat.strongRecOn with
  | ind n ih =>
    rw [Nat.toDigits_eq_if (by decide)]
    split
    · rename_i hlt
      have hdigit : ∀ k < 10, 0 < k → k.digitChar ≠ '0' := by decide
      simpa using hdigit n hlt h
    -- the first digit is that of the number without its last
    · have hsmaller := ih (n / 10) (by omega) (by omega)
      rw [List.head?_append_of_ne_nil _ Nat.toDigits_ne_nil]
      exact hsmaller

theorem toList_toString_ofNat (n : Nat) :
    (toString (Int.ofNat n)).toList = Nat.toDigits 10 n := by
  have htext : toString (Int.ofNat n) = String.ofList (Nat.toDigits 10 n) := rfl
  rw [htext, String.toList_ofList]

theorem toList_toString_negSucc (n : Nat) :
    (toString (Int.negSucc n)).toList = '-' :: Nat.toDigits 10 (n + 1) := by
  have htext : toString (Int.negSucc n) = "-" ++ Nat.repr (n + 1) := rfl
  rw [htext, Nat.repr_eq_ofList_toDigits]
  simp

/-- The digits of a number begin with a digit. -/
theorem exists_toDigits_eq_cons (n : Nat) :
    ∃ d ds, Nat.toDigits 10 n = d :: ds ∧ d.isDigit = true := by
  obtain ⟨d, ds, hdigits⟩ := List.exists_cons_of_ne_nil (Nat.toDigits_ne_nil (n := n) (b := 10))
  exact ⟨d, ds, hdigits,
    Nat.isDigit_of_mem_toDigits (by decide) (by decide) (hdigits ▸ List.mem_cons_self)⟩

/-- An integer begins with its sign or a digit. -/
theorem exists_toString_eq_cons (n : Int) :
    ∃ c cs, (toString n).toList = c :: cs ∧ (c = '-' ∨ c.isDigit = true) := by
  cases n with
  | ofNat n =>
    obtain ⟨d, ds, hdigits, hd⟩ := exists_toDigits_eq_cons n
    exact ⟨d, ds, (toList_toString_ofNat n).trans hdigits, Or.inr hd⟩
  | negSucc n => exact ⟨'-', _, toList_toString_negSucc n, Or.inl rfl⟩

/-- No integer is written as a negative zero. -/
theorem toString_ne_negativeZero (n : Int) : toString n ≠ "-0" := by
  intro heq
  have hchars : (toString n).toList = ['-', '0'] := by rw [heq]; rfl
  cases n with
  | ofNat n =>
    obtain ⟨d, ds, hdigits, hd⟩ := exists_toDigits_eq_cons n
    rw [toList_toString_ofNat, hdigits] at hchars
    obtain ⟨rfl, -⟩ := List.cons.inj hchars
    exact absurd hd (by decide)
  | negSucc n =>
    rw [toList_toString_negSucc] at hchars
    have hzero := (List.cons.inj hchars).2
    exact head_toDigits_ne_zero n.succ_pos (by rw [hzero]; rfl)

end DeleteCascade
