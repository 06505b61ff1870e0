/-!
# Traversals — what bounds them

A traversal that never expands the same thing twice is bounded by the
number of things not yet expanded. `countP_lt_countP` is the step: a
stronger test that some member no longer passes counts less.
-/

namespace DeleteCascade

theorem countP_lt_countP {α : Type} {p q : α → Bool} {l : List α} {a : α}
    (himp : ∀ b, p b = true → q b = true) (ha : a ∈ l) (hq : q a = true) (hp : p a = false) :
    l.countP p < l.countP q := by
  obtain ⟨front, back, rfl⟩ := List.append_of_mem ha
  have hfront : front.countP p ≤ front.countP q := List.countP_mono_left fun b _ => himp b
  have hback : back.countP p ≤ back.countP q := List.countP_mono_left fun b _ => himp b
  simp only [List.countP_append, List.countP_cons, hq, hp]
  simp
  omega

end DeleteCascade
