/-!
# Run — batches of ids

A batch is a set of ids, kept as an ascending list. `ascending` makes one
of any list: it has the same members (`mem_ascending`) in ascending order
(`pairwise_ascending`).
-/

namespace DeleteCascade

/-- Puts an id in its place in an ascending list, unless it is there. -/
def insertId (id : Int) : List Int → List Int
  | [] => [id]
  | a :: rest =>
    if id < a then id :: a :: rest
    else if id = a then a :: rest
    else a :: insertId id rest

/-- The different ids of a list, ascending. -/
def ascending (ids : List Int) : List Int := ids.foldr insertId []

theorem mem_insertId {a id : Int} {ids : List Int} :
    a ∈ insertId id ids ↔ a = id ∨ a ∈ ids := by
  induction ids with
  | nil => simp [insertId]
  | cons b rest ih =>
    unfold insertId
    split
    · simp
    · split
      · subst id; simp
      · simp only [List.mem_cons, ih]
        grind

@[simp] theorem mem_ascending {a : Int} {ids : List Int} : a ∈ ascending ids ↔ a ∈ ids := by
  induction ids with
  | nil => simp [ascending]
  | cons b rest ih =>
    have : ascending (b :: rest) = insertId b (ascending rest) := rfl
    rw [this, mem_insertId, ih, List.mem_cons]

theorem pairwise_insertId {id : Int} {ids : List Int} (h : ids.Pairwise (· < ·)) :
    (insertId id ids).Pairwise (· < ·) := by
  induction ids with
  | nil => simp [insertId]
  | cons b rest ih =>
    obtain ⟨hb, hrest⟩ := List.pairwise_cons.1 h
    unfold insertId
    split
    · rename_i hlt
      refine List.pairwise_cons.2 ⟨fun a ha => ?_, h⟩
      rcases List.mem_cons.1 ha with rfl | ha
      · exact hlt
      · exact Int.lt_trans hlt (hb a ha)
    · split
      · exact h
      · refine List.pairwise_cons.2 ⟨fun a ha => ?_, ih hrest⟩
        rcases mem_insertId.1 ha with rfl | ha
        · omega
        · exact hb a ha

theorem pairwise_ascending (ids : List Int) : (ascending ids).Pairwise (· < ·) := by
  induction ids with
  | nil => simp [ascending]
  | cons b rest ih => exact pairwise_insertId ih

end DeleteCascade
