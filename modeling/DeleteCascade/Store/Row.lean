import DeleteCascade.Text.Case
/-!
# Store — rows

A row gives integers to some of its columns; a column without a value is
NULL. Columns are told apart up to letter case. A value that is set is read
back and leaves the other columns alone (`get?_set`), and so with clearing
(`get?_clear`).
-/

namespace DeleteCascade

theorem lookup_cons_eq {α β : Type} [BEq α] [LawfulBEq α] [DecidableEq α] (k a : α) (b : β)
    (l : List (α × β)) : ((a, b) :: l).lookup k = if a = k then some b else l.lookup k := by
  by_cases h : a = k
  · simp [h]
  · have : (k == a) = false := by simpa using fun hk : k = a => h hk.symm
    simp [List.lookup_cons, h, this]

/-- A row of a table. -/
structure Row where
  /-- The values by folded column name. -/
  cells : List (String × Int)
  deriving DecidableEq

namespace Row

/-- The row that is NULL everywhere. -/
def empty : Row := ⟨[]⟩

/-- The value of a column; none if it is NULL. -/
def get? (r : Row) (column : String) : Option Int := r.cells.lookup (foldCase column)

/-- Makes a column NULL. -/
def clear (r : Row) (column : String) : Row :=
  ⟨r.cells.filter fun cell => cell.1 != foldCase column⟩

/-- Gives a column a value. -/
def set (r : Row) (column : String) (value : Int) : Row :=
  ⟨(foldCase column, value) :: (r.clear column).cells⟩

theorem lookup_filter_ne (cells : List (String × Int)) (k k' : String) :
    (cells.filter fun cell => cell.1 != k).lookup k' =
      if k = k' then none else cells.lookup k' := by
  induction cells with
  | nil => simp
  | cons cell rest ih =>
    obtain ⟨name, value⟩ := cell
    by_cases hname : name = k
    · rw [List.filter_cons_of_neg (by simp [hname]), ih, lookup_cons_eq]
      by_cases hk : k = k'
      · simp [hk]
      · simp [hk, hname]
    · rw [List.filter_cons_of_pos (by simpa using hname), lookup_cons_eq, ih, lookup_cons_eq]
      by_cases hk : k = k'
      · subst hk
        simp [hname]
      · simp [hk]

theorem get?_clear (r : Row) (column other : String) :
    (r.clear column).get? other = if sameName column other then none else r.get? other := by
  simp only [clear, get?, sameName, lookup_filter_ne, beq_iff_eq]

theorem get?_set (r : Row) (column other : String) (value : Int) :
    (r.set column value).get? other =
      if sameName column other then some value else r.get? other := by
  have hclear := get?_clear r column other
  simp only [get?] at hclear
  by_cases h : foldCase column = foldCase other <;>
    simp_all [set, get?, sameName, lookup_cons_eq]

end Row

end DeleteCascade
