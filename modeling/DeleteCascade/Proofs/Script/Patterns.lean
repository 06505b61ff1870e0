import DeleteCascade.Proofs.Script.Literals
/-!
# Quotes — what a pattern means

What a text has to look like to match a pattern is said by rules
(`Like.Matches`), and the matcher follows them (`Like.accepts_iff_matches`). The
pattern for what begins with a text takes three characters literally. They can
as well be escaped one after the other, if the escape character itself comes
first (`Quote.toList_pattern`). Written as a literal, the pattern is read back
whole and matches what begins with the text (`Quote.matches_startsWith`).
-/

namespace DeleteCascade

namespace Like

/-- **A text matches a pattern.** -/
inductive Matches : List Char → List Char → Prop
  | nil : Matches [] []
  /-- A percent sign stands for any text. -/
  | percent {p s : List Char} (skipped : List Char) (rest : Matches p s) :
      Matches ('%' :: p) (skipped ++ s)
  /-- An underscore stands for any character. -/
  | underscore {p s : List Char} (c : Char) (rest : Matches p s) : Matches ('_' :: p) (c :: s)
  /-- A character behind a backslash stands for itself. -/
  | escaped {p s : List Char} (c : Char) (rest : Matches p s) : Matches ('\\' :: c :: p) (c :: s)
  /-- So does any other character. -/
  | plain {p s : List Char} {c : Char} (meant : c ≠ '\\' ∧ c ≠ '%' ∧ c ≠ '_')
      (rest : Matches p s) : Matches (c :: p) (c :: s)

/-- What is accepted matches. The matcher goes down the pattern, by two
characters where it meets a backslash. -/
theorem matches_of_accepts {p s : List Char} (h : accepts p s = true) : Matches p s := by
  induction hlength : p.length using Nat.strong_induction_on generalizing p s with
  | _ n ih =>
    subst hlength
    cases p with
    | nil =>
      obtain rfl := List.isEmpty_iff.1 h
      exact .nil
    | cons c p =>
      have hshorter {p' : List Char} (hp : p'.length ≤ p.length) {s : List Char}
          (hrest : accepts p' s = true) : Matches p' s :=
        ih p'.length (Nat.lt_succ_of_le hp) hrest rfl
      by_cases hpercent : c = '%'
      · subst hpercent
        obtain ⟨t, ht, hrest⟩ := List.any_eq_true.1 h
        obtain ⟨skipped, rfl⟩ := (List.mem_tails _ _).1 ht
        exact .percent skipped (hshorter (Nat.le_refl _) hrest)
      by_cases hunderscore : c = '_'
      · subst hunderscore
        cases s with
        | nil => cases h
        | cons d s => exact .underscore d (hshorter (Nat.le_refl _) h)
      by_cases hbackslash : c = '\\'
      · subst hbackslash
        cases p with
        | nil => cases h
        | cons d p =>
          obtain ⟨t, rfl, hrest⟩ := takes_eq_true.1 h
          exact .escaped d (hshorter (Nat.le_succ _) hrest)
      · have hplain : c ≠ '\\' ∧ c ≠ '%' ∧ c ≠ '_' := ⟨hbackslash, hpercent, hunderscore⟩
        rw [accepts_plain hplain] at h
        obtain ⟨t, rfl, hrest⟩ := takes_eq_true.1 h
        exact .plain hplain (hshorter (Nat.le_refl _) hrest)

/-- **The matcher accepts what matches**, and nothing else. -/
theorem accepts_iff_matches {p s : List Char} : accepts p s = true ↔ Matches p s := by
  refine ⟨matches_of_accepts, fun h => ?_⟩
  induction h with
  | nil => rfl
  | percent skipped _ ih =>
    exact List.any_eq_true.2 ⟨_, (List.mem_tails _ _).2 (List.suffix_append _ _), ih⟩
  | underscore c _ ih => exact ih
  | escaped c _ ih => exact takes_eq_true.2 ⟨_, rfl, ih⟩
  | plain meant _ ih =>
    rw [accepts_plain meant]
    exact takes_eq_true.2 ⟨_, rfl, ih⟩

end Like

namespace Quote

/-- Puts a backslash before one character wherever it stands. -/
def escape (c : Char) (cs : List Char) : List Char :=
  cs.flatMap fun d => if d = c then ['\\', d] else [d]

/-- **A pattern can be made one character after the other**: once the backslashes
are escaped, those that are put in for the wildcards stay as they are. -/
theorem toList_pattern (s : String) :
    (pattern s).toList = escape '_' (escape '%' (escape '\\' s.toList)) := by
  unfold pattern escape
  rw [String.toList_ofList, List.flatMap_assoc, List.flatMap_assoc]
  congr 1
  funext c
  by_cases hbackslash : c = '\\'
  · subst hbackslash
    rfl
  by_cases hpercent : c = '%'
  · subst hpercent
    rfl
  by_cases hunderscore : c = '_'
  · subst hunderscore
    rfl
  · simp [hbackslash, hpercent, hunderscore]

/-- The other way round the backslash before a wildcard would be escaped too. -/
example : escape '\\' (escape '%' ['%']) ≠ escape '%' (escape '\\' ['%']) := by decide

/-- Reads a quoted text: what stands between the quotes, and what follows. -/
def read? (q : Char) : List Char → Option (List Char × List Char)
  | [] => none
  | c :: cs => if c = q then close? q cs else none

/-- **The pattern for what begins with a text means just that.** Written as a
literal it is read back as one pattern, whatever stands in the text, and a name
matches the pattern exactly if it begins with the text. -/
theorem matches_startsWith (stem : String) :
    ∃ p, read? '\'' (startsWith stem).toList = some (p, []) ∧
      ∀ name : String, Like.Matches p name.toList ↔ stem.toList <+: name.toList := by
  refine ⟨(pattern stem ++ "%").toList, ?_, fun name => ?_⟩
  · rw [startsWith, ← List.append_nil (literal _).toList, toList_literal_append, read?, if_pos rfl]
    exact close?_double _ (by simp)
  · rw [← Like.accepts_iff_matches, Like.accepts_pattern]

end Quote

end DeleteCascade
