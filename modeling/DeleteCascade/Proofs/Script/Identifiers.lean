import DeleteCascade.Proofs.Script.Literals
/-!
# Quotes — names in a text

SQL reads a name that is given as a text part by part. Dots separate the parts,
and there may be blanks around each. A part between double quotes is taken as it
stands; any other holds characters of names only, and its capitals are read as
small letters (`Identifier.parts?`). So a name that was put in front of a dot
without quotes is seldom read back: it has to be folded to begin with
(`Identifier.parts?_eq_iff`). What the parts lose on the way, quotes and blanks,
makes them too short to be the whole text (`Identifier.length_parts?`).
-/

namespace DeleteCascade

namespace Identifier

/-- A character of a name that needs no quotes. What is not ASCII counts as a
letter. -/
def isNameChar (c : Char) : Bool := c.isAlphanum || c == '_' || c == '$' || 128 ≤ c.toNat

/-- A blank that may stand around a part of a name. -/
def isSpace (c : Char) : Bool := [' ', '\t', '\n', '\r', '\x0b', '\x0c'].contains c

/-- Reads one part of a name, and what follows it. -/
def part? : List Char → Option (List Char × List Char)
  | [] => none
  | c :: cs =>
    if c = '"' then Quote.close? '"' cs
    else if isNameChar c then
      some (((c :: cs).takeWhile isNameChar).map Char.toLower, (c :: cs).dropWhile isNameChar)
    else none

variable {cs after rest w name table : List Char} {names : List (List Char)} {c : Char}

theorem length_dropWhile_le (p : Char → Bool) (cs : List Char) :
    (cs.dropWhile p).length ≤ cs.length :=
  (List.dropWhile_suffix p).length_le

/-- **A part that is read** is a word of the text, folded, or else it stood
between quotes, which are lost. -/
theorem part?_cases (h : part? cs = some (name, after)) :
    (∃ w, cs = w ++ after ∧ name = w.map Char.toLower ∧ w ≠ [] ∧ ∀ c ∈ w, isNameChar c = true) ∨
      name.length + after.length + 2 ≤ cs.length := by
  cases cs with
  | nil => cases h
  | cons c cs =>
    rw [part?] at h
    split at h
    · have := Quote.length_add_length_close? h
      right
      simp only [List.length_cons]
      omega
    · split at h
      · rename_i hname
        cases h
        refine Or.inl ⟨_, (List.takeWhile_append_dropWhile).symm, rfl, ?_, fun d hd => ?_⟩
        · rw [List.takeWhile_cons_of_pos hname]
          exact List.cons_ne_nil _ _
        · exact List.all_eq_true.1 List.all_takeWhile d hd
      · cases h

theorem length_part? (h : part? cs = some (name, after)) :
    name.length + after.length ≤ cs.length ∧ after.length < cs.length := by
  rcases part?_cases h with ⟨w, rfl, rfl, hne, -⟩ | hlength
  · have := List.length_pos_of_ne_nil hne
    simp only [List.length_append, List.length_map]
    omega
  · omega

/-- The parts of a name, in order. -/
def parts? (cs : List Char) : Option (List (List Char)) :=
  match _part : part? (cs.dropWhile isSpace) with
  | none => none
  | some (name, after) =>
    match _dot : after.dropWhile isSpace with
    | [] => some [name]
    | c :: rest => if c = '.' then (parts? rest).map (name :: ·) else none
termination_by cs.length
decreasing_by
  have h₁ := (length_part? _part).2
  have h₂ := length_dropWhile_le isSpace cs
  have h₃ := length_dropWhile_le isSpace after
  rw [_dot, List.length_cons] at h₃
  omega

/-- A part is the last one, or there is a dot between it and the others. -/
theorem parts?_eq (cs : List Char) : parts? cs =
    (part? (cs.dropWhile isSpace)).bind fun (name, after) =>
      match after.dropWhile isSpace with
      | [] => some [name]
      | c :: rest => if c = '.' then (parts? rest).map (name :: ·) else none := by
  rw [parts?]
  split
  · rename_i hpart
    rw [hpart]
    rfl
  · rename_i name after hpart
    rw [hpart, Option.bind_some]
    dsimp only
    split <;> rename_i hafter <;> rw [hafter]

theorem parts?_eq_some (h : parts? cs = some names) :
    ∃ name after, part? (cs.dropWhile isSpace) = some (name, after) ∧
      (names = [name] ∨ ∃ rest names', after.dropWhile isSpace = '.' :: rest ∧
        parts? rest = some names' ∧ names = name :: names') := by
  rw [parts?_eq, Option.bind_eq_some_iff] at h
  obtain ⟨⟨name, after⟩, hpart, h⟩ := h
  refine ⟨name, after, hpart, ?_⟩
  dsimp only at h
  split at h
  · cases h
    exact Or.inl rfl
  · rename_i c rest hrest
    split at h
    · rename_i hdot
      obtain ⟨names', hnames', rfl⟩ := Option.map_eq_some_iff.1 h
      exact Or.inr ⟨rest, names', hdot ▸ hrest, hnames', rfl⟩
    · cases h

/-- **The parts and their dots are no longer than the text.** -/
theorem length_parts? (h : parts? cs = some names) :
    names.flatten.length + names.length ≤ cs.length + 1 := by
  induction hlength : cs.length using Nat.strong_induction_on generalizing cs names with
  | _ n ih =>
    subst hlength
    obtain ⟨name, after, hpart, hnames⟩ := parts?_eq_some h
    have hcs := length_dropWhile_le isSpace cs
    have hafter := length_dropWhile_le isSpace after
    obtain ⟨hle, hlt⟩ := length_part? hpart
    rcases hnames with rfl | ⟨rest, names', hrest, hnames', rfl⟩
    · simp only [List.flatten_cons, List.flatten_nil, List.length_append, List.length_cons,
        List.length_nil]
      omega
    · rw [hrest, List.length_cons] at hafter
      have hsum := ih rest.length (by omega) hnames' rfl
      simp only [List.flatten_cons, List.length_append, List.length_cons]
      omega

/-! ## Names that are read back -/

/-- **A word**: it needs no quotes to be read as one part. -/
def IsWord (w : List Char) : Prop := w ≠ [] ∧ ∀ c ∈ w, isNameChar c = true

/-- **A folded word**: it has no capitals either, and is read as it stands. -/
def IsFolded (w : List Char) : Prop := IsWord w ∧ w.map Char.toLower = w

theorem not_isSpace_of_isNameChar (h : isNameChar c = true) : isSpace c = false := by
  refine Bool.eq_false_iff.2 fun hspace => ?_
  simp only [isSpace, List.contains_eq_mem, decide_eq_true_eq, List.mem_cons, List.not_mem_nil,
    or_false] at hspace
  rcases hspace with rfl | rfl | rfl | rfl | rfl | rfl <;> exact absurd h (by decide)

theorem IsWord.dropWhile_isSpace (h : IsWord w) (rest : List Char) :
    (w ++ rest).dropWhile isSpace = w ++ rest := by
  obtain ⟨hne, hall⟩ := h
  cases w with
  | nil => exact absurd rfl hne
  | cons c w =>
    rw [List.cons_append, List.dropWhile_cons_of_neg]
    rw [not_isSpace_of_isNameChar (hall c List.mem_cons_self)]
    exact Bool.false_ne_true

/-- A word is read up to what is no character of a name. -/
theorem IsWord.part?_append (h : IsWord w) (hrest : ∀ c ∈ rest.head?, isNameChar c = false) :
    part? (w ++ rest) = some (w.map Char.toLower, rest) := by
  obtain ⟨hne, hall⟩ := h
  have htake : (w ++ rest).takeWhile isNameChar = w := by
    rw [List.takeWhile_append_of_pos hall]
    cases rest with
    | nil => simp
    | cons c rest => simp [hrest c rfl]
  have hdrop : (w ++ rest).dropWhile isNameChar = rest := by
    rw [List.dropWhile_append_of_pos hall]
    cases rest with
    | nil => rfl
    | cons c rest => simp [hrest c rfl]
  cases w with
  | nil => exact absurd rfl hne
  | cons c w =>
    have hname := hall c List.mem_cons_self
    have hquote : c ≠ '"' := by
      rintro rfl
      exact absurd hname (by decide)
    rw [List.cons_append, part?, if_neg hquote, if_pos hname, ← List.cons_append, htake, hdrop]

/-- Two words with a dot between them are read folded. -/
theorem IsWord.parts?_append (hw : IsWord w) (htable : IsWord table) :
    parts? (w ++ '.' :: table) = some [w.map Char.toLower, table.map Char.toLower] := by
  have hlast : parts? table = some [table.map Char.toLower] := by
    rw [← List.append_nil table, parts?_eq, htable.dropWhile_isSpace,
      htable.part?_append (by simp)]
    simp
  have hdot : ('.' :: table).dropWhile isSpace = '.' :: table := by
    rw [List.dropWhile_cons_of_neg (by decide)]
  rw [parts?_eq, hw.dropWhile_isSpace, hw.part?_append (by simp; decide), Option.bind_some]
  simp only [hdot, if_true, hlast, Option.map_some]

/-- **A table is read back with its schema** if and only if the schema was a
folded word: whatever else it holds, quotes, blanks, dots or capitals, is lost. -/
theorem parts?_eq_iff (htable : IsFolded table) :
    parts? (w ++ '.' :: table) = some [w, table] ↔ IsFolded w := by
  constructor
  · intro h
    obtain ⟨name, after, hpart, hnames⟩ := parts?_eq_some h
    rcases hnames with hone | ⟨rest, names', hrest, hnames', heq⟩
    · simp at hone
    · obtain ⟨rfl, rfl⟩ := List.cons.inj heq
      have htext := length_dropWhile_le isSpace (w ++ '.' :: table)
      have hafter := length_dropWhile_le isSpace after
      have hlength := length_parts? hnames'
      rw [hrest, List.length_cons] at hafter
      simp only [List.length_append, List.length_cons, List.flatten_cons, List.flatten_nil,
        List.length_nil] at htext hlength
      -- nothing was skipped, and no quote was lost
      rcases part?_cases hpart with ⟨v, hv, hname, hne, hall⟩ | hquoted
      · have hsame : v.length = w.length := by rw [hname, List.length_map]
        have hwhole : v ++ after = w ++ '.' :: table := by
          rw [← hv]
          refine (List.dropWhile_suffix isSpace).eq_of_length
            (Nat.le_antisymm (length_dropWhile_le isSpace _) ?_)
          rw [hv]
          simp only [List.length_append, List.length_cons]
          omega
        obtain rfl := (List.append_inj hwhole hsame).1
        exact ⟨⟨hne, hall⟩, hname.symm⟩
      · omega
  · rintro ⟨hw, hfold⟩
    rw [hw.parts?_append htable.1, hfold, htable.2]

end Identifier

end DeleteCascade
