import DeleteCascade.Script.Quote
import Mathlib.Data.List.Infix
/-!
# Quotes — what SQL reads in a query

SQL takes a quoted text up to its closing quote and a quote that stands
twice for one (`Quote.close?`). The texts in a query are its literals
(`Quote.literals`): what stands between them has no quote, and each gives
back the text it was made of (`literals_literal`). A pattern is matched with a
wildcard for any text, one for any character and an escape character
(`Like.accepts`), and the pattern for what begins with a text matches just
that (`accepts_pattern`).
-/

namespace DeleteCascade

namespace Quote

variable {q : Char} {s front rest : List Char}

/-- Reads a quoted text behind its opening quote: the text, and what
follows the closing quote. A quote that stands twice is one of the text. -/
def close? (q : Char) : List Char → Option (List Char × List Char)
  | [] => none
  | [c] => if c = q then some ([], []) else none
  | c :: d :: rest =>
    if c = q then
      if d = q then (close? q rest).map fun (s, after) => (q :: s, after)
      else some ([], d :: rest)
    else (close? q (d :: rest)).map fun (s, after) => (c :: s, after)

theorem close?_cons_of_ne {c : Char} (hc : c ≠ q) (cs : List Char) :
    close? q (c :: cs) = (close? q cs).map fun (s, after) => (c :: s, after) := by
  cases cs <;> simp [close?, hc]

/-- A text is read with its closing quote, and a quote in it took two. -/
theorem length_add_length_close? {cs after : List Char} (h : close? q cs = some (s, after)) :
    s.length + after.length < cs.length := by
  induction cs using close?.induct q generalizing s after with
  | case1 => simp [close?] at h
  | case2 => simp_all [close?]
  | case3 => simp_all [close?]
  | case4 rest ih =>
    simp only [close?, if_true, Option.map_eq_some_iff] at h
    obtain ⟨⟨s', after'⟩, hclose, heq⟩ := h
    cases heq
    have := ih hclose
    simp only [List.length_cons]
    omega
  | case5 d rest hd =>
    simp only [close?, if_true, if_neg hd] at h
    cases h
    simp
  | case6 c d rest hc ih =>
    simp only [close?, if_neg hc, Option.map_eq_some_iff] at h
    obtain ⟨⟨s', after'⟩, hclose, heq⟩ := h
    cases heq
    have := ih hclose
    simp only [List.length_cons] at this ⊢
    omega

theorem length_close? {cs after : List Char} (h : close? q cs = some (s, after)) :
    after.length < cs.length :=
  Nat.lt_of_le_of_lt (Nat.le_add_left _ _) (length_add_length_close? h)

/-- **What was quoted is read back**, and nothing of what follows, unless that
begins with the quote. -/
theorem close?_double (s : List Char) (hrest : rest.head? ≠ some q) :
    close? q ((s.flatMap fun c => if c = q then [c, c] else [c]) ++ q :: rest) =
      some (s, rest) := by
  induction s with
  | nil =>
    cases rest with
    | nil => simp [close?]
    | cons c rest =>
      have hc : c ≠ q := by simpa using hrest
      simp [close?, hc]
  | cons c s ih =>
    rw [List.flatMap_cons, List.append_assoc]
    by_cases hc : c = q
    · subst hc
      simp [close?, ih]
    · rw [if_neg hc, List.singleton_append, close?_cons_of_ne hc, ih]
      rfl

/-- The literals in a text of SQL, in order. -/
def literals : List Char → List (List Char)
  | [] => []
  | c :: cs =>
    if c = '\'' then
      match h : close? '\'' cs with
      | some (s, after) =>
        have := length_close? h
        s :: literals after
      | none => []
    else literals cs
termination_by cs => cs.length

/-- There are no literals in front of the first quote. -/
theorem literals_append (h : '\'' ∉ front) : literals (front ++ rest) = literals rest := by
  induction front with
  | nil => rfl
  | cons c front ih =>
    simp only [List.mem_cons, not_or] at h
    rw [List.cons_append, literals, if_neg (Ne.symm h.1), ih h.2]

theorem literals_of_not_mem (h : '\'' ∉ front) : literals front = [] := by
  have hnil : literals (front ++ []) = literals [] := literals_append h
  rwa [List.append_nil, literals] at hnil

theorem toList_literal_append (s : String) (rest : List Char) : (literal s).toList ++ rest =
    '\'' :: ((s.toList.flatMap fun c => if c = '\'' then [c, c] else [c]) ++ '\'' :: rest) := by
  simp [literal, double, String.toList_append]

theorem toList_identifier_append (s : String) (rest : List Char) : (identifier s).toList ++ rest =
    '"' :: ((s.toList.flatMap fun c => if c = '"' then [c, c] else [c]) ++ '"' :: rest) := by
  simp [identifier, double, String.toList_append]

/-- **A literal is read as the text it was made of.** -/
theorem literals_literal (s : String) (hrest : rest.head? ≠ some '\'') :
    literals ((literal s).toList ++ rest) = s.toList :: literals rest := by
  rw [toList_literal_append, literals, if_pos rfl]
  split
  · rename_i hclose
    rw [close?_double _ hrest] at hclose
    cases hclose
    rfl
  · rename_i hclose
    rw [close?_double _ hrest] at hclose
    cases hclose

end Quote

namespace Like

variable {p s : List Char} {c : Char}

/-- Takes one character, and leaves what follows to the rest. -/
def takes (c : Char) (rest : List Char → Bool) : List Char → Bool
  | [] => false
  | d :: s => d = c && rest s

/-- Whether a text matches a pattern: the percent sign stands for any text,
the underscore for any character, and a backslash takes the character behind
it as it is. -/
def accepts : List Char → List Char → Bool
  | [], s => s.isEmpty
  | '%' :: p, s => s.tails.any (accepts p)
  | '_' :: p, s => !s.isEmpty && accepts p s.tail
  | '\\' :: c :: p, s => takes c (accepts p) s
  | ['\\'], _ => false
  | c :: p, s => takes c (accepts p) s

theorem takes_eq_true {rest : List Char → Bool} :
    takes c rest s = true ↔ ∃ t, s = c :: t ∧ rest t = true := by
  cases s with
  | nil => simp [takes]
  | cons d s =>
    simp only [takes, Bool.and_eq_true, decide_eq_true_eq, List.cons.injEq]
    constructor
    · rintro ⟨rfl, h⟩
      exact ⟨s, ⟨rfl, rfl⟩, h⟩
    · rintro ⟨t, ⟨rfl, rfl⟩, h⟩
      exact ⟨rfl, h⟩

/-- A character that means nothing else stands for itself. -/
theorem accepts_plain (hc : c ≠ '\\' ∧ c ≠ '%' ∧ c ≠ '_') :
    accepts (c :: p) s = takes c (accepts p) s := by
  rw [accepts.eq_def]
  split <;> simp_all

/-- **The pattern of a text with a wildcard behind it accepts what begins with
the text**, and nothing else. -/
theorem accepts_pattern (s : String) (t : List Char) :
    accepts (Quote.pattern s ++ "%").toList t = true ↔ s.toList <+: t := by
  rw [String.toList_append, Quote.pattern, String.toList_ofList]
  generalize s.toList = cs
  induction cs generalizing t with
  | nil =>
    -- the wildcard takes all that is left
    simp only [List.flatMap_nil, List.nil_append, List.nil_prefix, iff_true]
    exact List.any_eq_true.2 ⟨[], (List.mem_tails _ _).2 List.nil_suffix, rfl⟩
  | cons c cs ih =>
    rw [List.flatMap_cons, List.append_assoc]
    have hstep (p : List Char) : accepts
        ((if (c = '\\' || c = '%' || c = '_') = true then ['\\', c] else [c]) ++ p) t =
          takes c (accepts p) t := by
      split
      · rfl
      · rename_i hc
        simp only [Bool.or_eq_true, decide_eq_true_eq, not_or] at hc
        exact accepts_plain ⟨hc.1.1, hc.1.2, hc.2⟩
    rw [hstep, takes_eq_true]
    constructor
    · rintro ⟨t', rfl, h⟩
      exact List.cons_prefix_cons.2 ⟨rfl, (ih t').1 h⟩
    · rintro ⟨after, rfl⟩
      exact ⟨cs ++ after, rfl, (ih _).2 (List.prefix_append _ _)⟩

end Like

end DeleteCascade
