import DeleteCascade.Proofs.Script.Literals
/-!
# Quotes — what SQL reads as one token

Two kinds of tokens stand between quotes, texts and names. Rules say how a value
is spelled there (`Quote.Spells`) and what a token looks like in front of the rest
of a text (`Token.Reads`), and the reader follows them
(`Token.first?_eq_some_iff`). A text or a name that was quoted is read back as one
token, whatever stands in it, and what follows is left, unless it begins with the
same quote (`Quote.first?_quoted`).

A backslash means nothing between quotes. What becomes of the tokens is no part
of reading them: later a server takes texts on successive lines for one, and cuts
off names that are too long.
-/

namespace DeleteCascade

namespace Quote

variable {q : Char} {s s' w cs after rest rest' : List Char}

/-- **How a value is spelled between quotes.** -/
inductive Spells (q : Char) : List Char → List Char → Prop
  | nil : Spells q [] []
  /-- Two quotes stand for one. -/
  | quote {s w : List Char} (others : Spells q s w) : Spells q (q :: s) (q :: q :: w)
  /-- Any other character stands for itself. -/
  | plain {s w : List Char} {c : Char} (hc : c ≠ q) (others : Spells q s w) :
      Spells q (c :: s) (c :: w)

/-- **A value has one spelling**, with its quotes doubled. -/
theorem spells_iff :
    Spells q s w ↔ w = s.flatMap fun c => if c = q then [c, c] else [c] := by
  constructor
  · intro h
    induction h with
    | nil => rfl
    | quote _ ih => simp [ih]
    | plain hc _ ih => simp [hc, ih]
  · rintro rfl
    induction s with
    | nil => exact .nil
    | cons c s ih =>
      rw [List.flatMap_cons]
      by_cases hc : c = q
      · subst hc
        rw [if_pos rfl]
        exact .quote ih
      · rw [if_neg hc]
        exact .plain hc ih

theorem spells_of_close? (h : close? q cs = some (s, after)) :
    ∃ w, Spells q s w ∧ cs = w ++ q :: after ∧ after.head? ≠ some q := by
  induction cs using close?.induct q generalizing s with
  | case1 => cases h
  | case2 =>
    simp only [close?, if_true, Option.some.injEq, Prod.mk.injEq] at h
    obtain ⟨rfl, rfl⟩ := h
    exact ⟨[], .nil, rfl, by simp⟩
  | case3 c hc => simp [close?, hc] at h
  | case4 rest ih =>
    simp only [close?, if_true, Option.map_eq_some_iff] at h
    obtain ⟨⟨s', after'⟩, hclose, heq⟩ := h
    cases heq
    obtain ⟨w, hw, rfl, hafter⟩ := ih hclose
    exact ⟨q :: q :: w, .quote hw, rfl, hafter⟩
  | case5 d rest hd =>
    -- the first quote is the closing one
    simp only [close?, if_true, if_neg hd, Option.some.injEq, Prod.mk.injEq] at h
    obtain ⟨rfl, rfl⟩ := h
    exact ⟨[], .nil, rfl, by simpa using hd⟩
  | case6 c d rest hc ih =>
    simp only [close?, if_neg hc, Option.map_eq_some_iff] at h
    obtain ⟨⟨s', after'⟩, hclose, heq⟩ := h
    cases heq
    obtain ⟨w, hw, hrest, hafter⟩ := ih hclose
    exact ⟨c :: w, .plain hc hw, by rw [hrest, List.cons_append], hafter⟩

/-- **What is read behind an opening quote** is what is spelled up to the next
quote that stands alone. -/
theorem close?_eq_some_iff : close? q cs = some (s, after) ↔
    ∃ w, Spells q s w ∧ cs = w ++ q :: after ∧ after.head? ≠ some q := by
  constructor
  · exact spells_of_close?
  · rintro ⟨w, hw, rfl, hafter⟩
    rw [spells_iff.1 hw]
    exact close?_double s hafter

/-- **A spelling shows where it ends.** Of two spellings that are followed by a
closing quote, neither goes on in the other. -/
theorem Spells.unique {w' : List Char} (h : Spells q s w) (h' : Spells q s' w')
    (hrest : rest.head? ≠ some q) (hrest' : rest'.head? ≠ some q)
    (heq : w ++ q :: rest = w' ++ q :: rest') : s = s' ∧ rest = rest' := by
  have hread : close? q (w ++ q :: rest) = some (s, rest) :=
    close?_eq_some_iff.2 ⟨w, h, rfl, hrest⟩
  have hread' : close? q (w ++ q :: rest) = some (s', rest') :=
    close?_eq_some_iff.2 ⟨w', h', heq, hrest'⟩
  simpa using hread.symm.trans hread'

end Quote

/-- A token between quotes. -/
inductive Token
  /-- A text. -/
  | text (value : List Char)
  /-- A name. -/
  | name (value : List Char)
  deriving DecidableEq

namespace Token

/-- What a token is read as. -/
def value : Token → List Char
  | text s => s
  | name s => s

/-- What a token stands between. -/
def quote : Token → Char
  | text _ => '\''
  | name _ => '"'

/-- **A token in front of what follows it.** -/
structure Reads (cs : List Char) (token : Token) (after : List Char) : Prop where
  /-- It stands between its quotes, and nothing is left out. -/
  spelled : ∃ w, Quote.Spells token.quote token.value w ∧
    cs = token.quote :: (w ++ token.quote :: after)
  /-- A text may be empty, a name may not. -/
  named : token ≠ .name []
  /-- It goes on as long as it can: the last quote is not doubled. -/
  ends : after.head? ≠ some token.quote

/-- Reads the token that a text begins with, if a quote opens it: the token, and
what follows it. -/
def first? : List Char → Option (Token × List Char)
  | [] => none
  | c :: cs =>
    if c = '\'' then (Quote.close? '\'' cs).map fun (s, after) => (.text s, after)
    else if c = '"' then
      (Quote.close? '"' cs).bind fun (s, after) => if s = [] then none else some (.name s, after)
    else none

variable {cs after : List Char} {token : Token}

theorem reads_of_first? (h : first? cs = some (token, after)) : Reads cs token after := by
  cases cs with
  | nil => cases h
  | cons c cs =>
    rw [first?] at h
    split at h
    · rename_i hc
      subst hc
      obtain ⟨⟨s, after⟩, hclose, heq⟩ := Option.map_eq_some_iff.1 h
      cases heq
      obtain ⟨w, hw, rfl, hafter⟩ := Quote.spells_of_close? hclose
      exact ⟨⟨w, hw, rfl⟩, Token.noConfusion, hafter⟩
    · split at h
      · rename_i hc
        subst hc
        obtain ⟨⟨s, after⟩, hclose, hname⟩ := Option.bind_eq_some_iff.1 h
        dsimp only at hname
        split at hname
        · cases hname
        · rename_i hs
          cases hname
          obtain ⟨w, hw, rfl, hafter⟩ := Quote.spells_of_close? hclose
          exact ⟨⟨w, hw, rfl⟩, fun h => hs (Token.name.inj h), hafter⟩
      · cases h

/-- **The reader finds the token that is there**, and no other. -/
theorem first?_eq_some_iff : first? cs = some (token, after) ↔ Reads cs token after := by
  constructor
  · exact reads_of_first?
  · rintro ⟨⟨w, hw, rfl⟩, hnamed, hafter⟩
    have hclose := Quote.close?_eq_some_iff.2 ⟨w, hw, rfl, hafter⟩
    cases token with
    | text s =>
      rw [quote] at hclose ⊢
      rw [first?, if_pos rfl, hclose]
      rfl
    | name s =>
      have hs : s ≠ [] := fun h => hnamed (h ▸ rfl)
      rw [quote] at hclose ⊢
      rw [first?, if_neg (by decide), if_pos rfl, hclose]
      exact if_neg hs

end Token

namespace Quote

variable {s s' : String} {rest : List Char}

/-- No two texts are alike once their quotes are doubled. -/
theorem double_inj {q : Char} : double q s = double q s' ↔ s = s' := by
  constructor
  · intro h
    have hspelled : (double q s).toList ++ [q] = (double q s').toList ++ [q] := by rw [h]
    rw [double, double, String.toList_ofList, String.toList_ofList] at hspelled
    exact String.toList_inj.1
      ((spells_iff.2 rfl).unique (spells_iff.2 rfl) (by simp) (by simp) hspelled).1
  · rintro rfl
    rfl

theorem literal_inj : literal s = literal s' ↔ s = s' := by
  simp [literal, double_inj]

theorem identifier_inj : identifier s = identifier s' ↔ s = s' := by
  simp [identifier, double_inj]

theorem reads_literal_iff :
    Token.Reads ((literal s).toList ++ rest) (.text s.toList) rest ↔ rest.head? ≠ some '\'' := by
  rw [toList_literal_append]
  constructor
  · intro h
    exact h.ends
  · intro hrest
    exact ⟨⟨_, spells_iff.2 rfl, rfl⟩, Token.noConfusion, hrest⟩

theorem reads_identifier_iff :
    Token.Reads ((identifier s).toList ++ rest) (.name s.toList) rest ↔
      s ≠ "" ∧ rest.head? ≠ some '"' := by
  rw [toList_identifier_append]
  constructor
  · intro h
    exact ⟨fun hs => h.named (hs ▸ rfl), h.ends⟩
  · rintro ⟨hs, hrest⟩
    exact ⟨⟨_, spells_iff.2 rfl, rfl⟩, fun h => hs (String.toList_inj.1 (Token.name.inj h)), hrest⟩

/-- **What was quoted is one token**, with the value that was quoted, and all that
follows is left, unless it begins with the same quote. That holds of every text,
and of every name but the empty one. So different values are never quoted alike. -/
theorem first?_quoted (s : String) (rest : List Char) :
    (Token.first? ((literal s).toList ++ rest) = some (.text s.toList, rest) ↔
      rest.head? ≠ some '\'') ∧
    (Token.first? ((identifier s).toList ++ rest) = some (.name s.toList, rest) ↔
      s ≠ "" ∧ rest.head? ≠ some '"') ∧
    ∀ s' : String, (literal s = literal s' ↔ s = s') ∧ (identifier s = identifier s' ↔ s = s') := by
  rw [Token.first?_eq_some_iff, Token.first?_eq_some_iff]
  exact ⟨reads_literal_iff, reads_identifier_iff, fun _ => ⟨literal_inj, identifier_inj⟩⟩

/-- With the same quote behind it a literal does not end where it did. -/
example : Token.first? ((literal "a").toList ++ (literal "b").toList) =
    some (.text ['a', '\'', 'b'], []) := by decide

end Quote

end DeleteCascade
