import DeleteCascade.Proofs.Text.Numbers
import DeleteCascade.Script.Sql
import Mathlib.Data.List.Basic
/-!
# Scripts — the words of a text

Which local variables a written text names, by its words. A text is put
together of fixed pieces, names and variables; as long as the pieces are held
apart from one another, a variable that stands in the text stands in one of
them (`NamesOnly.append`). `Finished` texts may be followed by anything.
-/

namespace DeleteCascade

/-! ## Words -/

/-- Letters, digits and underscores make up words. -/
def isWordChar (c : Char) : Bool := c.isAlphanum || c == '_'

/-- The words of a text: its longest runs of word characters. -/
def words (cs : List Char) : List (List Char) :=
  (cs.splitOnP fun c => !isWordChar c).filter fun w => !w.isEmpty

@[simp] theorem words_nil : words [] = [] := rfl

/-- **Words end where another character stands.** -/
theorem words_append_cons {a b : List Char} {c : Char} (h : isWordChar c = false) :
    words (a ++ c :: b) = words a ++ words b := by
  unfold words
  rw [List.splitOnP_append_cons _ _ (by simpa using h), List.filter_append]

theorem words_cons {c : Char} {cs : List Char} (h : isWordChar c = false) :
    words (c :: cs) = words cs := by
  simpa using words_append_cons (a := []) (b := cs) h

/-- Word characters alone are one word. -/
theorem words_of_all {w : List Char} (h : ∀ c ∈ w, isWordChar c = true) (hne : w ≠ []) :
    words w = [w] := by
  unfold words
  rw [List.splitOnP_eq_singleton]
  · simp [hne]
  · simpa using h

/-- A word is made of the characters of its text. -/
theorem mem_of_mem_words {cs w : List Char} {c : Char} (hw : w ∈ words cs) (hc : c ∈ w) :
    c ∈ cs := by
  have hpiece : w ∈ cs.splitOnP fun c => !isWordChar c := (List.mem_filter.1 hw).1
  clear hw
  induction cs generalizing w with
  | nil =>
    obtain rfl : w = [] := by simpa using hpiece
    exact hc
  | cons d cs ih =>
    rw [List.splitOnP_cons_eq_if_modifyHead] at hpiece
    obtain ⟨first, rest, hsplit⟩ :=
      List.exists_cons_of_ne_nil (List.splitOnP_ne_nil (fun c => !isWordChar c) cs)
    rw [hsplit] at hpiece ih
    -- the first character ends an empty word or belongs to the first one
    split at hpiece
    · rcases List.mem_cons.1 hpiece with rfl | hpiece
      · simp at hc
      · exact List.mem_cons_of_mem _ (ih hc hpiece)
    · rw [List.modifyHead_cons] at hpiece
      rcases List.mem_cons.1 hpiece with rfl | hpiece
      · rcases List.mem_cons.1 hc with rfl | hc
        · exact List.mem_cons_self
        · exact List.mem_cons_of_mem _ (ih hc List.mem_cons_self)
      · exact List.mem_cons_of_mem _ (ih hc (List.mem_cons_of_mem _ hpiece))

/-! ## Texts held apart -/

/-- No word of the text goes on after it. -/
def EndsApart (s : String) : Prop := ∀ c ∈ s.toList.getLast?, isWordChar c = false

/-- No word goes on into the text: another character is its first. -/
inductive StartsApart : String → Prop
  | literal {c : Char} {cs : List Char} (h : isWordChar c = false) :
      StartsApart (String.ofList (c :: cs))
  | shown {a : String} (h : StartsApart a) : StartsApart (toString a)
  | append {a : String} (h : StartsApart a) (b : String) : StartsApart (a ++ b)

theorem StartsApart.exists_cons {s : String} (h : StartsApart s) :
    ∃ c cs, s.toList = c :: cs ∧ isWordChar c = false := by
  induction h with
  | literal h => exact ⟨_, _, String.toList_ofList, h⟩
  | shown _ ih => exact ih
  | append _ b ih =>
    obtain ⟨c, cs, ha, hc⟩ := ih
    exact ⟨c, cs ++ b.toList, by rw [String.toList_append, ha, List.cons_append], hc⟩

theorem EndsApart.append {a b : String} (ha : EndsApart a) (hb : EndsApart b) :
    EndsApart (a ++ b) := by
  unfold EndsApart at ha hb ⊢
  rw [String.toList_append]
  intro c hc
  rcases List.eq_nil_or_concat' b.toList with hnil | ⟨front, d, hlast⟩
  · rw [hnil, List.append_nil] at hc
    exact ha c hc
  · rw [hlast] at hb hc
    rw [← List.append_assoc, List.getLast?_concat] at hc
    exact hb c (by rwa [List.getLast?_concat])

/-- The words of texts held apart are those of the one and of the other. -/
theorem words_append {a b : String} (h : EndsApart a ∨ StartsApart b) :
    words (a ++ b).toList = words a.toList ++ words b.toList := by
  rw [String.toList_append]
  -- either way there is a character at the seam at which the words are split
  rcases h with hends | hstarts
  · rcases List.eq_nil_or_concat' a.toList with hnil | ⟨front, c, hlast⟩
    · rw [hnil, words_nil, List.nil_append, List.nil_append]
    · have hc : isWordChar c = false := hends c (by rw [hlast, List.getLast?_concat]; rfl)
      rw [hlast, List.append_assoc, List.singleton_append, words_append_cons hc,
        words_append_cons hc, words_nil, List.append_nil]
  · obtain ⟨c, cs, hb, hc⟩ := hstarts.exists_cons
    rw [hb, words_append_cons hc, words_cons hc]

/-! ## Variables among the words -/

/-- The variable stands in a text as a word. -/
def Variable.StandsIn (v : Variable) (s : String) : Prop := v.name.toList ∈ words s.toList

instance (v : Variable) (s : String) : Decidable (v.StandsIn s) :=
  inferInstanceAs (Decidable (_ ∈ words s.toList))

example : (Variable.refIds 1).StandsIn "PERFORM f(ref_ids_1, 3);" ∧
    ¬ (Variable.refIds 1).StandsIn "PERFORM f(ref_ids_10, 3);" := by decide

theorem toList_name_refIds (slot : Nat) :
    (Variable.refIds slot).name.toList = "ref_ids_".toList ++ Nat.toDigits 10 slot := by
  have hname : (Variable.refIds slot).name = "ref_ids_" ++ toString slot := rfl
  rw [hname, String.toList_append]
  simp

/-- Different variables have different names. -/
theorem Variable.eq_of_name {v w : Variable} (h : v.name.toList = w.name.toList) : v = w := by
  cases v with
  | refIds slot =>
    cases w with
    | refIds slot' =>
      rw [toList_name_refIds, toList_name_refIds] at h
      have hdigits : Nat.toDigits 10 slot = Nat.toDigits 10 slot' := List.append_cancel_left h
      rw [← Nat.ofDigitChars_ten_toDigits (n := slot), hdigits, Nat.ofDigitChars_ten_toDigits]
    | _ =>
      rw [toList_name_refIds] at h
      simp [Variable.name] at h
  | _ =>
    cases w with
    | refIds slot =>
      rw [toList_name_refIds] at h
      simp [Variable.name] at h
    | _ => first | rfl | exact absurd h (by decide)

theorem isWordChar_of_mem_toDigits {n : Nat} {c : Char} (h : c ∈ Nat.toDigits 10 n) :
    isWordChar c = true := by
  have hdigit : c.isDigit = true := Nat.isDigit_of_mem_toDigits (by decide) (by decide) h
  simp [isWordChar, Char.isAlphanum, hdigit]

/-- The name of a variable is one word. -/
theorem words_name (v : Variable) : words v.name.toList = [v.name.toList] := by
  cases v with
  | refIds slot =>
    rw [toList_name_refIds]
    refine words_of_all (fun c hc => ?_) (by simp)
    rcases List.mem_append.1 hc with hc | hc
    · have hstem : "ref_ids_".toList.all isWordChar = true := by decide
      exact List.all_eq_true.1 hstem c hc
    · exact isWordChar_of_mem_toDigits hc
  | _ => decide

/-- Whether a word may be the name of a variable. -/
def isVariableLike (w : List Char) : Bool :=
  w == ['r', 'e', 'c'] || w.tails.any (['_', 'i', 'd', 's'].isPrefixOf ·)

theorem isVariableLike_name (v : Variable) : isVariableLike v.name.toList = true := by
  cases v with
  | refIds slot =>
    rw [toList_name_refIds]
    simp [isVariableLike]
  | _ => decide

/-! ## What a text may name -/

/-- **The text names no variable but these**, apart from what stands in one of
the names put into it. -/
def NamesOnly (vs : List Variable) (names : List String) (s : String) : Prop :=
  ∀ v : Variable, v.StandsIn s → v ∈ vs ∨ ∃ n ∈ names, v.StandsIn n

/-- So does the text, and none of its words goes on after it. -/
structure Finished (vs : List Variable) (names : List String) (s : String) : Prop where
  ends : EndsApart s
  only : NamesOnly vs names s

section Texts

variable {vs : List Variable} {names : List String} {a b n : String} {v : Variable}

namespace NamesOnly

theorem mono {vs' : List Variable} (h : NamesOnly vs names a) (hvs : ∀ v ∈ vs, v ∈ vs') :
    NamesOnly vs' names a :=
  fun v hv => (h v hv).imp_left (hvs v)

theorem name (h : n ∈ names) : NamesOnly vs names n := fun _ hv => Or.inr ⟨n, h, hv⟩

theorem var (h : v ∈ vs) : NamesOnly vs names v.name := by
  intro w hw
  unfold Variable.StandsIn at hw
  rw [words_name, List.mem_singleton] at hw
  exact Or.inl (Variable.eq_of_name hw ▸ h)

/-- **A variable that stands in a text stands in a part of it** if the parts are
held apart. -/
theorem append (ha : NamesOnly vs names a) (hb : NamesOnly vs names b)
    (h : EndsApart a ∨ StartsApart b) : NamesOnly vs names (a ++ b) := by
  intro v hv
  unfold Variable.StandsIn at hv
  rw [words_append h, List.mem_append] at hv
  rcases hv with hv | hv
  · exact ha v hv
  · exact hb v hv

/-- Fixed words that are not like variables name none. -/
theorem literal {cs : List Char} (h : (words cs).all (!isVariableLike ·) = true) :
    NamesOnly vs names (String.ofList cs) := by
  intro v hv
  unfold Variable.StandsIn at hv
  rw [String.toList_ofList] at hv
  have hno := List.all_eq_true.1 h _ hv
  rw [isVariableLike_name] at hno
  cases hno

/-- A text of digits and signs names no variable. -/
theorem of_digits (h : ∀ c ∈ a.toList, c = '-' ∨ c.isDigit = true) : NamesOnly vs names a := by
  intro v hv
  -- every variable has a letter in its name
  have hletter : v.name.toList.any (fun c => !(c == '-' || c.isDigit)) = true := by
    cases v with
    | refIds slot => exact List.any_eq_true.2 ⟨'r', by simp [toList_name_refIds], rfl⟩
    | _ => decide
  obtain ⟨c, hc, hno⟩ := List.any_eq_true.1 hletter
  rcases h c (mem_of_mem_words hv hc) with rfl | hdigit
  · cases hno
  · simp [hdigit] at hno

end NamesOnly

/-- Numbers name no variable. -/
theorem NamesOnly.nat (k : Nat) : NamesOnly vs names (toString k) := by
  refine .of_digits fun c hc => Or.inr ?_
  exact Nat.isDigit_of_mem_toDigits (b := 10) (n := k) (by decide) (by decide) (by simpa using hc)

theorem NamesOnly.int (k : Int) : NamesOnly vs names (toString k) := by
  refine .of_digits fun c hc => ?_
  cases k with
  | ofNat k =>
    rw [toList_toString_ofNat] at hc
    exact Or.inr (Nat.isDigit_of_mem_toDigits (by decide) (by decide) hc)
  | negSucc k =>
    rw [toList_toString_negSucc, List.mem_cons] at hc
    exact hc.imp_right fun hc => Nat.isDigit_of_mem_toDigits (by decide) (by decide) hc

/-- Nor does a word with a number that is none of a captured column. -/
theorem NamesOnly.ref (slot : Nat) : NamesOnly vs names ("ref_" ++ toString slot) := by
  intro v hv
  have hchars : ∀ c ∈ "ref_".toList ++ Nat.toDigits 10 slot, isWordChar c = true := by
    have hstem : "ref_".toList.all isWordChar = true := by decide
    intro c hc
    rcases List.mem_append.1 hc with hc | hc
    · exact List.all_eq_true.1 hstem c hc
    · exact isWordChar_of_mem_toDigits hc
  unfold Variable.StandsIn at hv
  have htext : ("ref_" ++ toString slot).toList = "ref_".toList ++ Nat.toDigits 10 slot := by
    rw [String.toList_append]
    simp
  rw [htext, words_of_all hchars (by simp), List.mem_singleton] at hv
  cases v with
  | refIds slot' =>
    rw [toList_name_refIds] at hv
    -- behind the first four characters stands a letter in the one and a digit in the other
    have hsame : "ref_".toList ++ 'i' :: 'd' :: 's' :: '_' :: Nat.toDigits 10 slot' =
        "ref_".toList ++ Nat.toDigits 10 slot := by
      simpa using hv
    have hi : 'i' ∈ Nat.toDigits 10 slot := List.append_cancel_left hsame ▸ List.mem_cons_self
    have hdigit : 'i'.isDigit = true := Nat.isDigit_of_mem_toDigits (by decide) (by decide) hi
    cases hdigit
  | _ => simp [Variable.name] at hv

namespace Finished

theorem empty : Finished vs names "" where
  ends := by simp [EndsApart]
  only v hv := by simp [Variable.StandsIn] at hv

theorem append (ha : Finished vs names a) (hb : Finished vs names b) : Finished vs names (a ++ b) :=
  ⟨ha.ends.append hb.ends, ha.only.append hb.only (Or.inl ha.ends)⟩

/-- A word may stand before a text that it cannot go on into. -/
theorem after (ha : NamesOnly vs names a) (hstart : StartsApart b) (hb : Finished vs names b) :
    Finished vs names (a ++ b) := by
  refine ⟨?_, ha.append hb.only (Or.inr hstart)⟩
  obtain ⟨c, cs, htext, -⟩ := hstart.exists_cons
  have hends := hb.ends
  unfold EndsApart at hends ⊢
  -- the second text is not empty, so the last character is one of its own
  rw [String.toList_append, List.getLast?_append_of_ne_nil _ (by simp [htext])]
  exact hends

theorem mono (h : Finished [] [] a) : Finished vs names a :=
  ⟨h.ends, fun v hv => by simpa using h.only v hv⟩

theorem literal {cs : List Char}
    (h : ((words cs).all (!isVariableLike ·) && cs.getLast?.all (!isWordChar ·)) = true) :
    Finished vs names (String.ofList cs) := by
  obtain ⟨hwords, hlast⟩ := Bool.and_eq_true_iff.1 h
  refine ⟨fun c hc => ?_, .literal hwords⟩
  rw [String.toList_ofList] at hc
  rw [hc] at hlast
  simpa using hlast

end Finished

end Texts

/-! ## Texts of SQL -/

/-- Texts in a row are written one after the other. -/
theorem Spelling.render_concat (p : Spelling) (parts : List Sql) :
    p.render (.concat parts) = String.join (parts.map p.render) := by
  unfold Sql.concat
  induction parts with
  | nil => rfl
  | cons part parts ih => rw [List.foldr_cons, Spelling.render, ih, List.map_cons, String.join_cons]

section Rendering

variable {p : Spelling} {vs : List Variable} {names : List String}
variable {a c n separator : String} {part : Sql} {parts : List Sql} {v : Variable}

/-- A name in the middle of a text. -/
theorem Finished.around (ha : Finished vs names a) (hn : n ∈ names) (hstart : StartsApart c)
    (hc : Finished vs names c) : Finished vs names (a ++ toString n ++ toString c) := by
  rw [String.append_assoc]
  exact ha.append (.after (.name hn) hstart hc)

/-- Texts that are told apart by what stands between them. -/
theorem NamesOnly.intercalate {texts : List String} (h : ∀ t ∈ texts, NamesOnly vs names t)
    (hsep : Finished vs names separator) (hstart : StartsApart separator) :
    NamesOnly vs names (separator.intercalate texts) := by
  induction texts with
  | nil => exact Finished.empty.only
  | cons t texts ih =>
    have ht := h t List.mem_cons_self
    cases texts with
    | nil => simpa using ht
    | cons u texts =>
      have hrest := ih fun t ht => h t (List.mem_cons_of_mem _ ht)
      rw [String.intercalate_cons_cons, String.append_assoc]
      exact ht.append (hsep.only.append hrest (Or.inl hsep.ends)) (Or.inr (hstart.append _))

/-- Texts that begin apart may be listed after a word. -/
theorem Finished.join_append {texts : List String}
    (h : ∀ t ∈ texts, NamesOnly vs names t ∧ StartsApart t) (hstart : StartsApart c)
    (hc : Finished vs names c) :
    StartsApart (String.join texts ++ c) ∧ Finished vs names (String.join texts ++ c) := by
  induction texts with
  | nil => simpa using ⟨hstart, hc⟩
  | cons t texts ih =>
    obtain ⟨ht, htstart⟩ := h t List.mem_cons_self
    obtain ⟨hrest, hfinished⟩ := ih fun t ht => h t (List.mem_cons_of_mem _ ht)
    rw [String.join_cons, String.append_assoc]
    exact ⟨htstart.append _, .after ht hrest hfinished⟩

namespace Finished

theorem nil : Finished vs names (p.render (.concat [])) := empty

/-- Finished texts are put together as they are. -/
theorem cons (h : Finished vs names (p.render part))
    (hrest : Finished vs names (p.render (.concat parts))) :
    Finished vs names (p.render (.concat (part :: parts))) :=
  h.append hrest

/-- Other texts, as names and variables, need one after them that begins
apart. -/
theorem cons_word (h : NamesOnly vs names (p.render part))
    (hstart : StartsApart (p.render (.concat parts)))
    (hrest : Finished vs names (p.render (.concat parts))) :
    Finished vs names (p.render (.concat (part :: parts))) :=
  .after h hstart hrest

theorem concat (h : ∀ part ∈ parts, Finished vs names (p.render part)) :
    Finished vs names (p.render (.concat parts)) := by
  induction parts with
  | nil => exact .nil
  | cons part parts ih =>
    exact .cons (h part List.mem_cons_self) (ih fun q hq => h q (List.mem_cons_of_mem _ hq))

theorem join {texts : List String} (h : ∀ t ∈ texts, Finished vs names t) :
    Finished vs names (String.join texts) := by
  induction texts with
  | nil => exact empty
  | cons t texts ih =>
    rw [String.join_cons]
    exact (h t List.mem_cons_self).append (ih fun u hu => h u (List.mem_cons_of_mem _ hu))

theorem separated (h : ∀ part ∈ parts, Finished vs names (p.render part))
    (hsep : Finished vs names separator) :
    Finished vs names (p.render (Sql.separated separator parts)) := by
  induction parts using Sql.separated.induct with
  | case1 => exact empty
  | case2 part => exact h part List.mem_cons_self
  | case3 part rest hrest ih =>
    have hparts := ih fun q hq => h q (List.mem_cons_of_mem _ hq)
    simp only [Sql.separated, Spelling.render]
    exact (h part List.mem_cons_self).append (hsep.append hparts)

end Finished

end Rendering

end DeleteCascade
