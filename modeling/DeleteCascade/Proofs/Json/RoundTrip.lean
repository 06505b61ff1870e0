import DeleteCascade.Json.Printer
import DeleteCascade.Json.Reader
import DeleteCascade.Json.Record
import DeleteCascade.Proofs.Text.Numbers
import Mathlib
/-!
# JSON — what is written is read back

The text of a value is read back as the value (`parse?_render`), whatever
follows it that cannot be part of a number. Strings may hold any characters,
and numbers are those of integers.
-/

namespace DeleteCascade.Json

namespace Reader

/-! ## Strings -/

/-- The four digits that escape a control character name it. -/
theorem unit?_hexDigit {n : Nat} (h : n < 0x20) :
    unit? '0' '0' (Printer.hexDigit (n / 16)) (Printer.hexDigit n) = some n := by
  revert n
  decide

theorem pushUnit_of_lt {s : Spoken} {n : Nat} (hs : s.half = none) (h : n < 0x20) :
    s.pushUnit n = s.push (Char.ofNat n) := by
  unfold Spoken.pushUnit
  rw [hs]
  simp only [Bool.and_eq_true, decide_eq_true_eq]
  rw [if_neg (by omega), if_neg (by omega)]

/-- A character that was written is said next. -/
theorem string_char (s : Spoken) (hs : s.half = none) (c : Char) (rest : List Char) :
    string s ((Printer.char c).toList ++ rest) = string (s.push c) rest := by
  unfold Printer.char
  by_cases hquote : c = '"'
  · subst hquote
    rfl
  by_cases hslash : c = '\\'
  · subst hslash
    rfl
  by_cases hbreak : c = '\n'
  · subst hbreak
    rfl
  rw [if_neg hquote, if_neg hslash, if_neg hbreak]
  by_cases hcontrol : c.toNat < 0x20
  · rw [if_pos hcontrol, String.toList_append, String.toList_ofList, String.toList_ofList]
    change string s ('\\' :: 'u' :: '0' :: '0' :: _ :: _ :: rest) = _
    rw [string, unit?_hexDigit hcontrol]
    simp only
    rw [pushUnit_of_lt hs hcontrol, Char.ofNat_toNat]
  · rw [if_neg hcontrol]
    have htext : c.toString.toList = [c] := by simp
    rw [htext, List.singleton_append, string.eq_def]
    -- neither a quote nor a backslash, the character stands for itself
    split
    · simp_all
    · simp_all
    · simp_all
    · simp_all
    · rename_i heq
      obtain ⟨rfl, rfl⟩ := List.cons.inj heq
      rw [if_neg hcontrol]

/-- Nothing but characters that stand for themselves has been said. -/
def Spoken.of (cs : List Char) : Spoken := ⟨cs.reverse, none, true⟩

theorem push_of (cs : List Char) (c : Char) : (Spoken.of cs).push c = .of (cs ++ [c]) := by
  simp [Spoken.of, Spoken.push]

/-- The characters of a text are read up to its closing quote. -/
theorem string_chars (before cs : List Char) (rest : List Char) :
    string (.of before) (((cs.map Printer.char).flatMap String.toList) ++ '"' :: rest) =
      some (some (String.ofList (before ++ cs)), rest) := by
  induction cs generalizing before with
  | nil => simp [string, Spoken.of, Spoken.text?]
  | cons c cs ih =>
    rw [List.map_cons, List.flatMap_cons, List.append_assoc, string_char _ rfl, push_of, ih,
      List.append_assoc, List.singleton_append]

/-- **A text that was written is read back**, from its opening quote on. -/
theorem string_string (s : String) (rest : List Char) : ∃ cs,
    (Printer.string (some s)).toList = '"' :: cs ∧ string {} (cs ++ rest) = some (some s, rest) := by
  refine ⟨((s.toList.map Printer.char).flatMap String.toList) ++ ['"'], ?_, ?_⟩
  · simp [Printer.string, String.toList_append, String.toList_join]
  · have h := string_chars [] s.toList rest
    rw [List.nil_append, String.ofList_toList] at h
    rwa [List.append_assoc, List.singleton_append]

/-! ## Numbers -/

/-- Something follows that cannot belong to a number. -/
def EndsNumber (rest : List Char) : Prop :=
  ∀ c ∈ rest.head?, c.isDigit = false ∧ c ≠ '.' ∧ c ≠ 'e' ∧ c ≠ 'E'

theorem EndsNumber.nil : EndsNumber [] := by simp [EndsNumber]

theorem EndsNumber.cons {c : Char} {rest : List Char} (h : c = ',' ∨ c = ']' ∨ c = '}') :
    EndsNumber (c :: rest) := by
  rcases h with rfl | rfl | rfl <;> simp [EndsNumber]

theorem digits_toDigits (n : Nat) {rest : List Char} (h : EndsNumber rest) :
    digits (Nat.toDigits 10 n ++ rest) = some (Nat.toDigits 10 n, rest) := by
  have hall : ∀ c ∈ Nat.toDigits 10 n, c.isDigit = true := fun c hc =>
    Nat.isDigit_of_mem_toDigits (by decide) (by decide) hc
  have hspan : (Nat.toDigits 10 n ++ rest).span Char.isDigit = (Nat.toDigits 10 n, rest) := by
    rw [List.span_eq_takeWhile_dropWhile, List.takeWhile_append_of_pos hall,
      List.dropWhile_append_of_pos hall]
    cases rest with
    | nil => simp
    | cons c rest =>
      have hc := (h c rfl).1
      simp [hc]
  unfold digits
  rw [hspan]
  split
  · rename_i heq
    exact absurd (congrArg Prod.fst heq) Nat.toDigits_ne_nil
  · rfl

/-- The digits of a number are read, and no more of them. -/
theorem whole_toDigits (n : Nat) {rest : List Char} (h : EndsNumber rest) :
    whole (Nat.toDigits 10 n ++ rest) = some (Nat.toDigits 10 n, rest) := by
  rcases Nat.eq_zero_or_pos n with rfl | hpos
  · rfl
  · rw [whole.eq_def]
    split
    · rename_i heq
      have hhead := congrArg List.head? heq
      rw [List.head?_append_of_ne_nil _ Nat.toDigits_ne_nil] at hhead
      exact absurd hhead (head_toDigits_ne_zero hpos)
    · exact digits_toDigits n h

theorem fraction_of_endsNumber {rest : List Char} (h : EndsNumber rest) :
    fraction rest = some ([], rest) := by
  cases rest with
  | nil => rfl
  | cons c rest =>
    have hc := (h c rfl).2.1
    rw [fraction.eq_def]
    split
    · simp_all
    · rfl

theorem exponent_of_endsNumber {rest : List Char} (h : EndsNumber rest) :
    exponent rest = some ([], rest) := by
  cases rest with
  | nil => rfl
  | cons c rest =>
    obtain ⟨-, -, hsmall, hbig⟩ := h c rfl
    simp [exponent, hsmall, hbig]

/-- **An integer that was written is read back.** -/
theorem number_toString (n : Int) {rest : List Char} (h : EndsNumber rest) :
    number ((toString n).toList ++ rest) = some (toString n, rest) := by
  rw [← String.ofList_toList (s := toString n)]
  cases n with
  | ofNat n =>
    have hminus (cs : List Char) : Nat.toDigits 10 n ++ rest ≠ '-' :: cs := by
      intro heq
      obtain ⟨d, ds, hdigits, hd⟩ := exists_toDigits_eq_cons n
      rw [hdigits] at heq
      obtain ⟨rfl, -⟩ := List.cons.inj heq
      exact absurd hd (by decide)
    rw [toList_toString_ofNat, String.toList_ofList]
    unfold number
    split
    rename_i heq
    split at heq
    · rename_i hcs
      exact absurd hcs (hminus _)
    · obtain ⟨rfl, rfl⟩ := Prod.mk.inj heq
      simp [whole_toDigits _ h, fraction_of_endsNumber h, exponent_of_endsNumber h]
  | negSucc n =>
    rw [toList_toString_negSucc, String.toList_ofList, List.cons_append]
    simp [number, whole_toDigits _ h, fraction_of_endsNumber h, exponent_of_endsNumber h]

/-! ## Values -/

theorem skip_cons {c : Char} {cs : List Char} (h : isSpace c = false) : skip (c :: cs) = c :: cs := by
  simp [skip, h]

theorem isSpace_of_isDigit {c : Char} (h : c.isDigit = true) : isSpace c = false := by
  simp only [isSpace, Bool.or_eq_false_iff, beq_eq_false_iff_ne]
  refine ⟨⟨⟨?_, ?_⟩, ?_⟩, ?_⟩ <;> rintro rfl <;> exact absurd h (by decide)

/-- Neither a sign nor a digit is a space. -/
theorem isSpace_of_number {c : Char} (h : c = '-' ∨ c.isDigit = true) : isSpace c = false := by
  rcases h with rfl | h
  · rfl
  · exact isSpace_of_isDigit h

theorem value_number (fuel : Nat) (n : Int) {rest : List Char} (h : EndsNumber rest) :
    value (fuel + 1) ((toString n).toList ++ rest) = some (.number (toString n), rest) := by
  have hread := number_toString n h
  obtain ⟨c, cs, htext, hc⟩ := exists_toString_eq_cons n
  rw [htext, List.cons_append] at hread ⊢
  rw [value, skip_cons (isSpace_of_number hc)]
  -- neither a sign nor a digit begins any other value
  split
  case h_7 => simp [hread]
  all_goals
    rename_i heq
    obtain ⟨rfl, -⟩ := List.cons.inj heq
    simp at hc

/-- **A value is read back** from its text, whatever follows that ends a
number. There is fuel for two levels with each character. -/
structure ReadsBack (v : Json) : Prop where
  starts : ∃ c cs, (Printer.value v).toList = c :: cs ∧ isSpace c = false ∧ c ≠ ']'
  reads : ∀ (fuel : Nat) (rest : List Char), 2 * (Printer.value v).toList.length ≤ fuel →
    EndsNumber rest → value fuel ((Printer.value v).toList ++ rest) = some (v, rest)

/-- Items that are read back one by one are read back in a row. -/
theorem elements_of_readsBack {items : List Json} (h : ∀ v ∈ items, ReadsBack v) (hne : items ≠ [])
    (rest : List Char) : ∀ fuel, 2 * (Printer.elements items).toList.length + 1 ≤ fuel →
      elements fuel ((Printer.elements items).toList ++ ']' :: rest) = some (items, rest) := by
  induction items with
  | nil => exact absurd rfl hne
  | cons v items ih =>
    have hv := h v List.mem_cons_self
    intro fuel hfuel
    obtain ⟨fuel, rfl⟩ : ∃ k, fuel = k + 1 := ⟨fuel - 1, by omega⟩
    rw [elements]
    -- a comma ends a number as well as the bracket does, so the item is read in both cases
    cases items with
    | nil =>
      rw [Printer.elements] at hfuel ⊢
      have hread := hv.reads fuel (']' :: rest) (by omega) (.cons (by simp))
      simp [hread, skip_cons (show isSpace ']' = false from rfl)]
    | cons w items =>
      have htext : (Printer.elements (v :: w :: items)).toList ++ ']' :: rest =
          (Printer.value v).toList ++
            ',' :: ((Printer.elements (w :: items)).toList ++ ']' :: rest) := by
        simp [Printer.elements]
      have hlength : (Printer.elements (v :: w :: items)).toList.length =
          (Printer.value v).toList.length + ((Printer.elements (w :: items)).toList.length + 1) := by
        simp [Printer.elements]
      have hread := hv.reads fuel (',' :: ((Printer.elements (w :: items)).toList ++ ']' :: rest))
        (by omega) (.cons (by simp))
      have hrest := ih (fun u hu => h u (List.mem_cons_of_mem _ hu)) (by simp) fuel (by omega)
      rw [htext]
      simp [hread, hrest, skip_cons (show isSpace ',' = false from rfl)]

/-- So are members whose keys are texts. -/
theorem members_of_readsBack {items : List (Option String × Json)}
    (hkeys : ∀ m ∈ items, m.1.isSome = true) (h : ∀ m ∈ items, ReadsBack m.2) (hne : items ≠ [])
    (rest : List Char) : ∀ fuel, 2 * (Printer.members items).toList.length + 1 ≤ fuel →
      members fuel ((Printer.members items).toList ++ '}' :: rest) = some (items, rest) := by
  induction items with
  | nil => exact absurd rfl hne
  | cons m items ih =>
    obtain ⟨key, v⟩ := m
    obtain ⟨k, rfl⟩ := Option.isSome_iff_exists.1 (hkeys _ List.mem_cons_self)
    have hv : ReadsBack v := h _ List.mem_cons_self
    intro fuel hfuel
    obtain ⟨fuel, rfl⟩ : ∃ k, fuel = k + 1 := ⟨fuel - 1, by omega⟩
    rw [members]
    cases items with
    | nil =>
      obtain ⟨cs, hcs, hkey⟩ := string_string k (':' :: ((Printer.value v).toList ++ '}' :: rest))
      have htext : (Printer.members [(some k, v)]).toList ++ '}' :: rest =
          '"' :: (cs ++ ':' :: ((Printer.value v).toList ++ '}' :: rest)) := by
        simp [Printer.members, hcs]
      have hlength : (Printer.value v).toList.length <
          (Printer.members [(some k, v)]).toList.length := by
        simp [Printer.members, hcs]
        omega
      have hread := hv.reads fuel ('}' :: rest) (by omega) (.cons (by simp))
      rw [htext, skip_cons rfl]
      simp [hkey, hread, skip_cons (show isSpace ':' = false from rfl),
        skip_cons (show isSpace '}' = false from rfl)]
    | cons m items =>
      obtain ⟨cs, hcs, hkey⟩ := string_string k
        (':' :: ((Printer.value v).toList ++ ',' :: ((Printer.members (m :: items)).toList ++
          '}' :: rest)))
      have htext : (Printer.members ((some k, v) :: m :: items)).toList ++ '}' :: rest =
          '"' :: (cs ++ ':' :: ((Printer.value v).toList ++
            ',' :: ((Printer.members (m :: items)).toList ++ '}' :: rest))) := by
        simp [Printer.members, hcs]
      have hlength : (Printer.value v).toList.length + (Printer.members (m :: items)).toList.length <
          (Printer.members ((some k, v) :: m :: items)).toList.length := by
        simp [Printer.members, hcs]
        omega
      have hread := hv.reads fuel (',' :: ((Printer.members (m :: items)).toList ++ '}' :: rest))
        (by omega) (.cons (by simp))
      have hrest := ih (fun u hu => hkeys u (List.mem_cons_of_mem _ hu))
        (fun u hu => h u (List.mem_cons_of_mem _ hu)) (by simp) fuel (by omega)
      rw [htext, skip_cons rfl]
      simp [hkey, hread, hrest, skip_cons (show isSpace ':' = false from rfl),
        skip_cons (show isSpace ',' = false from rfl)]

theorem ReadsBack.of_eq_cons {v : Json} {c : Char} {cs : List Char}
    (htext : (Printer.value v).toList = c :: cs) (hspace : isSpace c = false) (hclose : c ≠ ']')
    (hread : ∀ (fuel : Nat) (rest : List Char), 2 * cs.length + 1 ≤ fuel → EndsNumber rest →
      value (fuel + 1) (c :: (cs ++ rest)) = some (v, rest)) : ReadsBack v := by
  refine ⟨⟨c, cs, htext, hspace, hclose⟩, fun fuel rest hfuel hrest => ?_⟩
  rw [htext, List.length_cons] at hfuel
  obtain ⟨fuel, rfl⟩ : ∃ k, fuel = k + 1 := ⟨fuel - 1, by omega⟩
  rw [htext]
  exact hread fuel rest (by omega) hrest

theorem readsBack_null : ReadsBack .null := by
  have htext : (Printer.value .null).toList = ['n', 'u', 'l', 'l'] := rfl
  exact .of_eq_cons htext rfl (by decide) fun _ _ _ _ => rfl

theorem readsBack_bool (b : Bool) : ReadsBack (.bool b) := by
  cases b with
  | false =>
    have htext : (Printer.value (.bool false)).toList = ['f', 'a', 'l', 's', 'e'] := rfl
    exact .of_eq_cons htext rfl (by decide) fun _ _ _ _ => rfl
  | true =>
    have htext : (Printer.value (.bool true)).toList = ['t', 'r', 'u', 'e'] := rfl
    exact .of_eq_cons htext rfl (by decide) fun _ _ _ _ => rfl

theorem readsBack_int (n : Int) : ReadsBack (.int n) := by
  obtain ⟨c, cs, htext, hc⟩ := exists_toString_eq_cons n
  have hclose : c ≠ ']' := by
    rintro rfl
    simp at hc
  refine .of_eq_cons htext (isSpace_of_number hc) hclose fun fuel rest _ hrest => ?_
  have hread := value_number fuel n hrest
  rwa [htext] at hread

theorem readsBack_text (s : String) : ReadsBack (.text s) := by
  obtain ⟨cs, htext, -⟩ := string_string s []
  refine .of_eq_cons htext rfl (by decide) fun fuel rest _ _ => ?_
  obtain ⟨cs', htext', hread⟩ := string_string s rest
  obtain rfl : cs' = cs := (List.cons.inj (htext'.symm.trans htext)).2
  rw [value, skip_cons rfl]
  simp [hread, Json.text]

theorem readsBack_array {items : List Json} (h : ∀ v ∈ items, ReadsBack v) :
    ReadsBack (.array items) := by
  have htext : (Printer.value (.array items)).toList =
      '[' :: ((Printer.elements items).toList ++ [']']) := by
    simp [Printer.value]
  refine .of_eq_cons htext rfl (by decide) fun fuel rest hfuel _ => ?_
  cases items with
  | nil => rfl
  | cons v items =>
    obtain ⟨c, cs, hv, hspace, hclose⟩ := (h v List.mem_cons_self).starts
    obtain ⟨cs', hcs'⟩ : ∃ cs', (Printer.elements (v :: items)).toList = c :: cs' := by
      cases items <;> simp [Printer.elements, hv]
    have hread := elements_of_readsBack h (by simp) rest fuel (by simp at hfuel ⊢; omega)
    rw [hcs', List.cons_append] at hread
    rw [value, skip_cons rfl, List.append_assoc, hcs', List.singleton_append, List.cons_append]
    simp only [skip_cons hspace]
    split
    · rename_i heq
      exact absurd (List.cons.inj heq).1 hclose
    · simp [hread]

theorem readsBack_object {items : List (Option String × Json)}
    (hkeys : ∀ m ∈ items, m.1.isSome = true) (h : ∀ m ∈ items, ReadsBack m.2) :
    ReadsBack (.object items) := by
  have htext : (Printer.value (.object items)).toList =
      '{' :: ((Printer.members items).toList ++ ['}']) := by
    simp [Printer.value]
  refine .of_eq_cons htext rfl (by decide) fun fuel rest hfuel _ => ?_
  cases items with
  | nil => rfl
  | cons m items =>
    obtain ⟨cs, hcs⟩ : ∃ cs, (Printer.members (m :: items)).toList = '"' :: cs := by
      cases items <;> simp [Printer.members, Printer.string]
    have hread := members_of_readsBack hkeys h (by simp) rest fuel (by simp at hfuel ⊢; omega)
    rw [hcs, List.cons_append] at hread
    rw [value, skip_cons rfl, List.append_assoc, hcs, List.singleton_append, List.cons_append]
    simp [skip_cons (show isSpace '"' = false from rfl), hread]

end Reader

/-- A value whose strings are texts and whose numbers are integers. -/
inductive Plain : Json → Prop
  | null : Plain .null
  | bool (b : Bool) : Plain (.bool b)
  | int (n : Int) : Plain (.int n)
  | text (s : String) : Plain (.text s)
  | array {items : List Json} (h : ∀ v ∈ items, Plain v) : Plain (.array items)
  | object {items : List (Option String × Json)} (hkeys : ∀ m ∈ items, m.1.isSome = true)
      (h : ∀ m ∈ items, Plain m.2) : Plain (.object items)

theorem Plain.readsBack {v : Json} (h : Plain v) : Reader.ReadsBack v := by
  induction h with
  | null => exact Reader.readsBack_null
  | bool b => exact Reader.readsBack_bool b
  | int n => exact Reader.readsBack_int n
  | text s => exact Reader.readsBack_text s
  | array _ ih => exact Reader.readsBack_array ih
  | object hkeys _ ih => exact Reader.readsBack_object hkeys ih

/-- **What is written is read back.** -/
theorem parse?_render {v : Json} (h : Plain v) : parse? (render v) = some v := by
  have hread := h.readsBack.reads (2 * (render v).toList.length + 2) [] (by simp [render]) .nil
  rw [List.append_nil] at hread
  unfold parse?
  simp only [render] at hread ⊢
  rw [hread]
  rfl

/-- An integer that was written is taken for that integer. -/
theorem integer?_int (n : Int) : (int n).integer? = some n := by
  have hread : (toString n).toInt? = some n := Int.toInt?_repr n
  simp only [int, integer?, if_neg (toString_ne_negativeZero n), hread]

/-- One of 32 bits is taken for one. -/
theorem int32?_int {n : Int} (h : -2147483648 ≤ n ∧ n ≤ 2147483647) :
    (int n).int32? = some n := by
  simp only [int32?, integer?_int, if_pos h]

end DeleteCascade.Json
