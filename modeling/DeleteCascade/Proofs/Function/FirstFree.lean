import DeleteCascade.Proofs.Function.Names
/-!
# Names — the first that is free

For each table a namer goes through the base name and the names with the
numbers from one, and gives the first that is free. `Picks` says which one
that is, from the names taken alone, and it is one (`Picks.unique`). Calls
made one after the other are told by their answers (`Namer.answers`): what
is taken are the names answered so far (`taken_after`), so that the answers
never repeat a name, and a call that fails might as well not have been made
(`answers_firstFree`).
-/

namespace DeleteCascade

namespace Namer

variable {n n' : Namer} {base name table : String} {maxLength number : Nat}
variable {taken taken' : List String} {pick pick' : Option String}

/-! ## One call -/

/-- **The name with a number**: the number fills what the base, cut to some
room, leaves of the length. -/
def Numbered (base : String) (maxLength number : Nat) (name : String) : Prop :=
  ∃ room, 0 < room ∧ room + (toString number).length = maxLength ∧
    name = cut base room ++ toString number

theorem numbered?_eq_some_iff :
    numbered? base maxLength number = some name ↔ Numbered base maxLength number name := by
  constructor
  · intro h
    obtain ⟨hfits, hname⟩ := numbered?_eq_some h
    exact ⟨maxLength - (toString number).length, by omega, by omega, hname⟩
  · rintro ⟨room, hroom, hlength, rfl⟩
    have hcut : maxLength - (toString number).length = room := by omega
    unfold numbered?
    dsimp only
    rw [if_pos (by omega), hcut]

/-- **The first free name** for a base, where it and the numbers up to the
largest may be used; none if all of these names are taken. -/
inductive Picks (taken : List String) (base : String) (maxLength : Nat) : Option String → Prop
  | base (given : base ≠ "") (free : base ∉ taken) : Picks taken base maxLength (some base)
  | numbered {number : Nat} {name : String} (occupied : base = "" ∨ base ∈ taken)
      (positive : 1 ≤ number) (small : number ≤ maxNumber)
      (made : Numbered base maxLength number name) (free : name ∉ taken)
      (least : ∀ m name', 1 ≤ m → m < number → Numbered base maxLength m name' → name' ∈ taken) :
      Picks taken base maxLength (some name)
  | overflow (occupied : base = "" ∨ base ∈ taken)
      (full : ∀ m name', 1 ≤ m → m ≤ maxNumber → Numbered base maxLength m name' →
        name' ∈ taken) : Picks taken base maxLength none

/-- A number makes one name. -/
theorem Numbered.unique {name' : String} (h : Numbered base maxLength number name)
    (h' : Numbered base maxLength number name') : name = name' :=
  Option.some.inj ((numbered?_eq_some_iff.2 h).symm.trans (numbered?_eq_some_iff.2 h'))

/-- **There is one first free name.** -/
theorem Picks.unique (h : Picks taken base maxLength pick) (h' : Picks taken base maxLength pick') :
    pick = pick' := by
  cases h with
  | base given free =>
    cases h' with
    | base => rfl
    | numbered occupied => exact absurd occupied (by simp [given, free])
    | overflow occupied => exact absurd occupied (by simp [given, free])
  | @numbered number name occupied positive small made free least =>
    cases h' with
    | base given free => exact absurd occupied (by simp [given, free])
    | @numbered number' name' _ positive' _ made' free' least' =>
      rcases Nat.lt_trichotomy number number' with hlt | rfl | hlt
      · exact absurd (least' number name positive hlt made) free
      · rw [made.unique made']
      · exact absurd (least number' name' positive' hlt made') free'
    | overflow _ full => exact absurd (full number name positive small made) free
  | overflow occupied full =>
    cases h' with
    | base given free => exact absurd occupied (by simp [given, free])
    | @numbered number' name' _ positive' small' made' free' =>
      exact absurd (full number' name' positive' small' made') free'
    | overflow => rfl

/-- It matters which names are taken, and not in what order. -/
theorem Picks.congr (htaken : ∀ name, name ∈ taken ↔ name ∈ taken')
    (h : Picks taken base maxLength pick) : Picks taken' base maxLength pick := by
  cases h with
  | base given free => exact .base given (by rwa [← htaken])
  | numbered occupied positive small made free least =>
    exact .numbered (by rwa [← htaken]) positive small made (by rwa [← htaken])
      fun m name' hm hlt hname' => (htaken name').1 (least m name' hm hlt hname')
  | overflow occupied full =>
    exact .overflow (by rwa [← htaken]) fun m name' hm hle hname' =>
      (htaken name').1 (full m name' hm hle hname')

/-- **A namer finds the first free name.** -/
theorem picks_free? (n : Namer) (base : String) :
    Picks n.taken base n.maxLength (n.free? base) := by
  have htaken {m : Nat} {name' : String} (hmade : Numbered base n.maxLength m name')
      (hnone : ((numbered? base n.maxLength m).filter fun name => !n.taken.contains name) = none) :
      name' ∈ n.taken := by
    rw [numbered?_eq_some_iff.2 hmade] at hnone
    simpa using hnone
  unfold free?
  split
  · rename_i hfree
    simp only [Bool.and_eq_true, Bool.not_eq_true', String.isEmpty_eq_false_iff,
      List.contains_eq_mem, decide_eq_false_iff_not] at hfree
    exact .base hfree.1 hfree.2
  · rename_i hoccupied
    have hoccupied : base = "" ∨ base ∈ n.taken := by
      by_contra hnot
      rw [not_or] at hnot
      exact hoccupied (by simpa using hnot)
    cases hfind : (List.range' 1 maxNumber).findSome? fun number =>
        (numbered? base n.maxLength number).filter fun name => !n.taken.contains name with
    | none =>
      refine .overflow hoccupied fun m name' hm hle hmade => ?_
      exact htaken hmade (List.findSome?_eq_none_iff.1 hfind m (List.mem_range'_1.2 ⟨hm, by omega⟩))
    | some name =>
      obtain ⟨before, number, after, hrange, hnumber, hbefore⟩ :=
        List.findSome?_eq_some_iff.1 hfind
      obtain ⟨k, hk, rfl, hrest⟩ := List.range'_eq_append_iff.1 hrange
      obtain ⟨rfl, -, -⟩ := List.range'_eq_cons_iff.1 hrest.symm
      obtain ⟨hmade, hfree⟩ := Option.filter_eq_some_iff.1 hnumber
      refine .numbered hoccupied (by omega) ?_ (numbered?_eq_some_iff.1 hmade) (by simpa using hfree)
        fun m name' hm hlt hmade' => htaken hmade' (hbefore m (List.mem_range'_1.2 ⟨hm, by omega⟩))
      have hmem : 1 + k ∈ List.range' 1 maxNumber := by simp [hrange]
      have := (List.mem_range'_1.1 hmem).2
      omega

/-- A call gives the first free name, which is taken from then on. -/
theorem picks_of_assign (h : n.assign table = .ok (name, n')) :
    Picks n.taken (n.baseName table) n.maxLength (some name) ∧
      n' = { n with taken := name :: n.taken } := by
  unfold assign at h
  split at h
  · rename_i hfree
    cases h
    exact ⟨hfree ▸ n.picks_free? _, rfl⟩
  · cases h

/-- A call fails where no name is free. -/
theorem picks_of_assign_error {e : NameOverflow} (h : n.assign table = .error e) :
    Picks n.taken (n.baseName table) n.maxLength none ∧ e = ⟨table, n.maxLength⟩ := by
  unfold assign at h
  split at h
  · cases h
  · rename_i hfree
    cases h
    exact ⟨hfree ▸ n.picks_free? _, rfl⟩

/-- A name that is picked is one, and is short enough. -/
theorem Picks.fits (h : Picks taken base maxLength (some name)) (hbase : base.length ≤ maxLength) :
    name ≠ "" ∧ name.length ≤ maxLength := by
  cases h with
  | base given => exact ⟨given, hbase⟩
  | @numbered number _ _ _ _ made =>
    obtain ⟨room, -, hlength, rfl⟩ := made
    have hcut := length_cut_le base room
    have hdigits : 0 < (toString number).length := Nat.length_repr_pos
    rw [String.length_append]
    refine ⟨fun hempty => ?_, by omega⟩
    rw [← String.length_eq_zero_iff, String.length_append] at hempty
    omega

/-! ## Calls one after the other -/

/-- **The answers to calls made one after the other.** A call that fails
leaves the namer as it was. -/
def answers (n : Namer) : List String → List (Except NameOverflow String)
  | [] => []
  | table :: rest =>
    match n.assign table with
    | .ok (name, n') => .ok name :: n'.answers rest
    | .error e => .error e :: n.answers rest

/-- The namer after these calls. -/
def after (n : Namer) : List String → Namer
  | [] => n
  | table :: rest =>
    match n.assign table with
    | .ok (_, n') => n'.after rest
    | .error _ => n.after rest

/-- The names among the answers. -/
def given (answers : List (Except NameOverflow String)) : List String :=
  answers.filterMap (·.toOption)

theorem answers_append (n : Namer) (before tables : List String) :
    n.answers (before ++ tables) = n.answers before ++ (n.after before).answers tables := by
  induction before generalizing n with
  | nil => rfl
  | cons table before ih =>
    simp only [List.cons_append, answers, after]
    split <;> simp [ih]

/-- What is taken after some calls are the names answered and those taken
before. -/
theorem taken_after (n : Namer) (tables : List String) :
    n.after tables = { n with taken := (given (n.answers tables)).reverse ++ n.taken } := by
  induction tables generalizing n with
  | nil => rfl
  | cons table rest ih =>
    unfold after answers
    cases h : n.assign table with
    | error e => simpa [given, Except.toOption] using ih n
    | ok pair =>
      obtain ⟨name, n'⟩ := pair
      obtain ⟨-, rfl⟩ := picks_of_assign h
      simpa [given, Except.toOption] using ih { n with taken := name :: n.taken }

/-- Names are not given twice. -/
theorem nodup_taken_after (h : n.taken.Nodup) (tables : List String) :
    (n.after tables).taken.Nodup := by
  induction tables generalizing n with
  | nil => exact h
  | cons table rest ih =>
    unfold after
    split
    · rename_i name n' hassign
      obtain ⟨hfree, htaken⟩ := assign_eq_ok hassign
      exact ih (htaken ▸ List.nodup_cons.2 ⟨hfree, h⟩)
    · exact ih h

theorem fits_of_mem_given {tables : List String} (h : name ∈ given (n.answers tables)) :
    name ≠ "" ∧ name.length ≤ n.maxLength := by
  induction tables generalizing n with
  | nil => simp [given, answers] at h
  | cons table rest ih =>
    unfold answers at h
    cases hassign : n.assign table with
    | error e =>
      rw [hassign] at h
      exact ih (by simpa [given, Except.toOption] using h)
    | ok pair =>
      obtain ⟨first, n'⟩ := pair
      obtain ⟨hpicks, rfl⟩ := picks_of_assign hassign
      rw [hassign] at h
      have hor : name = first ∨
          name ∈ given (Namer.answers { n with taken := first :: n.taken } rest) := by
        simpa [given, Except.toOption] using h
      rcases hor with rfl | hrest
      · exact hpicks.fits (length_cut_le _ _)
      · have hfits := ih hrest
        exact hfits

/-- **Names are unique, bounded and first-free**, whatever calls are made and
however many of them fail. Each answer is the first free name or, exactly
where there is none, that the names ran out; what was answered before is all
that is taken, and without the calls that fail the other answers are the same.
The room for the base is what the number leaves of the length. -/
theorem answers_firstFree (stem : String) (maxLength : Nat) (tables : List String) :
    let n := new stem maxLength
    (given (n.answers tables)).Nodup ∧
      (∀ name ∈ given (n.answers tables), name ≠ "" ∧ name.length ≤ maxLength) ∧
      (∀ before table rest, tables = before ++ table :: rest → ∃ answer later,
        n.answers tables = n.answers before ++ answer :: later ∧
        (∀ pick, answer.toOption = pick ↔ Picks (given (n.answers before))
          (cut (lowercase stem ++ lowercase table) maxLength) maxLength pick) ∧
        ∀ e, answer = .error e →
          e = ⟨table, maxLength⟩ ∧ n.answers (before ++ rest) = n.answers before ++ later) ∧
      ∀ base number name,
        numbered? base maxLength number = some name ↔ Numbered base maxLength number name := by
  intro n
  refine ⟨?_, fun name hname => fits_of_mem_given hname, ?_, fun _ _ _ => numbered?_eq_some_iff⟩
  · have htaken := nodup_taken_after (n := n) List.nodup_nil tables
    rw [taken_after] at htaken
    exact (List.reverse_perm _).nodup_iff.1 (by simpa [n, new] using htaken)
  · rintro before table rest rfl
    have hafter := taken_after n before
    have hpicks {pick : Option String}
        (h : Picks (n.after before).taken ((n.after before).baseName table)
          (n.after before).maxLength pick) :
        Picks (given (n.answers before)) (cut (lowercase stem ++ lowercase table) maxLength)
          maxLength pick := by
      rw [hafter] at h
      exact h.congr (by simp [n, new])
    rw [answers_append, answers_append, answers]
    cases hassign : (n.after before).assign table with
    | ok pair =>
      obtain ⟨name, n'⟩ := pair
      have hname := hpicks (picks_of_assign hassign).1
      exact ⟨.ok name, _, rfl, fun pick => ⟨fun h => h ▸ hname, hname.unique⟩, nofun⟩
    | error e =>
      obtain ⟨hnone, rfl⟩ := picks_of_assign_error hassign
      have hnone := hpicks hnone
      refine ⟨.error _, _, rfl, fun pick => ⟨fun h => h ▸ hnone, hnone.unique⟩, ?_⟩
      rintro e ⟨⟩
      rw [hafter]
      exact ⟨rfl, rfl⟩

end Namer

end DeleteCascade
