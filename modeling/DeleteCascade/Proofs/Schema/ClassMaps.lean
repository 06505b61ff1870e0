import DeleteCascade.Proofs.Schema.Descent
import Mathlib.Tactic.Tauto
/-!
# Links — the subtype that a class leads to

Where links form diamonds or loops, a class can be found under several direct
subtypes of a table, and a class map gives it to one of them: the first in the
order of the foreign keys that point at the table. Subtypes are entered one
after the other, and what is entered stays (`mem_of_foldlM_enterClasses`); they
are listed in the order of the foreign keys (`isFirst_subtypes_iff`). So a class
map is settled by the links alone (`mem_classMap_iff`).
-/

namespace DeleteCascade

/-- **The first of a list** with a property. -/
def IsFirst {α : Type} (p : α → Prop) (xs : List α) (x : α) : Prop :=
  ∃ before after, xs = before ++ x :: after ∧ p x ∧ ∀ y ∈ before, ¬ p y

section First

variable {α : Type} {p : α → Prop} {xs : List α} {x y : α}

theorem not_isFirst_nil : ¬ IsFirst p [] x := by
  rintro ⟨before, after, hsplit, -⟩
  simp at hsplit

theorem isFirst_cons : IsFirst p (y :: xs) x ↔ p y ∧ x = y ∨ ¬ p y ∧ IsFirst p xs x := by
  constructor
  · rintro ⟨before, after, hsplit, hx, hbefore⟩
    cases before with
    | nil =>
      cases hsplit
      exact Or.inl ⟨hx, rfl⟩
    | cons z before =>
      cases hsplit
      obtain ⟨hy, hbefore⟩ := List.forall_mem_cons.1 hbefore
      exact Or.inr ⟨hy, before, after, rfl, hx, hbefore⟩
  · rintro (⟨hy, rfl⟩ | ⟨hy, before, after, rfl, hx, hbefore⟩)
    · exact ⟨[], xs, rfl, hy, by simp⟩
    · exact ⟨y :: before, after, rfl, hx, List.forall_mem_cons.2 ⟨hy, hbefore⟩⟩

theorem isFirst_concat :
    IsFirst p (xs ++ [y]) x ↔ IsFirst p xs x ∨ (∀ z ∈ xs, ¬ p z) ∧ p y ∧ x = y := by
  induction xs with
  | nil =>
    rw [List.nil_append, isFirst_cons]
    simp [not_isFirst_nil]
  | cons z xs ih =>
    rw [List.cons_append, isFirst_cons, isFirst_cons, ih, List.forall_mem_cons]
    tauto

end First

namespace Schema

variable {g : Schema} {t u v w : TableName} {c : Int} {m m' : ClassMap} {fk : ForeignKey}
variable {us found found' : List TableName}

/-! ## One subtype after the other -/

/-- Entering the classes of one subtype gives it those that are found under it
and are not there yet. -/
theorem mem_of_enterClasses (hm : m.Sorted) (h : g.enterClasses t m u = .ok m') :
    (c, v) ∈ m' ↔ (c, v) ∈ m ∨ (∀ w, (c, w) ∉ m) ∧ g.FoundUnder t u c ∧ v = u := by
  obtain ⟨hold, hfound, hnew⟩ := enterClasses_eq_ok h
  constructor
  · intro hmem
    by_cases hthere : ∃ w, (c, w) ∈ m
    · obtain ⟨w, hw⟩ := hthere
      obtain rfl := ClassMap.Sorted.eq_of_mem (hm.enterClasses h) hmem (hold hw)
      exact Or.inl hw
    · exact (hnew _ hmem).imp id fun ⟨hv, hc⟩ => ⟨not_exists.1 hthere, hc, hv⟩
  · rintro (hmem | ⟨habsent, hc, rfl⟩)
    · exact hold hmem
    · obtain ⟨w, hw⟩ := hfound c hc
      rcases hnew _ hw with hmem | ⟨heq, -⟩
      · exact absurd hmem (habsent w)
      · exact heq ▸ hw

/-- **A class that is not there yet goes to the first of the subtypes under which
it is found.** -/
theorem mem_of_foldlM_enterClasses (hm : m.Sorted) (h : us.foldlM (g.enterClasses t) m = .ok m') :
    (c, v) ∈ m' ↔
      (c, v) ∈ m ∨ (∀ w, (c, w) ∉ m) ∧ IsFirst (g.FoundUnder t · c) us v := by
  induction us generalizing m with
  | nil =>
    cases h
    simp [not_isFirst_nil]
  | cons u us ih =>
    rw [List.foldlM_cons] at h
    cases hstep : g.enterClasses t m u with
    | error e =>
      rw [hstep] at h
      cases h
    | ok next =>
      rw [hstep] at h
      have hmem {w : TableName} := mem_of_enterClasses (c := c) (v := w) hm hstep
      have habsent : (∀ w, (c, w) ∉ next) ↔ (∀ w, (c, w) ∉ m) ∧ ¬ g.FoundUnder t u c := by
        constructor
        · intro hnone
          have hold (w : TableName) : (c, w) ∉ m := fun hw => hnone w (hmem.2 (Or.inl hw))
          exact ⟨hold, fun hc => hnone u (hmem.2 (Or.inr ⟨hold, hc, rfl⟩))⟩
        · rintro ⟨hold, hc⟩ w hw
          rcases hmem.1 hw with hw | ⟨-, hc', -⟩
          · exact hold w hw
          · exact hc hc'
      rw [ih (hm.enterClasses hstep) h, hmem, habsent, isFirst_cons]
      tauto

/-! ## The order of the foreign keys -/

/-- **A foreign key makes a table a subtype** of the one it points at. -/
def MakesSubtype (g : Schema) (fk : ForeignKey) (u : TableName) : Prop :=
  ∃ r, g.resolve fk = .ok r ∧ g.isSubtypeLink r = .ok true ∧ r.child = u

theorem MakesSubtype.unique (hu : g.MakesSubtype fk u) (hv : g.MakesSubtype fk v) : u = v := by
  obtain ⟨r, hres, -, rfl⟩ := hu
  obtain ⟨r', hres', -, rfl⟩ := hv
  rw [hres] at hres'
  cases hres'
  rfl

variable {p : TableName → Prop}

/-- A subtype that is added comes last, and one that is there in some spelling
is not added. -/
theorem isFirst_of_addSubtype (hp : ∀ u v : TableName, u.same v → p u → p v)
    (h : g.addSubtype found fk = .ok found') :
    (IsFirst p found' u ↔
        IsFirst p found u ∨ (∀ v ∈ found, ¬ p v) ∧ p u ∧ g.MakesSubtype fk u) ∧
      ((∀ v ∈ found', ¬ p v) ↔
        (∀ v ∈ found, ¬ p v) ∧ ¬ ∃ v, g.MakesSubtype fk v ∧ p v) := by
  unfold addSubtype at h
  split at h
  · cases h
  · rename_i r hres
    split at h
    · cases h
    · rename_i link hlink
      cases h
      have hmakes (v : TableName) : g.MakesSubtype fk v ↔ link = true ∧ v = r.child := by
        simp [MakesSubtype, hres, hlink, eq_comm]
      simp only [hmakes]
      cases link with
      | false => simp
      | true =>
        cases hin : r.child.isIn found with
        | false =>
          simp only [Bool.not_false, Bool.and_self, if_true, true_and, exists_eq_left,
            List.forall_mem_append, List.forall_mem_singleton, isFirst_concat]
          exact ⟨or_congr_right (and_congr_right fun _ => and_congr_left fun heq => by rw [heq]),
            trivial⟩
        | true =>
          obtain ⟨w, hw, hsame⟩ := TableName.isIn_iff.1 hin
          have hnone (hold : ∀ v ∈ found, ¬ p v) : ¬ p r.child := fun hchild =>
            hold w hw (hp _ _ hsame hchild)
          simp only [Bool.not_true, Bool.and_false, Bool.false_eq_true, if_false, true_and,
            exists_eq_left]
          constructor
          · constructor
            · exact Or.inl
            · rintro (hfirst | ⟨hold, hchild, rfl⟩)
              · exact hfirst
              · exact absurd hchild (hnone hold)
          · exact ⟨fun hold => ⟨hold, hnone hold⟩, And.left⟩

/-- **The first subtype with a property**, in the order of the foreign keys that
make subtypes. -/
def FirstSubtype (g : Schema) (p : TableName → Prop) (fks : List ForeignKey) (u : TableName) :
    Prop :=
  ∃ fk, IsFirst (fun fk => ∃ v, g.MakesSubtype fk v ∧ p v) fks fk ∧ g.MakesSubtype fk u

theorem firstSubtype_cons {fks : List ForeignKey} : g.FirstSubtype p (fk :: fks) u ↔
    p u ∧ g.MakesSubtype fk u ∨
      (¬ ∃ v, g.MakesSubtype fk v ∧ p v) ∧ g.FirstSubtype p fks u := by
  unfold FirstSubtype
  simp only [isFirst_cons]
  constructor
  · rintro ⟨fk', ⟨⟨v, hv, hpv⟩, rfl⟩ | ⟨hnot, hrest⟩, hu⟩
    · exact Or.inl ⟨hv.unique hu ▸ hpv, hu⟩
    · exact Or.inr ⟨hnot, fk', hrest, hu⟩
  · rintro (⟨hpu, hu⟩ | ⟨hnot, fk', hrest, hu⟩)
    · exact ⟨fk, Or.inl ⟨⟨u, hu, hpu⟩, rfl⟩, hu⟩
    · exact ⟨fk', Or.inr ⟨hnot, hrest⟩, hu⟩

/-- **Subtypes are listed in the order of the foreign keys.** -/
theorem isFirst_subtypes_iff (hp : ∀ u v : TableName, u.same v → p u → p v)
    (h : g.subtypes t = .ok us) :
    IsFirst p us u ↔ g.FirstSubtype p (g.foreignKeysTo t) u := by
  have hall : ∀ (fks : List ForeignKey) (found found' : List TableName),
      fks.foldlM g.addSubtype found = .ok found' →
      (IsFirst p found' u ↔
        IsFirst p found u ∨ (∀ v ∈ found, ¬ p v) ∧ g.FirstSubtype p fks u) := by
    intro fks
    induction fks with
    | nil =>
      intro found found' h
      cases h
      simp [FirstSubtype, not_isFirst_nil]
    | cons fk fks ih =>
      intro found found' h
      rw [List.foldlM_cons] at h
      cases hstep : g.addSubtype found fk with
      | error e =>
        rw [hstep] at h
        cases h
      | ok next =>
        rw [hstep] at h
        obtain ⟨hfirst, hnone⟩ := isFirst_of_addSubtype (u := u) hp hstep
        rw [ih next found' h, hfirst, hnone, firstSubtype_cons]
        tauto
  rw [hall _ _ _ h]
  simp [not_isFirst_nil]

/-! ## Class maps -/

/-- A class map gives a class to the first subtype under which it is found. -/
theorem mem_classMap_iff (h : g.classMap t = .ok m) :
    (c, u) ∈ m ↔ g.FirstSubtype (g.FoundUnder t · c) (g.foreignKeysTo t) u := by
  unfold classMap at h
  split at h
  · cases h
  · rename_i subtypes hsubtypes
    rw [mem_of_foldlM_enterClasses List.Pairwise.nil h, ← isFirst_subtypes_iff ?_ hsubtypes]
    · simp
    · exact fun u v hsame hc => hc.congr hsame

/-- **A class map is exact**, however the links run. It holds the classes that
are listed at or below some direct subtype of the table, past the table itself,
each of them once; and it gives each to the first direct subtype, in the order of
the foreign keys that point at the table, at or below which it is listed. -/
theorem classMap_firstFound (h : g.classMap t = .ok m) :
    m.Sorted ∧
      (∀ c, c ∈ m.map Prod.fst ↔
        ∃ u w, g.DirectSubtype u t ∧ g.Descends [t] u w ∧ g.Stores w c) ∧
      ∀ c u, (c, u) ∈ m ↔ g.FirstSubtype (fun v => ∃ w, g.Descends [t] v w ∧ g.Stores w c)
        (g.foreignKeysTo t) u := by
  refine ⟨sorted_of_classMap h, fun c => ?_, fun c u => mem_classMap_iff h⟩
  obtain ⟨hheld, hfound⟩ := exists_mem_classMap h
  constructor
  · intro hc
    obtain ⟨⟨c, u⟩, hmem, rfl⟩ := List.mem_map.1 hc
    obtain ⟨hdirect, w, hw, hstores⟩ := hheld _ hmem
    exact ⟨u, w, hdirect, hw, hstores⟩
  · rintro ⟨u, w, hdirect, hw, hstores⟩
    obtain ⟨v, hmem⟩ := hfound u hdirect c ⟨w, hw, hstores⟩
    exact List.mem_map_of_mem hmem

/-- A table of which the key references the keys of other tables. -/
def partOf (name : String) (wholes : List String) (cls : Int) : Table :=
  wholes.foldl (fun d whole => d.addReference "id" whole "id" .noAction)
    { Table.empty ⟨"city", name⟩ with
      columns := [⟨"id", "bigint", false⟩], primaryKey := ["id"], classes := [cls] }

/-- Houses and shops are buildings, a workshop is both, and a building is in turn
a workshop: a diamond and a loop. -/
def roundabout : Schema :=
  ⟨"city", [partOf "building" ["workshop"] 1, partOf "house" ["building"] 2,
    partOf "shop" ["building"] 3, partOf "workshop" ["house", "shop"] 4], []⟩

/-- The workshops go to the houses, which come first, and the buildings to
nothing, though the loop leads back to them. -/
theorem classMap_firstFound_roundabout :
    roundabout.classMap ⟨"city", "building"⟩ =
        .ok [(2, ⟨"city", "house"⟩), (3, ⟨"city", "shop"⟩), (4, ⟨"city", "house"⟩)] ∧
      roundabout.FirstSubtype
        (fun v => ∃ w, roundabout.Descends [⟨"city", "building"⟩] v w ∧ roundabout.Stores w 4)
        (roundabout.foreignKeysTo ⟨"city", "building"⟩) ⟨"city", "house"⟩ ∧
      ¬ ∃ u w, roundabout.DirectSubtype u ⟨"city", "building"⟩ ∧
        roundabout.Descends [⟨"city", "building"⟩] u w ∧ roundabout.Stores w 1 := by
  have h : roundabout.classMap ⟨"city", "building"⟩ =
      .ok [(2, ⟨"city", "house"⟩), (3, ⟨"city", "shop"⟩), (4, ⟨"city", "house"⟩)] := by
    delta classMap enterClasses
    rw [← classesBelowFor_eq 6]
    rfl
  obtain ⟨-, hkeys, hfirst⟩ := classMap_firstFound h
  exact ⟨h, (hfirst 4 _).1 (by decide), fun hfound => absurd ((hkeys 1).2 hfound) (by decide)⟩

end Schema

end DeleteCascade
