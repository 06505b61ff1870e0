import DeleteCascade.Proofs.Schema.Links
import DeleteCascade.Synthesis.Body
import Mathlib.Logic.Relation
/-!
# Links — classes of objects

A supertype stores the class of its objects, and a class map tells which
subtype a class leads to. Each class is entered once
(`pairwise_of_classMap`), so two subtypes that share a class are the same
(`same_of_mem_classesOf`). The class is found in the topmost supertype,
which is reached from subtype to supertype (`isSubtype_of_topmost`).
-/

namespace DeleteCascade

namespace Schema

variable {g : Schema} {t u w : TableName} {m m' : ClassMap} {c : Int}

namespace ClassMap

/-- The classes are entered in ascending order. -/
def Sorted (m : ClassMap) : Prop := m.Pairwise fun a b => a.1 < b.1

theorem mem_insertNew {e : Int × TableName} (h : e ∈ insertNew c t m) : e = (c, t) ∨ e ∈ m := by
  induction m with
  | nil => simpa [insertNew] using h
  | cons a rest ih =>
    obtain ⟨d, u⟩ := a
    unfold insertNew at h
    split at h
    · simpa using h
    · split at h
      · exact Or.inr h
      · rcases List.mem_cons.1 h with rfl | h
        · exact Or.inr (by simp)
        · exact (ih h).imp id (List.mem_cons_of_mem _)

theorem Sorted.insertNew (h : m.Sorted) : (insertNew c t m).Sorted := by
  induction m with
  | nil => exact List.pairwise_singleton _ _
  | cons a rest ih =>
    obtain ⟨d, u⟩ := a
    obtain ⟨hfirst, hrest⟩ := List.pairwise_cons.1 h
    unfold ClassMap.insertNew
    split
    · rename_i hless
      refine List.pairwise_cons.2 ⟨fun e he => ?_, h⟩
      rcases List.mem_cons.1 he with rfl | he
      · exact hless
      · exact Int.lt_trans hless (hfirst e he)
    · split
      · exact h
      · rename_i hnotLess hne
        refine List.pairwise_cons.2 ⟨fun e he => ?_, ih hrest⟩
        rcases mem_insertNew he with rfl | he
        · show d < c
          omega
        · exact hfirst e he

theorem mem_classesOf : c ∈ m.classesOf t ↔ ∃ u, (c, u) ∈ m ∧ u.same t := by
  simp only [classesOf, List.mem_map, List.mem_filter, Prod.exists]
  constructor
  · rintro ⟨d, u, ⟨hmem, hsame⟩, rfl⟩
    exact ⟨u, hmem, hsame⟩
  · rintro ⟨u, hmem, hsame⟩
    exact ⟨c, u, ⟨hmem, hsame⟩, rfl⟩

theorem classesOf_congr (h : t.same u) : m.classesOf t = m.classesOf u := by
  simp only [classesOf, TableName.same_congr_right h]

/-- A class is entered with one table. -/
theorem Sorted.eq_of_mem (h : m.Sorted) (ht : (c, t) ∈ m) (hu : (c, u) ∈ m) : t = u := by
  have hsymm : Std.Symm fun a b : Int × TableName => a.1 ≠ b.1 := ⟨fun _ _ hab => hab.symm⟩
  by_contra hne
  exact (h.imp fun hless => Int.ne_of_lt hless).forall ht hu (by simpa using hne) rfl

/-- **A class leads to one table.** -/
theorem Sorted.same_of_mem_classesOf (h : m.Sorted) (ht : c ∈ m.classesOf t)
    (hu : c ∈ m.classesOf u) : t.same u := by
  obtain ⟨t', ht', hsame⟩ := mem_classesOf.1 ht
  obtain ⟨u', hu', hsame'⟩ := mem_classesOf.1 hu
  obtain rfl := h.eq_of_mem ht' hu'
  exact TableName.same_trans (TableName.same_symm hsame) hsame'

end ClassMap

theorem ClassMap.Sorted.enterClasses (h : m.Sorted) (hm : g.enterClasses t m u = .ok m') :
    m'.Sorted := by
  unfold Schema.enterClasses at hm
  split at hm
  · cases hm
  · rename_i classes hclasses
    cases hm
    clear hclasses
    induction classes generalizing m with
    | nil => exact h
    | cons c classes ih => exact ih h.insertNew

/-- **Each class is entered once.** -/
theorem sorted_of_classMap (h : g.classMap t = .ok m) : m.Sorted := by
  unfold classMap at h
  split at h
  · cases h
  · exact keeps_of_foldlM_ok (fun _ _ _ _ hm hstep => hm.enterClasses hstep) List.Pairwise.nil h

/-- Classes are looked for below a table in every spelling of those visited. -/
theorem classesBelow_congr {pending visited visited' : List TableName} {found : List Int}
    (h : ∀ t : TableName, t.isIn visited = t.isIn visited') :
    g.classesBelow pending visited found = g.classesBelow pending visited' found := by
  induction pending, visited, found using classesBelow.induct (g := g) generalizing visited' with
  | case1 visited found =>
    rw [classesBelow, classesBelow]
  | case2 visited found t rest hold ih =>
    rw [classesBelow, dif_pos hold, ih h]
    conv => rhs; rw [classesBelow, dif_pos (h t ▸ hold)]
  | case3 visited found t rest hnew hnone =>
    rw [classesBelow, dif_neg hnew]
    conv => rhs; rw [classesBelow, dif_neg (h t ▸ hnew)]
    split
    · rfl
    · rename_i hknown
      rw [hnone] at hknown
      cases hknown
  | case4 visited found t rest hnew table htable e hbelow =>
    rw [classesBelow, dif_neg hnew]
    conv => rhs; rw [classesBelow, dif_neg (h t ▸ hnew)]
    split
    · rfl
    · rw [hbelow]
  | case5 visited found t rest hnew table htable below hbelow ih =>
    have hcons (u : TableName) : u.isIn (t :: visited) = u.isIn (t :: visited') := by
      have hu := h u
      simp only [TableName.isIn, List.any_cons] at hu ⊢
      rw [hu]
    rw [classesBelow, dif_neg hnew]
    conv => rhs; rw [classesBelow, dif_neg (h t ▸ hnew)]
    split
    · rfl
    · rename_i hknown
      rw [htable] at hknown
      cases hknown
      rw [hbelow]
      exact ih hcons

/-- The search for classes, followed for some steps. -/
def classesBelowFor : Nat → Schema → List TableName → List TableName → List Int →
    Except LookupError (List Int)
  | 0, g, pending, visited, found => g.classesBelow pending visited found
  | _ + 1, _, [], _, found => .ok found
  | n + 1, g, t :: rest, visited, found =>
    if t.isIn visited then classesBelowFor n g rest visited found
    else
      match g.table? t with
      | none => .error (.unknownTable t.qualified)
      | some table =>
        match g.subtypes t with
        | .error e => .error e
        | .ok below => classesBelowFor n g (below ++ rest) (t :: visited) (found ++ table.classes)

/-- However long it is followed, the rest is a search again. -/
theorem classesBelowFor_eq (n : Nat) : classesBelowFor n = classesBelow := by
  funext g pending visited found
  induction n generalizing pending visited found with
  | zero => rfl
  | succ n ih =>
    cases pending with
    | nil => rw [classesBelowFor, classesBelow]
    | cons t rest =>
      rw [classesBelowFor, classesBelow]
      simp only [ih, dite_eq_ite]
      split
      · rfl
      · rcases g.subtypes t with e | below <;> dsimp only <;> split <;> split <;> simp_all

/-- One step of the search for classes. -/
theorem classesBelow_cons (t : TableName) (rest visited : List TableName) (found : List Int) :
    g.classesBelow (t :: rest) visited found =
      if t.isIn visited then g.classesBelow rest visited found
      else
        match g.table? t with
        | none => .error (.unknownTable t.qualified)
        | some table =>
          match g.subtypes t with
          | .error e => .error e
          | .ok below => g.classesBelow (below ++ rest) (t :: visited) (found ++ table.classes) := by
  conv => lhs; rw [← classesBelowFor_eq 1]
  rfl

/-- A table has one class map in all its spellings. -/
theorem classMap_congr (h : t.same u) : g.classMap t = g.classMap u := by
  have hsubtypes : g.subtypes t = g.subtypes u := by
    unfold subtypes
    rw [foreignKeysTo_congr h]
  have henter : g.enterClasses t = g.enterClasses u := by
    funext m w
    unfold enterClasses
    have hvisited (x : TableName) : x.isIn [t] = x.isIn [u] := by
      simp only [TableName.isIn, List.any_cons, List.any_nil, TableName.same_congr_right h]
    rw [classesBelow_congr hvisited]
  unfold classMap
  rw [hsubtypes, henter]

end Schema

namespace Setting

variable {σ : Setting} {t u : TableName} {classes : Schema.ClassMap} {subtypes : List TableName}

theorem mem_typedCases {case : SubtypeCase TableName} : case ∈ typedCases classes subtypes ↔
    case.callee ∈ subtypes ∧ case.classes = classes.classesOf case.callee ∧ case.classes ≠ [] := by
  unfold typedCases
  rw [List.mem_filterMap]
  constructor
  · rintro ⟨t, ht, h⟩
    split at h
    · cases h
    · rename_i hne
      cases h
      exact ⟨ht, rfl, by simpa using hne⟩
  · rintro ⟨hmem, heq, hne⟩
    refine ⟨case.callee, hmem, ?_⟩
    obtain ⟨cs, callee⟩ := case
    dsimp only at heq hne ⊢
    subst heq
    split
    · rename_i hnil
      exact absurd hnil hne
    · rfl

theorem mem_untyped : t ∈ untyped classes subtypes ↔ t ∈ subtypes ∧ classes.classesOf t = [] := by
  simp [untyped]

/-- A table is added in some spelling. -/
theorem isIn_addTable {tables : List TableName} : u.isIn (addTable tables t) ↔ u.isIn tables ∨ t.same u := by
  unfold addTable
  split
  · rename_i hin
    constructor
    · exact Or.inl
    · rintro (h | h)
      · exact h
      · rwa [← TableName.isIn_congr h]
  · simp [TableName.isIn, TableName.same_comm u t]

/-- **The tables that hold a reference with their whole key.** -/
theorem isIn_keyChildren {is : List Incoming} : u.isIn (keyChildren is) ↔
    ∃ i ∈ is, i.reference.childIsKey = true ∧ i.reference.child.same u := by
  unfold keyChildren
  have hall : ∀ (is : List Incoming) (tables : List TableName),
      u.isIn (is.foldl (fun ts i => addTable ts i.reference.child) tables) ↔
        u.isIn tables ∨ ∃ i ∈ is, i.reference.child.same u := by
    intro is
    induction is with
    | nil => simp
    | cons i is ih =>
      intro tables
      rw [List.foldl_cons, ih, isIn_addTable]
      simp only [List.mem_cons, exists_eq_or_imp, or_assoc]
  rw [hall]
  simp [TableName.isIn, and_assoc]

/-- One step towards the supertype at the top. -/
theorem topmost_eq {g : Schema} (seen : List TableName) (t : TableName) : topmost g seen t =
      match g.parentLink t with
      | .error e => .error (.lookup t e)
      | .ok none => .ok t
      | .ok (some r) =>
        if r.parent.isIn seen then .ok t else topmost g (r.parent :: seen) r.parent := by
  rw [topmost]
  split <;> rename_i hlink <;> rw [hlink]
  dsimp only
  split <;> rfl

/-- **The topmost supertype is reached from subtype to supertype.** -/
theorem isSubtype_of_topmost (hg : σ.schema.Regular) {seen : List TableName} {root : TableName}
    (h : topmost σ.schema seen t = .ok root) :
    Relation.ReflTransGen σ.schema.IsSubtype t root := by
  induction seen, t using topmost.induct (g := σ.schema) with
  | case1 seen t e hlink =>
    rw [topmost_eq, hlink] at h
    cases h
  | case2 seen t hlink =>
    rw [topmost_eq, hlink] at h
    cases h
    exact .refl
  | case3 seen t r hlink hold =>
    rw [topmost_eq, hlink] at h
    dsimp only at h
    rw [if_pos hold] at h
    cases h
    exact .refl
  | case4 seen t r hlink hnew ih =>
    rw [topmost_eq, hlink] at h
    dsimp only at h
    rw [if_neg hnew] at h
    exact .head (hg.isSubtype_of_parentLink hlink) (ih h)

end Setting

end DeleteCascade
