import DeleteCascade.Json.Record
import Mathlib.Data.List.Forall2
/-!
# JSON — records written and read

What is read from what was written. An array is read item by item
(`list?_eq_some_iff`), and a record that was written with all of its fields is
read field by field (`fields?_record`).
-/

namespace DeleteCascade.Json

variable {α : Type} {read : Json → Option α}

theorem mapM_eq_some_iff {β : Type} {f : β → Option α} {bs : List β} {found : List α} :
    bs.mapM f = some found ↔ List.Forall₂ (fun b a => f b = some a) bs found := by
  induction bs generalizing found with
  | nil => simp [eq_comm]
  | cons b bs ih =>
    rw [List.mapM_cons, List.forall₂_cons_left_iff]
    simp only [Option.bind_eq_bind, Option.bind_eq_some_iff, Option.pure_def, Option.some.injEq, ih]
    constructor
    · rintro ⟨a, ha, as, has, rfl⟩
      exact ⟨a, as, ha, has, rfl⟩
    · rintro ⟨a, as, ha, has, rfl⟩
      exact ⟨a, ha, as, has, rfl⟩

/-- An array is read item by item. -/
theorem list?_eq_some_iff {v : Json} {found : List α} :
    list? read v = some found ↔
      ∃ items, v = .array items ∧ List.Forall₂ (fun v a => read v = some a) items found := by
  cases v with
  | array items => simp [list?, mapM_eq_some_iff]
  | _ => simp [list?]

/-- Every item that was read was read from something. -/
theorem exists_of_mem_list? {v : Json} {found : List α} {a : α} (h : list? read v = some found)
    (ha : a ∈ found) : ∃ item, read item = some a := by
  obtain ⟨items, -, hitems⟩ := list?_eq_some_iff.1 h
  obtain ⟨i, hi, rfl⟩ := List.getElem_of_mem ha
  have hlength : i < items.length := hitems.length_eq ▸ hi
  exact ⟨items[i], hitems.get hlength hi⟩

/-- A list that was written is read back if its items are. -/
theorem list?_list {encode : α → Json} {items : List α}
    (h : ∀ a ∈ items, read (encode a) = some a) : list? read (list encode items) = some items :=
  list?_eq_some_iff.2 ⟨_, rfl, List.forall₂_map_left_iff.2 (List.forall₂_same.2 h)⟩

/-- A record that was written with fields it may have is read back. -/
theorem fields?_record {names : List String} {members : List (String × Json)}
    (hknown : members.all (fun m => names.contains m.1) = true)
    (hnodup : (members.map Prod.fst).Nodup) : (record members).fields? names = some members := by
  have hkeys : (members.map fun m => (some m.1, m.2)).mapM
      (fun m : Option String × Json => m.1.map fun k => (k, m.2)) = some members := by
    rw [mapM_eq_some_iff, List.forall₂_map_left_iff, List.forall₂_same]
    exact fun m _ => rfl
  have hfilter : members.filter (fun m => names.contains m.1) = members :=
    List.filter_eq_self.2 (List.all_eq_true.1 hknown)
  unfold record fields?
  simp only [hkeys, Option.bind_eq_bind, Option.bind_some, hfilter, if_pos hnodup]

@[simp] theorem text?_text (s : String) : (text s).text? = some s := rfl

@[simp] theorem bool?_bool (b : Bool) : (Json.bool b).bool? = some b := rfl

@[simp] theorem list?_texts (items : List String) : list? text? (texts items) = some items :=
  list?_list fun a _ => text?_text a

@[simp] theorem nullable?_textOrNull (s : Option String) :
    nullable? text? (textOrNull s) = some s := by
  cases s <;> rfl

@[simp] theorem choice?_text (choices : List (String × α)) (name : String) :
    choice? choices (text name) = choices.lookup name := rfl

namespace Fields

variable {fs : Fields} {key name : String} {v : Json}

/-- The first field of a record is the one looked for if it has the name. -/
theorem get?_cons : get? ((key, v) :: fs) name read =
    if name = key then read v else fs.get? name read := by
  by_cases hname : name = key
  · simp [get?, hname]
  · simp [get?, hname, List.lookup_cons, beq_eq_false_iff_ne.2 hname]

theorem getD?_cons {default : α} : getD? ((key, v) :: fs) name default read =
    if name = key then read v else fs.getD? name default read := by
  by_cases hname : name = key
  · simp [getD?, hname]
  · simp [getD?, hname, List.lookup_cons, beq_eq_false_iff_ne.2 hname]

end Fields

end DeleteCascade.Json
