import DeleteCascade.Function.Registry
import DeleteCascade.Proofs.Schema.Links
/-!
# Registry — one function for each table

A registry that gives out names one by one keeps its functions apart, both
by their tables and by their names (`Registry.Distinct`). A name that was
given stays (`Registry.Keeps`), whatever is named or written later, so that
what a body calls can be fixed when the body is written.
-/

namespace DeleteCascade

theorem TableName.isIn_concat {t u : TableName} {ts : List TableName} :
    u.isIn (ts ++ [t]) = (u.isIn ts || u.same t) := by
  simp [isIn]

namespace Namer

variable {n n' : Namer} {base name table : String}

/-- A free name has not been given out. -/
theorem not_mem_taken_of_free? (h : n.free? base = some name) : name ∉ n.taken := by
  unfold free? at h
  split at h
  · rename_i hfree
    cases h
    simp only [Bool.and_eq_true, Bool.not_eq_true', List.contains_eq_mem,
      decide_eq_false_iff_not] at hfree
    exact hfree.2
  · obtain ⟨number, -, hnumber⟩ := List.exists_of_findSome?_eq_some h
    have hfree := (Option.filter_eq_some_iff.1 hnumber).2
    simpa using hfree

theorem assign_eq_ok (h : n.assign table = .ok (name, n')) :
    name ∉ n.taken ∧ n'.taken = name :: n.taken := by
  unfold assign at h
  split at h
  · rename_i hfree
    cases h
    exact ⟨not_mem_taken_of_free? hfree, rfl⟩
  · cases h

end Namer

namespace Registry

variable {r r' r'' : Registry} {t u : TableName} {name : String} {e e' : FunctionRecord}
variable {f : FunctionRecord → FunctionRecord}

/-- **No two functions share a table or a name.** -/
structure Distinct (r : Registry) : Prop where
  apart : r.records.Pairwise fun e e' =>
    e.function.table.same e'.function.table = false ∧ e.function.name ≠ e'.function.name
  taken : ∀ e ∈ r.records, e.function.name ∈ r.namer.taken

/-- Names that were given in `r` are the same in `r'`. -/
def Keeps (r r' : Registry) : Prop := ∀ t name, r.nameOf? t = some name → r'.nameOf? t = some name

theorem Keeps.refl (r : Registry) : r.Keeps r := fun _ _ h => h

theorem Keeps.trans (h : r.Keeps r') (h' : r'.Keeps r'') : r.Keeps r'' :=
  fun t name hn => h' t name (h t name hn)

theorem record?_congr (h : t.same u) : r.record? t = r.record? u := by
  simp only [record?, TableName.same_congr_right h]

theorem state?_congr (h : t.same u) : r.state? t = r.state? u := by
  simp only [state?, record?_congr h, TableName.isIn_congr h]

theorem mem_of_record? (h : r.record? t = some e) :
    e ∈ r.records ∧ e.function.table.same t = true :=
  ⟨List.mem_of_find?_eq_some h,
    List.find?_some (p := fun f : FunctionRecord => f.function.table.same t) h⟩

namespace Distinct

theorem new (namer : Namer) : (Registry.new namer).Distinct :=
  ⟨List.Pairwise.nil, by simp [Registry.new]⟩

/-- The records are told apart by their tables as well as by their names. -/
theorem eq_of_mem (h : r.Distinct) (he : e ∈ r.records) (he' : e' ∈ r.records)
    (hor : e.function.table.same e'.function.table = true ∨ e.function.name = e'.function.name) :
    e = e' := by
  have hsymm : Std.Symm fun a b : FunctionRecord =>
      a.function.table.same b.function.table = false ∧ a.function.name ≠ b.function.name :=
    ⟨fun a b hab => ⟨by rw [TableName.same_comm]; exact hab.1, hab.2.symm⟩⟩
  rcases eq_or_ne e e' with heq | hne
  · exact heq
  · obtain ⟨htable, hname⟩ := h.apart.forall he he' hne
    rcases hor with hor | hor
    · rw [htable] at hor
      cases hor
    · exact absurd hor hname

/-- A record is found under the name of its table. -/
theorem record?_of_mem (h : r.Distinct) (he : e ∈ r.records) (hs : e.function.table.same t = true) :
    r.record? t = some e := by
  have hsome : (r.record? t).isSome = true := by
    rw [record?, List.find?_isSome]
    exact ⟨e, he, hs⟩
  obtain ⟨e', he'⟩ := Option.isSome_iff_exists.1 hsome
  obtain ⟨hmem, hsame⟩ := mem_of_record? he'
  rw [he', h.eq_of_mem hmem he (Or.inl (TableName.same_trans hsame (TableName.same_symm hs)))]

end Distinct

/-! ## Giving names -/

/-- A table with a name keeps it; a new one is recorded under a fresh name. -/
theorem reserve_eq_ok (h : r.reserve t = .ok (name, r')) :
    (∃ e, r.record? t = some e ∧ name = e.function.name ∧ r' = r) ∨
      (r.record? t = none ∧ ∃ namer, r.namer.assign t.name = .ok (name, namer) ∧
        r' = { r with namer, records := r.records ++ [⟨.unwritten t name, false⟩] }) := by
  unfold reserve at h
  split at h
  · rename_i e he
    cases h
    exact Or.inl ⟨e, he, rfl, rfl⟩
  · rename_i hnone
    split at h
    · cases h
    · rename_i name' namer hassign
      cases h
      exact Or.inr ⟨hnone, namer, hassign, rfl⟩

theorem keeps_reserve (h : r.reserve t = .ok (name, r')) : r.Keeps r' := by
  rcases reserve_eq_ok h with ⟨e, -, -, rfl⟩ | ⟨-, namer, -, rfl⟩
  · exact Keeps.refl r'
  · intro u n hn
    simp only [nameOf?, get?, record?, Option.map_eq_some_iff] at hn ⊢
    obtain ⟨g, ⟨e, he, rfl⟩, rfl⟩ := hn
    exact ⟨_, ⟨e, by rw [List.find?_append, he]; rfl, rfl⟩, rfl⟩

/-- A reserved table has a name. -/
theorem nameOf?_reserve (h : r.reserve t = .ok (name, r')) : r'.nameOf? t = some name := by
  rcases reserve_eq_ok h with ⟨e, he, rfl, rfl⟩ | ⟨hnone, namer, -, rfl⟩
  · simp [nameOf?, get?, he]
  · have hfind : r.records.find? (fun f => f.function.table.same t) = none := hnone
    simp only [nameOf?, get?, record?, List.find?_append, hfind]
    simp [DeleteFunction.unwritten]

theorem Distinct.reserve (h : r.Distinct) (hr : r.reserve t = .ok (name, r')) : r'.Distinct := by
  rcases reserve_eq_ok hr with ⟨e, -, -, rfl⟩ | ⟨hnone, namer, hassign, rfl⟩
  · exact h
  · obtain ⟨hfresh, htaken⟩ := Namer.assign_eq_ok hassign
    refine ⟨?_, fun e he => ?_⟩
    · refine List.pairwise_append.2 ⟨h.apart, List.pairwise_singleton _ _, fun e he e' he' => ?_⟩
      obtain rfl := List.mem_singleton.1 he'
      refine ⟨?_, fun heq => ?_⟩
      · have hno := List.find?_eq_none.1 hnone e he
        simpa [DeleteFunction.unwritten] using hno
      · refine hfresh ?_
        have hin := h.taken e he
        rwa [heq] at hin
    · rw [htaken]
      rcases List.mem_append.1 he with he | he
      · exact List.mem_cons_of_mem _ (h.taken e he)
      · obtain rfl := List.mem_singleton.1 he
        simp [DeleteFunction.unwritten]

/-- Naming several tables keeps the functions apart and the names, and
gives one to each of the tables. -/
theorem reserveAll_eq_ok {ts : List TableName} (h : r.Distinct) (hr : r.reserveAll ts = .ok r') :
    r'.Distinct ∧ r.Keeps r' ∧ ∀ t ∈ ts, ∃ name, r'.nameOf? t = some name := by
  induction ts generalizing r with
  | nil =>
    cases hr
    exact ⟨h, Keeps.refl r', by simp⟩
  | cons t ts ih =>
    unfold reserveAll at hr
    split at hr
    · cases hr
    · rename_i name r₁ hr₁
      obtain ⟨hdist, hkeeps, hnames⟩ := ih (h.reserve hr₁) hr
      refine ⟨hdist, (keeps_reserve hr₁).trans hkeeps, fun u hu => ?_⟩
      rcases List.mem_cons.1 hu with rfl | hu
      · exact ⟨name, hkeeps u name (nameOf?_reserve hr₁)⟩
      · exact hnames u hu

/-! ## Beginning visits -/

/-- **A visit begins or is refused**, and either way the table has a name. -/
theorem beginVisit_eq_ok {begins : Bool} (h : r.beginVisit t = .ok (begins, r')) :
    ∃ name r₁, r.reserve t = .ok (name, r₁) ∧
      ((begins = true ∧ r' = { r₁ with visited := r₁.visited ++ [t] }) ∨
        (begins = false ∧ r' = r₁)) := by
  unfold beginVisit at h
  split at h
  · cases h
  · rename_i name r₁ hreserve
    split at h <;> cases h
    · exact ⟨name, r₁, hreserve, Or.inl ⟨rfl, rfl⟩⟩
    · exact ⟨name, _, hreserve, Or.inr ⟨rfl, rfl⟩⟩

/-! ## Changing functions -/

/-- A change that leaves the table and the name of a function alone. -/
def KeepsIdentity (f : FunctionRecord → FunctionRecord) : Prop :=
  ∀ e, (f e).function.table = e.function.table ∧ (f e).function.name = e.function.name

/-- Writing a function leaves its table and its name alone. -/
theorem keepsIdentity_complete (keyColumn : String) (blocks : List (Block Callee)) :
    KeepsIdentity fun e => ⟨{ e.function with keyColumn, blocks }, true⟩ :=
  fun _ => ⟨rfl, rfl⟩

theorem mem_modify {g : FunctionRecord} :
    g ∈ (r.modify t f).records ↔
      ∃ e ∈ r.records, g = if e.function.table.same t = true then f e else e := by
  simp only [modify, List.mem_map]
  constructor
  · rintro ⟨e, he, rfl⟩
    exact ⟨e, he, rfl⟩
  · rintro ⟨e, he, rfl⟩
    exact ⟨e, he, rfl⟩

theorem Distinct.modify (h : r.Distinct) (hf : KeepsIdentity f) : (r.modify t f).Distinct := by
  have hid (e : FunctionRecord) :
      (if e.function.table.same t = true then f e else e).function.table = e.function.table ∧
        (if e.function.table.same t = true then f e else e).function.name = e.function.name := by
    split
    · exact hf e
    · exact ⟨rfl, rfl⟩
  refine ⟨?_, fun g hg => ?_⟩
  · simp only [Registry.modify, List.pairwise_map]
    refine h.apart.imp fun {a b} hab => ?_
    rw [(hid a).1, (hid b).1, (hid a).2, (hid b).2]
    exact hab
  · obtain ⟨e, he, rfl⟩ := mem_modify.1 hg
    rw [(hid e).2]
    exact h.taken e he

theorem record?_modify (hf : KeepsIdentity f) :
    (r.modify t f).record? u =
      (r.record? u).map fun e => if e.function.table.same t = true then f e else e := by
  have htest : ((fun g : FunctionRecord => g.function.table.same u) ∘
      fun e => if e.function.table.same t = true then f e else e) =
        fun e => e.function.table.same u := by
    funext e
    change (if e.function.table.same t = true then f e else e).function.table.same u = _
    split
    · rw [(hf e).1]
    · rfl
  unfold record? modify
  rw [List.find?_map, htest]

theorem nameOf?_modify (hf : KeepsIdentity f) : (r.modify t f).nameOf? u = r.nameOf? u := by
  rw [nameOf?, get?, record?_modify hf, nameOf?, get?]
  cases r.record? u with
  | none => rfl
  | some e =>
    simp only [Option.map_some]
    split
    · rw [(hf e).2]
    · rfl

/-! ## The written functions -/

theorem state?_eq_done : r.state? t = some .done ↔ ∃ e, r.record? t = some e ∧ e.isDone = true := by
  unfold state?
  rw [Option.map_eq_some_iff]
  refine exists_congr fun e => and_congr_right fun _ => ?_
  cases e.isDone with
  | true => simp
  | false =>
    simp only [Bool.false_eq_true, if_false]
    split <;> simp

theorem mem_functions {g : DeleteFunction} (h : g ∈ r.functions) :
    ∃ e ∈ r.records, e.isDone = true ∧ e.function = g ∧ ∃ t ∈ r.visited, g.table.same t := by
  unfold functions at h
  obtain ⟨t, ht, hsome⟩ := List.mem_filterMap.1 h
  split at hsome
  · rename_i e he
    split at hsome
    · rename_i hdone
      cases hsome
      exact ⟨e, (mem_of_record? he).1, hdone, rfl, t, ht, (mem_of_record? he).2⟩
    · cases hsome
  · cases hsome

end Registry

end DeleteCascade
