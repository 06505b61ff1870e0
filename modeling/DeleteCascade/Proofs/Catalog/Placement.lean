import DeleteCascade.Catalog.Load
import DeleteCascade.Host.Scripted
import DeleteCascade.Proofs.Json.Record
import Mathlib.Data.List.Basic
/-!
# Catalog — where foreign keys are listed

A schema is loaded from two answers, one of tables and one of foreign keys,
that need not fit together. Each foreign key goes to the first table that has
the name of its source (`ForeignKey.placeIn?`), whatever the schemas of the
two, and to none if there is no such table. `loadSchema_places` says where
every one of them is, and that all of them are where they belong exactly if the
table found for each is the one it names.
-/

namespace DeleteCascade

/-! ## One foreign key after the other -/

namespace ForeignKey

/-- The place of the table with which a foreign key is listed: the first that
has the name of its source, in whichever schema and letter case. -/
def placeIn? (fk : ForeignKey) (tables : List Table) : Option Nat :=
  tables.findIdx? fun t => sameName t.name.name fk.source.name

end ForeignKey

section Attaching

variable {fk : ForeignKey} {fks : List ForeignKey} {tables : List Table}

/-- A foreign key is added to the table at its place. -/
theorem getElem?_attachForeignKey (fk : ForeignKey) (tables : List Table) (i : Nat) :
    (attachForeignKey fk tables)[i]? = tables[i]?.map fun t =>
      if fk.placeIn? tables = some i then { t with foreignKeys := t.foreignKeys ++ [fk] } else t := by
  induction tables generalizing i with
  | nil => rfl
  | cons t rest ih =>
    unfold attachForeignKey ForeignKey.placeIn?
    rw [List.findIdx?_cons]
    by_cases hfound : sameName t.name.name fk.source.name = true
    · rw [if_pos hfound]
      cases i with
      | zero => simp [hfound]
      | succ i => simp [hfound]
    · rw [if_neg hfound, Bool.eq_false_iff.2 hfound]
      cases i with
      | zero => simp
      | succ i =>
        have hrest := ih i
        unfold ForeignKey.placeIn? at hrest
        simp only [List.getElem?_cons_succ, hrest, Option.map_eq_some_iff, Nat.add_right_cancel_iff,
          exists_eq_right, Bool.false_eq_true, if_false]

/-- Nothing but foreign keys is added. -/
theorem placeIn?_attachForeignKey (fk fk' : ForeignKey) (tables : List Table) :
    fk'.placeIn? (attachForeignKey fk tables) = fk'.placeIn? tables := by
  induction tables with
  | nil => rfl
  | cons t rest ih =>
    unfold ForeignKey.placeIn? at ih ⊢
    unfold attachForeignKey
    split
    · rfl
    · rw [List.findIdx?_cons, List.findIdx?_cons, ih]

/-- **Every table lists the foreign keys that go to its place**, in order. -/
theorem getElem?_foldl_attachForeignKey (fks : List ForeignKey) (tables : List Table) (i : Nat) :
    (fks.foldl (fun tables fk => attachForeignKey fk tables) tables)[i]? =
      tables[i]?.map fun t =>
        { t with foreignKeys := t.foreignKeys ++ fks.filter (·.placeIn? tables == some i) } := by
  induction fks generalizing tables with
  | nil => simp
  | cons fk fks ih =>
    have hplaces : (fun fk' : ForeignKey => fk'.placeIn? (attachForeignKey fk tables) == some i) =
        fun fk' => fk'.placeIn? tables == some i := by
      funext fk'
      rw [placeIn?_attachForeignKey]
    rw [List.foldl_cons, ih, getElem?_attachForeignKey, hplaces, Option.map_map]
    congr 1
    funext t
    by_cases hplace : fk.placeIn? tables = some i
    · simp [hplace]
    · simp [hplace]

/-- A foreign key that has a place is listed once more. -/
theorem perm_attachForeignKey (fk : ForeignKey) (tables : List Table) :
    ((attachForeignKey fk tables).flatMap (·.foreignKeys)).Perm
      (tables.flatMap (·.foreignKeys) ++ if (fk.placeIn? tables).isSome then [fk] else []) := by
  induction tables with
  | nil => exact .refl _
  | cons t rest ih =>
    unfold attachForeignKey
    by_cases hfound : sameName t.name.name fk.source.name = true
    · have hplace : (fk.placeIn? (t :: rest)).isSome = true := by
        simp [ForeignKey.placeIn?, List.findIdx?_cons, hfound]
      rw [if_pos hfound, hplace, if_pos rfl, List.flatMap_cons, List.flatMap_cons,
        List.append_assoc, List.append_assoc]
      exact List.perm_append_comm.append_left _
    · have hplace : (fk.placeIn? (t :: rest)).isSome = (fk.placeIn? rest).isSome := by
        simp [ForeignKey.placeIn?, List.findIdx?_cons, hfound]
      rw [if_neg hfound, hplace, List.flatMap_cons, List.flatMap_cons, List.append_assoc]
      exact ih.append_left _

/-- **No foreign key that has a place is lost**, and none is listed twice. -/
theorem perm_foldl_attachForeignKey (fks : List ForeignKey) (tables : List Table) :
    ((fks.foldl (fun tables fk => attachForeignKey fk tables) tables).flatMap (·.foreignKeys)).Perm
      (tables.flatMap (·.foreignKeys) ++ fks.filter fun fk => (fk.placeIn? tables).isSome) := by
  induction fks generalizing tables with
  | nil => simp
  | cons fk fks ih =>
    have hplaces : (fun fk' : ForeignKey => (fk'.placeIn? (attachForeignKey fk tables)).isSome) =
        fun fk' => (fk'.placeIn? tables).isSome := by
      funext fk'
      rw [placeIn?_attachForeignKey]
    have hrest := ih (attachForeignKey fk tables)
    rw [hplaces] at hrest
    have hfirst := (perm_attachForeignKey fk tables).append_right
      (fks.filter fun fk => (fk.placeIn? tables).isSome)
    refine (hrest.trans hfirst).trans (.of_eq ?_)
    rw [List.append_assoc, List.filter_cons]
    cases (fk.placeIn? tables).isSome <;> rfl

end Attaching

/-! ## Runs on a scripted host -/

section Runs

variable {α β ε σ : Type}

/-- What ends well after a first step has a first step that ends well. -/
theorem exists_of_bind_eq_ok {x : ExceptT ε (StateM σ) α} {f : α → ExceptT ε (StateM σ) β}
    {s s'' : σ} {b : β} (h : (x >>= f).run.run s = (.ok b, s'')) :
    ∃ a s', x.run.run s = (.ok a, s') ∧ (f a).run.run s' = (.ok b, s'') := by
  rw [ExceptT.run_bind, StateT.run_bind] at h
  rcases hx : x.run.run s with ⟨_ | a, s'⟩
  · rw [hx] at h
    cases h
  · rw [hx] at h
    exact ⟨a, s', rfl, h⟩

/-- After a step that ends well goes on what follows it. -/
theorem bind_eq_of_eq_ok {x : ExceptT ε (StateM σ) α} {f : α → ExceptT ε (StateM σ) β}
    {s s' : σ} {a : α} (h : x.run.run s = (.ok a, s')) :
    (x >>= f).run.run s = (f a).run.run s' := by
  rw [ExceptT.run_bind, StateT.run_bind, h]
  rfl

theorem eq_of_pure_eq_ok {a b : α} {s s' : σ}
    (h : (pure a : ExceptT ε (StateM σ) α).run.run s = (.ok b, s')) : a = b ∧ s = s' := by
  cases h
  exact ⟨rfl, rfl⟩

end Runs

namespace Connection

variable {α : Type} {c : Connection} {schema q out errors : String} {s s' : Scripted} {g : Schema}
variable {reader : Json → Option α} {found : List α} {rest : List PsqlOutcome}

/-- Only an answer of a program that succeeded is the output of a call. -/
theorem eq_finished_of_read {o : PsqlOutcome} (h : read o = .ok out) :
    ∃ errors, o = .finished true out errors := by
  unfold read at h
  split at h
  · cases h
  · cases h
  · rename_i output errors
    cases h
    exact ⟨errors, rfl⟩
  · cases h

/-- A query that ends well has used up an answer. -/
theorem answers_of_query (h : (c.query Scripted.host q).run.run s = (.ok out, s')) :
    ∃ errors rest, s.answers = some (.finished true out errors :: rest) ∧
      s'.answers = some rest := by
  unfold query call at h
  by_cases hnul : (c.commonArguments ++ ["-t", "-A", "-c", q]).any (·.contains '\x00') = true
  · simp only [hnul] at h
    cases h
  · simp only [hnul] at h
    generalize (⟨c.commonArguments ++ ["-t", "-A", "-c", q], none⟩ : PsqlCall) = psqlCall at h
    change (read (s.callPsql psqlCall).1, (s.callPsql psqlCall).2) = (Except.ok out, s') at h
    obtain ⟨hread, hstate⟩ := Prod.mk.inj h
    obtain ⟨errors, houtcome⟩ := eq_finished_of_read hread
    -- a host without a program, or without an answer, does not succeed
    unfold Scripted.callPsql at houtcome hstate
    cases hanswers : s.answers with
    | none =>
      rw [hanswers] at houtcome
      cases houtcome
    | some answers =>
      rw [hanswers] at houtcome hstate
      cases answers with
      | nil => cases houtcome
      | cons answer rest =>
        obtain rfl : answer = .finished true out errors := houtcome
        exact ⟨errors, rest, rfl, by rw [← hstate]⟩

/-- Whether the program can be started with a query: no argument has a NUL. -/
def CanAsk (c : Connection) (q : String) : Prop :=
  ∀ a ∈ c.commonArguments ++ ["-t", "-A", "-c", q], '\x00' ∉ a.toList

instance (c : Connection) (q : String) : Decidable (c.CanAsk q) :=
  inferInstanceAs (Decidable (∀ a ∈ _, _))

/-- What is not among the characters of a literal is not in the literal. -/
theorem notMem_toList_ofList {a : Char} {cs : List Char} (h : a ∉ cs) :
    a ∉ (String.ofList cs).toList := by
  rwa [String.toList_ofList]

/-- A text of lines has no NUL if no line has one. -/
theorem nul_notMem_ofLines {lines : List String} (h : ∀ l ∈ lines, '\x00' ∉ l.toList) :
    '\x00' ∉ (Query.ofLines lines).toList := by
  simpa [Query.ofLines] using h

/-- A query that can be asked is answered with what was prepared. -/
theorem query_of_answers (hask : c.CanAsk q)
    (h : s.answers = some (.finished true out errors :: rest)) :
    ∃ s', (c.query Scripted.host q).run.run s = (.ok out, s') ∧ s'.answers = some rest := by
  have hclean : (c.commonArguments ++ ["-t", "-A", "-c", q]).any (·.contains '\x00') = false := by
    rw [List.any_eq_false]
    intro a ha hnul
    exact hask a ha (by simpa using hnul)
  unfold query call
  simp only [hclean]
  generalize (⟨c.commonArguments ++ ["-t", "-A", "-c", q], none⟩ : PsqlCall) = psqlCall
  refine ⟨(s.callPsql psqlCall).2, ?_, ?_⟩
  · change (read (s.callPsql psqlCall).1, (s.callPsql psqlCall).2) = _
    unfold Scripted.callPsql
    rw [h]
    rfl
  · unfold Scripted.callPsql
    rw [h]

theorem readRecords_of_records? (h : Answer.records? reader out = some found) :
    (readRecords (m := StateM Scripted) reader out).run.run s = (.ok found, s) := by
  unfold readRecords
  rw [h]
  rfl

theorem records?_of_readRecords
    (h : (readRecords (m := StateM Scripted) reader out).run.run s = (.ok found, s')) :
    Answer.records? reader out = some found := by
  unfold readRecords at h
  split at h
  · rename_i hfound
    cases h
    exact hfound
  · cases h

/-- Object classes are given to a table, and nothing else is. -/
theorem attachClasses_eq (rows : List Answer.ClassRow) (t : Table) :
    attachClasses rows t = { t with classes := (attachClasses rows t).classes } := by
  unfold attachClasses
  cases rows.filter fun r => r.table == lowercase t.name.name <;> rfl

/-- Loading object classes gives them to the tables, and does nothing else. -/
theorem tables_of_loadClasses {tables tables' : List Table}
    (h : (c.loadClasses Scripted.host schema tables).run.run s = (.ok tables', s')) :
    ∃ classes : Table → List Int,
      tables' = tables.map fun t => { t with classes := classes t } := by
  unfold loadClasses at h
  obtain ⟨found, s₁, -, h⟩ := exists_of_bind_eq_ok h
  cases found with
  | true =>
    obtain ⟨answer, s₂, -, h⟩ := exists_of_bind_eq_ok h
    obtain ⟨rows, s₃, -, h⟩ := exists_of_bind_eq_ok h
    obtain ⟨rfl, -⟩ := eq_of_pure_eq_ok h
    exact ⟨fun t => (attachClasses rows t).classes,
      List.map_congr_left fun t _ => attachClasses_eq rows t⟩
  | false =>
    obtain ⟨rfl, -⟩ := eq_of_pure_eq_ok h
    exact ⟨fun t => t.classes, (List.map_id' tables).symm⟩

end Connection

/-! ## The tables and keys of an answer -/

namespace Answer

variable {α : Type} {read : Json → Option α} {answer : String} {found : List α}

/-- What holds of everything that can be read holds of all records. -/
theorem forall_of_records? {p : α → Prop} (hread : ∀ v a, read v = some a → p a)
    (h : records? read answer = some found) : ∀ a ∈ found, p a := by
  unfold records? at h
  dsimp only at h
  split at h
  · cases h
    simp
  · obtain ⟨v, -, hlist⟩ := Option.bind_eq_some_iff.1 h
    intro a ha
    obtain ⟨item, hitem⟩ := Json.exists_of_mem_list? hlist ha
    exact hread item a hitem

/-- A table is answered without foreign keys. -/
theorem foreignKeys_of_table? {v : Json} {t : Table} (h : table? v = some t) :
    t.foreignKeys = [] := by
  unfold table? at h
  simp only [Option.bind_eq_bind, Option.bind_eq_some_iff, Option.pure_def] at h
  obtain ⟨fs, -, schema, -, name, -, columns, -, primaryKey, -, ⟨⟩⟩ := h
  rfl

end Answer

namespace Connection

variable {c : Connection} {schema : String} {s : Scripted} {g : Schema}

/-- What a schema that was loaded was loaded from. -/
theorem loadSchema_eq_ok (h : ((c.loadSchema Scripted.host schema).run.run s).1 = .ok g) :
    ∃ tablesAnswer keysAnswer errors errors' rest tables keys, ∃ classes : Table → List Int,
      s.answers = some (.finished true tablesAnswer errors ::
        .finished true keysAnswer errors' :: rest) ∧
      Answer.records? Answer.table? tablesAnswer = some tables ∧
      Answer.records? Answer.foreignKey? keysAnswer = some keys ∧
      g.name = schema ∧
      g.tables = (keys.foldl (fun tables fk => attachForeignKey fk tables) tables).map fun t =>
        { t with classes := classes t } := by
  have hpair : (c.loadSchema Scripted.host schema).run.run s =
      (.ok g, ((c.loadSchema Scripted.host schema).run.run s).2) := Prod.ext h rfl
  generalize ((c.loadSchema Scripted.host schema).run.run s).2 = s' at hpair
  unfold loadSchema at hpair
  obtain ⟨tablesAnswer, s₁, htablesAnswer, hpair⟩ := exists_of_bind_eq_ok hpair
  obtain ⟨keysAnswer, s₂, hkeysAnswer, hpair⟩ := exists_of_bind_eq_ok hpair
  obtain ⟨tables, s₃, htables, hpair⟩ := exists_of_bind_eq_ok hpair
  obtain ⟨keys, s₄, hkeys, hpair⟩ := exists_of_bind_eq_ok hpair
  obtain ⟨loaded, s₅, hloaded, hpair⟩ := exists_of_bind_eq_ok hpair
  obtain ⟨ownership, s₆, -, hpair⟩ := exists_of_bind_eq_ok hpair
  obtain ⟨rfl, -⟩ := eq_of_pure_eq_ok hpair
  obtain ⟨errors, rest₁, hanswers, hrest₁⟩ := answers_of_query htablesAnswer
  obtain ⟨errors', rest, hanswers', -⟩ := answers_of_query hkeysAnswer
  obtain ⟨classes, rfl⟩ := tables_of_loadClasses hloaded
  rw [hrest₁] at hanswers'
  refine ⟨tablesAnswer, keysAnswer, errors, errors', rest, tables, keys, classes, ?_,
    records?_of_readRecords htables, records?_of_readRecords hkeys, rfl, rfl⟩
  rw [hanswers, Option.some.inj hanswers']

/-- What a schema is asked about that has neither object classes nor
aggregations. -/
def questions (schema : String) : List String :=
  [Query.tables schema, Query.foreignKeys schema, Query.relationExists schema "objectclass",
    Query.relationExists schema "aggregation_info"]

/-- **Two readable answers are all it takes** to load a schema without object
classes and aggregations: whether they fit together is not looked at. -/
theorem loadSchema_of_readable {tablesAnswer keysAnswer errors errors' : String}
    {tables : List Table} {keys : List ForeignKey}
    (hask : ∀ q ∈ questions schema, c.CanAsk q)
    (hanswers : s.answers = some [.finished true tablesAnswer errors,
      .finished true keysAnswer errors', .finished true "f" "", .finished true "f" ""])
    (htables : Answer.records? Answer.table? tablesAnswer = some tables)
    (hkeys : Answer.records? Answer.foreignKey? keysAnswer = some keys) :
    ((c.loadSchema Scripted.host schema).run.run s).1 = .ok
      { name := schema
        tables := keys.foldl (fun tables fk => attachForeignKey fk tables) tables
        ownership := [] } := by
  simp only [questions, List.forall_mem_cons] at hask
  obtain ⟨hask₁, hask₂, hask₃, hask₄, -⟩ := hask
  obtain ⟨s₁, h₁, hs₁⟩ := query_of_answers hask₁ hanswers
  obtain ⟨s₂, h₂, hs₂⟩ := query_of_answers hask₂ hs₁
  obtain ⟨s₃, h₃, hs₃⟩ := query_of_answers hask₃ hs₂
  obtain ⟨s₄, h₄, -⟩ := query_of_answers hask₄ hs₃
  have hno : (trim "f" == "t") = false := by decide
  unfold loadSchema loadClasses loadOwnership relationExists
  rw [bind_eq_of_eq_ok h₁, bind_eq_of_eq_ok h₂, bind_eq_of_eq_ok (readRecords_of_records? htables),
    bind_eq_of_eq_ok (readRecords_of_records? hkeys)]
  simp only [bind_assoc]
  rw [bind_eq_of_eq_ok h₃]
  simp only [pure_bind, hno, Bool.false_eq_true, if_false]
  rw [bind_eq_of_eq_ok h₄]
  simp only [hno]
  rfl

end Connection

/-- **These foreign keys are where they belong**: each is listed once, with a
table that it names as its source, and those of one table are in order. What
it takes to name a table is left open, whether letter case counts or not. -/
structure Schema.HoldsAll (g : Schema) (keys : List ForeignKey)
    (names : TableName → TableName → Prop) : Prop where
  once : (g.tables.flatMap (·.foreignKeys)).Perm keys
  placed : ∀ t ∈ g.tables, ∀ fk ∈ t.foreignKeys, names fk.source t.name
  ordered : ∀ t ∈ g.tables, t.foreignKeys.Sublist keys

/-- Foreign keys that are listed with the table at their place are where they
belong exactly if that is the table they name. -/
theorem Schema.holdsAll_iff {g : Schema} {tables : List Table} {keys : List ForeignKey}
    (hnames : g.tables.map (·.name) = tables.map (·.name))
    (hlists : ∀ i t, g.tables[i]? = some t →
      t.foreignKeys = keys.filter (·.placeIn? tables == some i))
    (honce : (g.tables.flatMap (·.foreignKeys)).Perm
      (keys.filter fun fk => (fk.placeIn? tables).isSome))
    (names : TableName → TableName → Prop) :
    g.HoldsAll keys names ↔ ∀ fk ∈ keys, ∃ i t,
      fk.placeIn? tables = some i ∧ tables[i]? = some t ∧ names fk.source t.name := by
  have hname (i : Nat) : (g.tables[i]?).map (·.name) = (tables[i]?).map (·.name) := by
    rw [← List.getElem?_map, ← List.getElem?_map, hnames]
  constructor
  · intro hall fk hfk
    have hsome : (fk.placeIn? tables).isSome = true :=
      (List.mem_filter.1 ((hall.once.symm.trans honce).mem_iff.1 hfk)).2
    obtain ⟨i, hi⟩ := Option.isSome_iff_exists.1 hsome
    -- the key is listed where it was placed, and what is listed there is named rightly
    obtain ⟨hlt, -⟩ := List.findIdx?_eq_some_iff_getElem.1 hi
    have hti : tables[i]? = some tables[i] := List.getElem?_eq_getElem hlt
    have hnamei := hname i
    rw [hti, Option.map_some] at hnamei
    obtain ⟨t, ht, htname⟩ := Option.map_eq_some_iff.1 hnamei
    have hmem : fk ∈ t.foreignKeys := by
      rw [hlists i t ht]
      exact List.mem_filter.2 ⟨hfk, by simp [hi]⟩
    exact ⟨i, tables[i], hi, hti, htname ▸ hall.placed t (List.mem_of_getElem? ht) fk hmem⟩
  · intro hnamed
    refine ⟨?_, fun t ht fk hfk => ?_, fun t ht => ?_⟩
    · have hall : (keys.filter fun fk => (fk.placeIn? tables).isSome) = keys := by
        refine List.filter_eq_self.2 fun fk hfk => ?_
        obtain ⟨i, -, hi, -, -⟩ := hnamed fk hfk
        rw [hi, Option.isSome_some]
      rwa [hall] at honce
    · obtain ⟨i, hi⟩ := List.mem_iff_getElem?.1 ht
      rw [hlists i t hi] at hfk
      obtain ⟨hmem, hplace⟩ := List.mem_filter.1 hfk
      obtain ⟨j, t₀, hj, ht₀, hnames₀⟩ := hnamed fk hmem
      obtain rfl : j = i := Option.some.inj (hj.symm.trans (eq_of_beq hplace))
      have hnamei := hname j
      rw [hi, ht₀] at hnamei
      have htname : t.name = t₀.name := Option.some.inj hnamei
      rw [htname]
      exact hnames₀
    · obtain ⟨i, hi⟩ := List.mem_iff_getElem?.1 ht
      rw [hlists i t hi]
      exact List.filter_sublist

namespace Connection

variable {c : Connection} {schema : String} {s : Scripted} {g : Schema}

/-- **Where the foreign keys of a schema are** that was loaded. The tables are
those of the first answer, in order. Each foreign key of the second is listed
with the first table of its source's name, and with none if there is no such
table; the load does not fail then. So all of them are where they belong
exactly if there is a table for each and it is the one that the key names. -/
theorem loadSchema_places (h : ((c.loadSchema Scripted.host schema).run.run s).1 = .ok g) :
    ∃ tablesAnswer keysAnswer errors errors' rest tables keys,
      s.answers = some (.finished true tablesAnswer errors ::
        .finished true keysAnswer errors' :: rest) ∧
      Answer.records? Answer.table? tablesAnswer = some tables ∧
      Answer.records? Answer.foreignKey? keysAnswer = some keys ∧
      g.name = schema ∧
      List.Forall₂ (fun t t' : Table =>
        t'.name = t.name ∧ t'.columns = t.columns ∧ t'.primaryKey = t.primaryKey) tables g.tables ∧
      (∀ i t, g.tables[i]? = some t →
        t.foreignKeys = keys.filter (·.placeIn? tables == some i)) ∧
      ∀ names, g.HoldsAll keys names ↔ ∀ fk ∈ keys, ∃ i t,
        fk.placeIn? tables = some i ∧ tables[i]? = some t ∧ names fk.source t.name := by
  obtain ⟨tablesAnswer, keysAnswer, errors, errors', rest, tables, keys, classes, hanswers, htables,
    hkeys, hname, hloaded⟩ := loadSchema_eq_ok h
  have hbare : ∀ t ∈ tables, t.foreignKeys = [] :=
    Answer.forall_of_records? (fun _ _ => Answer.foreignKeys_of_table?) htables
  let placed (i : Nat) (t : Table) : Table :=
    { t with foreignKeys := keys.filter (·.placeIn? tables == some i) }
  have hat : g.tables = tables.mapIdx fun i t =>
      { placed i t with classes := classes (placed i t) } := by
    refine List.ext_getElem? fun i => ?_
    rw [hloaded, List.getElem?_map, getElem?_foldl_attachForeignKey, List.getElem?_mapIdx]
    cases ht : tables[i]? with
    | none => rfl
    | some t => simp [placed, hbare t (List.mem_of_getElem? ht)]
  have hnames : g.tables.map (·.name) = tables.map (·.name) := by
    refine List.ext_getElem? fun i => ?_
    rw [hat, List.getElem?_map, List.getElem?_mapIdx, List.getElem?_map, Option.map_map]
    rfl
  have hlists (i : Nat) (t : Table) (ht : g.tables[i]? = some t) :
      t.foreignKeys = keys.filter (·.placeIn? tables == some i) := by
    rw [hat, List.getElem?_mapIdx] at ht
    obtain ⟨t₀, -, rfl⟩ := Option.map_eq_some_iff.1 ht
    rfl
  have honce : (g.tables.flatMap (·.foreignKeys)).Perm
      (keys.filter fun fk => (fk.placeIn? tables).isSome) := by
    have hnone : tables.flatMap (·.foreignKeys) = [] := List.flatMap_eq_nil_iff.2 hbare
    have hperm := perm_foldl_attachForeignKey keys tables
    rw [hnone, List.nil_append] at hperm
    rw [hloaded, List.flatMap_map]
    exact hperm
  refine ⟨tablesAnswer, keysAnswer, errors, errors', rest, tables, keys, hanswers, htables, hkeys,
    hname, ?_, hlists, Schema.holdsAll_iff hnames hlists honce⟩
  rw [hat]
  refine List.forall₂_iff_get.2 ⟨(List.length_mapIdx).symm, fun i hi hi' => ?_⟩
  simp [placed]

/-- A database of which no more is asked than was prepared. -/
def catalog : Connection := ⟨"db", 60⟩

/-- A host that answers these tables and foreign keys, and neither object
classes nor aggregations. -/
def answering (tables keys : String) : Scripted :=
  .new .empty [] none
    (some [.finished true tables "", .finished true keys "", .finished true "f" "",
      .finished true "f" ""])

theorem catalog_canAsk (h : '\x00' ∉ q.toList) : catalog.CanAsk q := by
  simp [CanAsk, commonArguments, catalog, h]

theorem catalog_canAsk_questions : ∀ q ∈ questions "c", catalog.CanAsk q := by
  have hquoted : '\x00' ∉ (Quote.literal "c").toList := by decide +kernel
  simp only [questions, List.forall_mem_cons]
  refine ⟨catalog_canAsk (nul_notMem_ofLines ?_), catalog_canAsk (nul_notMem_ofLines ?_),
    catalog_canAsk (by decide +kernel), catalog_canAsk (by decide +kernel), List.forall_mem_nil _⟩
  -- the two long queries line by line, with the quoted name in the middle of some
  all_goals
    simp only [List.forall_mem_cons, String.toList_append, List.mem_append, not_or, hquoted,
      not_false_eq_true, and_true, List.not_mem_nil, false_implies, implies_true]
    and_intros
    all_goals exact notMem_toList_ofList (by decide +kernel)

/-- The answer with a house. -/
def houseAnswer : String :=
  "[\x7b\"schema\":\"c\",\"name\":\"house\",\"columns\":[],\"primary_key\":[\"id\"]\x7d]"

/-- The answer with the foreign key of a yard, which was added after the tables
were answered. -/
def yardAnswer : String :=
  "[\x7b\"name\":\"lot\",\"from_schema\":\"c\",\"from_table\":\"yard\"," ++
    "\"from_columns\":[\"house_id\"],\"to_schema\":\"c\",\"to_table\":\"house\"," ++
    "\"to_columns\":[\"id\"],\"on_delete\":\"a\"\x7d]"

def house : Table := ⟨⟨"c", "house"⟩, [], ["id"], [], []⟩

def yardKey : ForeignKey :=
  ⟨"lot", ⟨"c", "yard"⟩, ["house_id"], ⟨"c", "house"⟩, ["id"], .noAction⟩

theorem records?_houseAnswer : Answer.records? Answer.table? houseAnswer = some [house] := by
  decide +kernel

theorem records?_yardAnswer : Answer.records? Answer.foreignKey? yardAnswer = some [yardKey] := by
  decide +kernel

theorem loadSchema_yard :
    ((catalog.loadSchema Scripted.host "c").run.run (answering houseAnswer yardAnswer)).1 =
      .ok ⟨"c", [house], []⟩ := by
  rw [loadSchema_of_readable catalog_canAsk_questions rfl records?_houseAnswer records?_yardAnswer]
  decide

/-- What `loadSchema_places` says of that schema: the yard's key has no place,
so the keys are not all where they belong, however names are compared. -/
theorem loadSchema_places_yard :
    ((catalog.loadSchema Scripted.host "c").run.run (answering houseAnswer yardAnswer)).1 =
        .ok ⟨"c", [house], []⟩ ∧
      ∀ names, ¬ (⟨"c", [house], []⟩ : Schema).HoldsAll [yardKey] names := by
  refine ⟨loadSchema_yard, fun names hall => ?_⟩
  obtain ⟨tablesAnswer, keysAnswer, errors, errors', rest, tables, keys, hanswers, htables, hkeys,
    -, -, -, hplaces⟩ := loadSchema_places loadSchema_yard
  obtain ⟨rfl, rfl⟩ : houseAnswer = tablesAnswer ∧ yardAnswer = keysAnswer := by
    simp only [answering, Scripted.new, Option.some.injEq, List.cons.injEq,
      PsqlOutcome.finished.injEq, true_and] at hanswers
    exact ⟨hanswers.1.1, hanswers.2.1.1⟩
  obtain rfl := Option.some.inj (records?_houseAnswer.symm.trans htables)
  obtain rfl := Option.some.inj (records?_yardAnswer.symm.trans hkeys)
  obtain ⟨i, t, hplace, -, -⟩ := (hplaces names).1 hall yardKey (by simp)
  have hnone : yardKey.placeIn? [house] = none := by decide
  rw [hnone] at hplace
  cases hplace

/-- **A schema is not loaded whole or not at all**: both answers are readable
and the load succeeds, but a foreign key that was answered is listed nowhere. -/
theorem not_loadedWhole :
    ∃ g, ((catalog.loadSchema Scripted.host "c").run.run (answering houseAnswer yardAnswer)).1 =
        .ok g ∧
      Answer.records? Answer.foreignKey? yardAnswer = some [yardKey] ∧
      ∀ t ∈ g.tables, yardKey ∉ t.foreignKeys :=
  ⟨_, loadSchema_yard, records?_yardAnswer, by decide⟩

end Connection

end DeleteCascade
