import DeleteCascade.Proofs.Schema.Classes
import Mathlib.Data.List.Forall2
/-!
# Schema — two spellings of one schema

Two schemas may differ in nothing but the case of the letters in their names,
each occurrence of a name spelled as it likes (`Schema.Respelled`). Whatever is
asked of the one is then answered by the other alike (`EndAlike`): there is no
answer for the same reason, or there are answers that differ in spelling only.
-/

namespace DeleteCascade

/-! ## Ends that are alike -/

/-- **Two computations end alike**: with related errors, or with related
results. -/
inductive EndAlike {ε ε' α β : Type} (E : ε → ε' → Prop) (R : α → β → Prop) :
    Except ε α → Except ε' β → Prop
  | error {e : ε} {e' : ε'} (errors : E e e') : EndAlike E R (.error e) (.error e')
  | ok {a : α} {b : β} (results : R a b) : EndAlike E R (.ok a) (.ok b)

section Lists

variable {ε ε' α β γ δ : Type} {E : ε → ε' → Prop} {R : α → β → Prop} {Q : γ → δ → Prop}
variable {l : List α} {l' : List β}

theorem EndAlike.map {x : Except ε α} {x' : Except ε' β} (h : EndAlike E R x x') {f : α → γ}
    {f' : β → δ} (hf : ∀ a b, R a b → Q (f a) (f' b)) : EndAlike E Q (x.map f) (x'.map f') := by
  cases h with
  | error errors => exact .error errors
  | ok results => exact .ok (hf _ _ results)

theorem EndAlike.mapError {x : Except ε α} {x' : Except ε' β} (h : EndAlike E R x x')
    {η η' : Type} {H : η → η' → Prop} {f : ε → η} {f' : ε' → η'}
    (hf : ∀ e e', E e e' → H (f e) (f' e')) : EndAlike H R (x.mapError f) (x'.mapError f') := by
  cases h with
  | error errors => exact .error (hf _ _ errors)
  | ok results => exact .ok results

/-- Going on from related results. -/
theorem EndAlike.bind {x : Except ε α} {x' : Except ε' β} (h : EndAlike E R x x')
    {f : α → Except ε γ} {f' : β → Except ε' δ}
    (hf : ∀ a b, R a b → EndAlike E Q (f a) (f' b)) : EndAlike E Q (x >>= f) (x' >>= f') := by
  cases h with
  | error errors => exact .error errors
  | ok results => exact hf _ _ results

theorem EndAlike.mapM (h : List.Forall₂ R l l') {f : α → Except ε γ} {f' : β → Except ε' δ}
    (hf : ∀ a b, R a b → EndAlike E Q (f a) (f' b)) :
    EndAlike E (List.Forall₂ Q) (l.mapM f) (l'.mapM f') := by
  induction h with
  | nil => exact .ok .nil
  | cons hab _ ih =>
    rw [List.mapM_cons, List.mapM_cons]
    exact (hf _ _ hab).bind fun c d hcd => ih.bind fun cs ds hcds => .ok (.cons hcd hcds)

theorem EndAlike.foldlM (h : List.Forall₂ R l l') {f : γ → α → Except ε γ}
    {f' : δ → β → Except ε' δ}
    (hf : ∀ c d a b, Q c d → R a b → EndAlike E Q (f c a) (f' d b)) {c : γ} {d : δ}
    (hcd : Q c d) : EndAlike E Q (l.foldlM f c) (l'.foldlM f' d) := by
  induction h generalizing c d with
  | nil => exact .ok hcd
  | cons hab _ ih =>
    rw [List.foldlM_cons, List.foldlM_cons]
    exact (hf _ _ _ _ hcd hab).bind fun c' d' hcd' => ih hcd'

theorem EndAlike.filterM (h : List.Forall₂ R l l') {p : α → Except ε Bool}
    {p' : β → Except ε' Bool} (hp : ∀ a b, R a b → EndAlike E Eq (p a) (p' b)) :
    EndAlike E (List.Forall₂ R) (l.filterM p) (l'.filterM p') := by
  -- what is kept so far is gathered backwards, and turned round at the end
  suffices hkept : ∀ kept kept', List.Forall₂ R kept kept' →
      EndAlike E (List.Forall₂ R) (l.filterAuxM p kept) (l'.filterAuxM p' kept') by
    exact (hkept [] [] .nil).bind fun kept kept' hk => .ok (List.rel_reverse hk)
  induction h with
  | nil => exact fun kept kept' hk => .ok hk
  | cons hab _ ih =>
    intro kept kept' hk
    refine (hp _ _ hab).bind fun keep keep' hkeep => ?_
    subst hkeep
    cases keep with
    | true => exact ih _ _ (.cons hab hk)
    | false => exact ih _ _ hk

instance decidableOptionRel [∀ a b, Decidable (R a b)] :
    (x : Option α) → (y : Option β) → Decidable (Option.Rel R x y)
  | none, none => .isTrue .none
  | some a, some b => decidable_of_iff (R a b) ⟨.some, fun | .some hab => hab⟩
  | none, some _ => .isFalse nofun
  | some _, none => .isFalse nofun

theorem optionRel_map {x : Option α} {y : Option β} (h : Option.Rel R x y) {f : α → γ} {f' : β → δ}
    (hf : ∀ a b, R a b → Q (f a) (f' b)) : Option.Rel Q (x.map f) (y.map f') := by
  cases h with
  | none => exact .none
  | some hab => exact .some (hf _ _ hab)

/-- What is found first in related lists is related. -/
theorem forall₂_find? (h : List.Forall₂ R l l') {p : α → Bool} {q : β → Bool}
    (hpq : ∀ a b, R a b → p a = q b) : Option.Rel R (l.find? p) (l'.find? q) := by
  induction h with
  | nil => exact .none
  | @cons a b l l' hab _ ih =>
    rw [List.find?_cons, List.find?_cons, hpq a b hab]
    cases q b with
    | true => exact .some hab
    | false => exact ih

theorem forall₂_filter (h : List.Forall₂ R l l') {p : α → Bool} {q : β → Bool}
    (hpq : ∀ a b, R a b → p a = q b) : List.Forall₂ R (l.filter p) (l'.filter q) :=
  List.rel_filter (fun a b hab => show p a = true ↔ q b = true by rw [hpq a b hab]) h

theorem forall₂_any (h : List.Forall₂ R l l') {p : α → Bool} {q : β → Bool}
    (hpq : ∀ a b, R a b → p a = q b) : l.any p = l'.any q := by
  induction h with
  | nil => rfl
  | cons hab _ ih => rw [List.any_cons, List.any_cons, hpq _ _ hab, ih]

theorem forall₂_all (h : List.Forall₂ R l l') {p : α → Bool} {q : β → Bool}
    (hpq : ∀ a b, R a b → p a = q b) : l.all p = l'.all q := by
  induction h with
  | nil => rfl
  | cons hab _ ih => rw [List.all_cons, List.all_cons, hpq _ _ hab, ih]

theorem forall₂_mapIdx (h : List.Forall₂ R l l') {f : Nat → α → γ} {f' : Nat → β → δ}
    (hf : ∀ i a b, R a b → Q (f i a) (f' i b)) : List.Forall₂ Q (l.mapIdx f) (l'.mapIdx f') := by
  induction h generalizing f f' with
  | nil => exact .nil
  | cons hab _ ih =>
    rw [List.mapIdx_cons, List.mapIdx_cons]
    exact .cons (hf 0 _ _ hab) (ih fun i => hf (i + 1))

/-- What is related stands in the two lists. -/
theorem forall₂_mem (h : List.Forall₂ R l l') :
    List.Forall₂ (fun a b => a ∈ l ∧ b ∈ l' ∧ R a b) l l' := by
  induction h with
  | nil => exact .nil
  | cons hab _ ih =>
    refine .cons ⟨List.mem_cons_self, List.mem_cons_self, hab⟩ (ih.imp fun a b hmem => ?_)
    exact ⟨List.mem_cons_of_mem _ hmem.1, List.mem_cons_of_mem _ hmem.2.1, hmem.2.2⟩

/-- What is listed in one of two lists has its like in the other. -/
theorem exists_of_forall₂ (h : List.Forall₂ R l l') {a : α} (ha : a ∈ l) : ∃ b ∈ l', R a b := by
  induction h with
  | nil => cases ha
  | cons hab _ ih =>
    rcases List.mem_cons.1 ha with rfl | ha
    · exact ⟨_, List.mem_cons_self, hab⟩
    · obtain ⟨b, hb, hab⟩ := ih ha
      exact ⟨b, List.mem_cons_of_mem _ hb, hab⟩

theorem forall₂_isEmpty (h : List.Forall₂ R l l') : l.isEmpty = l'.isEmpty := by
  cases h <;> rfl

end Lists

/-! ## Names -/

/-- Names that are the same one by one. -/
abbrev SameNames : List String → List String → Prop := List.Forall₂ fun a b => sameName a b

/-- Tables that are the same one by one. -/
abbrev SameTables : List TableName → List TableName → Prop := List.Forall₂ fun t u => t.same u

theorem sameName_congr {a a' b b' : String} (ha : sameName a a') (hb : sameName b b') :
    sameName a b = sameName a' b' :=
  (sameName_congr_left ha b).trans (sameName_congr_right hb a')

theorem TableName.same_congr {t t' u u' : TableName} (ht : t.same t') (hu : u.same u') :
    t.same u = t'.same u' :=
  (same_congr_left ht u).trans (same_congr_right hu t')

theorem SameTables.isIn {ts us : List TableName} (h : SameTables ts us) {t u : TableName}
    (htu : t.same u) : t.isIn ts = u.isIn us :=
  forall₂_any h fun _ _ hab => TableName.same_congr htu hab

/-! ## Schemas -/

/-- One column in two spellings. -/
structure Column.Respelled (c c' : Column) : Prop where
  name : sameName c.name c'.name
  dataType : c.dataType = c'.dataType
  nullable : c.nullable = c'.nullable

/-- One foreign key in two spellings. -/
structure ForeignKey.Respelled (fk fk' : ForeignKey) : Prop where
  name : sameName fk.name fk'.name
  source : fk.source.same fk'.source
  sourceColumns : SameNames fk.sourceColumns fk'.sourceColumns
  target : fk.target.same fk'.target
  targetColumns : SameNames fk.targetColumns fk'.targetColumns
  onDelete : fk.onDelete = fk'.onDelete

/-- One table in two spellings. -/
structure Table.Respelled (d d' : Table) : Prop where
  name : d.name.same d'.name
  columns : List.Forall₂ Column.Respelled d.columns d'.columns
  primaryKey : SameNames d.primaryKey d'.primaryKey
  foreignKeys : List.Forall₂ ForeignKey.Respelled d.foreignKeys d'.foreignKeys
  classes : d.classes = d'.classes

/-- **One schema in two spellings**: the tables are the same up to the case of
letters. How the schema is called and what came with it is not asked. -/
structure Schema.Respelled (g g' : Schema) : Prop where
  tables : List.Forall₂ Table.Respelled g.tables g'.tables

instance (c c' : Column) : Decidable (c.Respelled c') :=
  decidable_of_iff (sameName c.name c'.name ∧ c.dataType = c'.dataType ∧ c.nullable = c'.nullable)
    ⟨fun ⟨name, dataType, nullable⟩ => ⟨name, dataType, nullable⟩,
      fun h => ⟨h.name, h.dataType, h.nullable⟩⟩

instance (fk fk' : ForeignKey) : Decidable (fk.Respelled fk') :=
  decidable_of_iff
    (sameName fk.name fk'.name ∧ fk.source.same fk'.source ∧
      SameNames fk.sourceColumns fk'.sourceColumns ∧ fk.target.same fk'.target ∧
      SameNames fk.targetColumns fk'.targetColumns ∧ fk.onDelete = fk'.onDelete)
    ⟨fun ⟨name, source, sourceColumns, target, targetColumns, onDelete⟩ =>
        ⟨name, source, sourceColumns, target, targetColumns, onDelete⟩,
      fun h => ⟨h.name, h.source, h.sourceColumns, h.target, h.targetColumns, h.onDelete⟩⟩

instance (d d' : Table) : Decidable (d.Respelled d') :=
  decidable_of_iff
    (d.name.same d'.name ∧ List.Forall₂ Column.Respelled d.columns d'.columns ∧
      SameNames d.primaryKey d'.primaryKey ∧
      List.Forall₂ ForeignKey.Respelled d.foreignKeys d'.foreignKeys ∧ d.classes = d'.classes)
    ⟨fun ⟨name, columns, primaryKey, foreignKeys, classes⟩ =>
        ⟨name, columns, primaryKey, foreignKeys, classes⟩,
      fun h => ⟨h.name, h.columns, h.primaryKey, h.foreignKeys, h.classes⟩⟩

instance (g g' : Schema) : Decidable (g.Respelled g') :=
  decidable_of_iff (List.Forall₂ Table.Respelled g.tables g'.tables)
    ⟨fun tables => ⟨tables⟩, fun h => h.tables⟩

/-- One reference in two spellings. -/
structure Reference.Respelled (r r' : Reference) : Prop where
  child : r.child.same r'.child
  childColumn : sameName r.childColumn r'.childColumn
  parent : r.parent.same r'.parent
  parentColumn : sameName r.parentColumn r'.parentColumn
  nullable : r.nullable = r'.nullable
  childIsKey : r.childIsKey = r'.childIsKey

/-- One bridge in two spellings. -/
structure Bridge.Respelled (b b' : Bridge) : Prop where
  table : b.table.same b'.table
  nearColumn : sameName b.nearColumn b'.nearColumn
  farColumn : sameName b.farColumn b'.farColumn
  farTable : b.farTable.same b'.farTable
  farKey : sameName b.farKey b'.farKey

/-- One shape in two spellings. -/
inductive Shape.Respelled : Shape → Shape → Prop
  | plain : Respelled .plain .plain
  | bridge {b b' : Bridge} (bridges : b.Respelled b') : Respelled (.bridge b) (.bridge b')
  | suspected {reason reason' : String} : Respelled (.suspected reason) (.suspected reason')

/-- One reference that enters a table in two spellings. -/
structure Incoming.Respelled (i i' : Incoming) : Prop where
  reference : i.reference.Respelled i'.reference
  shape : i.shape.Respelled i'.shape

/-- One foreign key of the column next to a reference in two spellings. -/
structure Sibling.Respelled (s s' : Sibling) : Prop where
  column : sameName s.column s'.column
  target : s.target.same s'.target
  targetColumn : sameName s.targetColumn s'.targetColumn

/-- Two errors of one kind. -/
inductive LookupError.SameKind : LookupError → LookupError → Prop
  | unknownTable {t t' : String} : SameKind (.unknownTable t) (.unknownTable t')
  | noKey {t t' : String} : SameKind (.noKey t) (.noKey t')
  | severalColumns {fk fk' t t' : String} : SameKind (.severalColumns fk t) (.severalColumns fk' t')

/-- Two pairs of columns that are the same. -/
def SameColumns (cols cols' : String × String) : Prop :=
  sameName cols.1 cols'.1 ∧ sameName cols.2 cols'.2

theorem ForeignKey.Respelled.columns? {fk fk' : ForeignKey} (h : fk.Respelled fk') :
    Option.Rel SameColumns fk.columns? fk'.columns? := by
  unfold ForeignKey.columns?
  with_reducible refine List.Forall₂.casesOn h.sourceColumns .none fun hc hcs => ?_
  with_reducible refine List.Forall₂.casesOn hcs ?_ fun _ _ => .none
  with_reducible refine List.Forall₂.casesOn h.targetColumns .none fun hp hps => ?_
  with_reducible refine List.Forall₂.casesOn hps ?_ fun _ _ => .none
  exact .some ⟨hc, hp⟩

namespace Table.Respelled

variable {d d' : Table} (h : d.Respelled d') {c c' : String} (hc : sameName c c')
include h

theorem key? : Option.Rel (fun k k' => sameName k k') d.key? d'.key? := by
  unfold Table.key?
  with_reducible refine List.Forall₂.casesOn h.primaryKey .none fun hk hks => ?_
  with_reducible exact List.Forall₂.casesOn hks (.some hk) fun _ _ => .none

include hc

theorem column? : Option.Rel Column.Respelled (d.column? c) (d'.column? c') :=
  forall₂_find? h.columns fun _ _ hcol => sameName_congr hcol.name hc

theorem isKey : d.isKey c = d'.isKey c' := by
  unfold Table.isKey
  with_reducible exact Option.Rel.casesOn h.key? (fun hk => sameName_congr hk hc) rfl

theorem keyContains : d.keyContains c = d'.keyContains c' :=
  forall₂_any h.primaryKey fun _ _ hk => sameName_congr hk hc

theorem isNullable : d.isNullable c = d'.isNullable c' := by
  unfold Table.isNullable
  with_reducible exact Option.Rel.casesOn (h.column? hc) (fun hcol => hcol.nullable) rfl

theorem siblings : List.Forall₂ Sibling.Respelled (d.siblings c) (d'.siblings c') := by
  refine List.rel_filterMap (fun fk fk' hfk => ?_) h.foreignKeys
  with_reducible refine Option.Rel.casesOn hfk.columns? (fun {cols cols'} hcols => ?_) .none
  dsimp only
  rw [sameName_congr hcols.1 hc]
  split
  · exact .none
  · exact .some ⟨hcols.1, hfk.target, hcols.2⟩

omit hc

variable {r r' : Reference} (hr : r.Respelled r')
include hr

theorem bridge? : Option.Rel Bridge.Respelled (d.bridge? r) (d'.bridge? r') := by
  have hfar := forall₂_find? h.primaryKey (p := fun k => !sameName k r.childColumn)
    (q := fun k => !sameName k r'.childColumn) fun _ _ hk => by
      rw [sameName_congr hk hr.childColumn]
  unfold Table.bridge?
  rw [h.primaryKey.length_eq, h.keyContains hr.childColumn, hr.nullable]
  split
  · with_reducible refine Option.Rel.casesOn hfar (fun {far far'} hfar => ?_) .none
    have hsibling := forall₂_find? (h.siblings hr.childColumn) (p := fun s => sameName s.column far)
      (q := fun s => sameName s.column far') fun _ _ hs => sameName_congr hs.column hfar
    simp only [Option.bind_eq_bind, Option.bind_some]
    with_reducible refine Option.Rel.casesOn hsibling (fun {s s'} hs => ?_) .none
    rw [Option.bind_some, Option.bind_some, h.isNullable hs.column]
    split
    · exact .none
    · exact .some ⟨hr.child, hr.childColumn, hs.column, hs.target, hs.targetColumn⟩
  · exact .none

theorem isOnlyLinks {c c' : String} (hc : sameName c c') :
    d.isOnlyLinks r.childColumn c = d'.isOnlyLinks r'.childColumn c' := by
  refine forall₂_all h.columns fun col col' hcol => ?_
  simp only [Column.isNamed, sameName_congr hcol.name hr.childColumn, sameName_congr hcol.name hc,
    h.keyContains hcol.name]

/-- A table is suspected in both spellings or in none. -/
theorem suspicion? : Option.Rel (fun _ _ => True) (d.suspicion? r) (d'.suspicion? r') := by
  -- the reasons are texts that quote names, so only that there is one can agree
  unfold Table.suspicion?
  have hsiblings := h.siblings hr.childColumn
  with_reducible refine List.Forall₂.casesOn hsiblings .none fun {s s' _ _} hs hrest => ?_
  with_reducible refine List.Forall₂.casesOn hrest ?_ fun _ _ => .none
  dsimp only
  rw [hr.nullable, h.isNullable hs.column, h.isOnlyLinks hr hs.column]
  split
  · exact .none
  · split
    · exact .some trivial
    · exact .none

theorem shape : (d.shape r).Respelled (d'.shape r') := by
  unfold Table.shape
  rw [hr.childIsKey]
  split
  · exact .plain
  · with_reducible refine Option.Rel.casesOn (h.bridge? hr) (fun hb => .bridge hb) ?_
    with_reducible exact Option.Rel.casesOn (h.suspicion? hr) (fun _ => .suspected) .plain

end Table.Respelled

theorem Reference.Respelled.isSelf {r r' : Reference} (hr : r.Respelled r') :
    r.isSelf = r'.isSelf := TableName.same_congr hr.child hr.parent

/-! ## What a schema is asked -/

namespace Schema.Respelled

variable {g g' : Schema} (h : g.Respelled g') {t t' : TableName} {fk fk' : ForeignKey}
variable {r r' : Reference} {rs rs' : List Reference}
include h

section Tables

variable (ht : t.same t')
include ht

theorem table? : Option.Rel Table.Respelled (g.table? t) (g'.table? t') :=
  forall₂_find? h.tables fun _ _ hd => TableName.same_congr hd.name ht

theorem lookup : EndAlike LookupError.SameKind Table.Respelled (g.lookup t) (g'.lookup t') := by
  unfold Schema.lookup
  with_reducible exact Option.Rel.casesOn (h.table? ht) (fun hd => .ok hd) (.error .unknownTable)

theorem keyColumn :
    EndAlike LookupError.SameKind (fun k k' => sameName k k') (g.keyColumn t)
      (g'.keyColumn t') := by
  unfold Schema.keyColumn
  with_reducible refine EndAlike.casesOn (h.lookup ht) (fun he => .error he) fun hd => ?_
  dsimp only
  with_reducible exact Option.Rel.casesOn hd.key? (fun hk => .ok hk) (.error .noKey)

theorem hasColumn {c c' : String} (hc : sameName c c') :
    EndAlike LookupError.SameKind Eq (g.hasColumn t c) (g'.hasColumn t' c') := by
  refine (h.lookup ht).map fun _ _ hd => ?_
  with_reducible exact Option.Rel.casesOn (hd.column? hc) (fun _ => rfl) rfl

theorem foreignKeysTo :
    List.Forall₂ ForeignKey.Respelled (g.foreignKeysTo t) (g'.foreignKeysTo t') :=
  forall₂_filter (List.rel_flatMap h.tables fun _ _ hd => hd.foreignKeys)
    fun _ _ hfk => TableName.same_congr hfk.target ht

end Tables

/-- A foreign key stands for one reference. -/
theorem resolve (hfk : fk.Respelled fk') :
    EndAlike LookupError.SameKind Reference.Respelled (g.resolve fk) (g'.resolve fk') := by
  unfold Schema.resolve
  with_reducible refine Option.Rel.casesOn hfk.columns? (fun hcols => ?_) (.error .severalColumns)
  with_reducible refine EndAlike.casesOn (h.lookup hfk.source) (fun he => .error he) fun hd => ?_
  with_reducible refine EndAlike.casesOn (h.lookup hfk.target) (fun he => .error he) fun _ => ?_
  exact .ok ⟨hfk.source, hcols.1, hfk.target, hcols.2, hd.isNullable hcols.1, hd.isKey hcols.1⟩

theorem outgoing (ht : t.same t') : EndAlike LookupError.SameKind
    (List.Forall₂ Reference.Respelled) (g.outgoing t) (g'.outgoing t') := by
  unfold Schema.outgoing
  with_reducible refine EndAlike.casesOn (h.lookup ht) (fun he => .error he) fun hd => ?_
  exact .mapM hd.foreignKeys fun _ _ hfk => h.resolve hfk

theorem selfReferences (ht : t.same t') : EndAlike LookupError.SameKind
    (List.Forall₂ Reference.Respelled) (g.selfReferences t) (g'.selfReferences t') :=
  (h.outgoing ht).map fun _ _ hrs => forall₂_filter hrs fun _ _ hr => hr.isSelf

/-! ### References that enter a table -/

theorem shapeOf (hr : r.Respelled r') :
    EndAlike LookupError.SameKind Shape.Respelled (g.shapeOf r) (g'.shapeOf r') := by
  unfold Schema.shapeOf
  rw [hr.childIsKey]
  split
  · exact .ok .plain
  · exact (h.lookup hr.child).map fun _ _ hd => hd.shape hr

theorem enter (hfk : fk.Respelled fk') : EndAlike LookupError.SameKind
    (Option.Rel Incoming.Respelled) (g.enter fk) (g'.enter fk') := by
  unfold Schema.enter
  with_reducible refine EndAlike.casesOn (h.resolve hfk) (fun he => .error he) fun {r r'} hr => ?_
  dsimp only
  rw [hr.isSelf]
  split
  · exact .ok .none
  · exact (h.shapeOf hr).map fun _ _ hs => .some ⟨hr, hs⟩

theorem incoming (ht : t.same t') : EndAlike LookupError.SameKind
    (List.Forall₂ Incoming.Respelled) (g.incoming t) (g'.incoming t') := by
  unfold Schema.incoming
  with_reducible refine EndAlike.casesOn (h.lookup ht) (fun he => .error he) fun _ => ?_
  exact (EndAlike.mapM (h.foreignKeysTo ht) fun _ _ hfk => h.enter hfk).map fun _ _ hfound =>
    List.rel_filterMap (fun _ _ hi => hi) hfound

/-! ### Subtypes -/

theorem isSubtypeLink (hr : r.Respelled r') :
    EndAlike LookupError.SameKind Eq (g.isSubtypeLink r) (g'.isSubtypeLink r') := by
  unfold Schema.isSubtypeLink
  rw [hr.childIsKey, hr.isSelf]
  split
  · exact .ok rfl
  · exact (h.lookup hr.parent).map fun _ _ hd => hd.isKey hr.parentColumn

theorem isPlainReference (hr : r.Respelled r') :
    EndAlike LookupError.SameKind Eq (g.isPlainReference r) (g'.isPlainReference r') := by
  unfold Schema.isPlainReference
  rw [hr.isSelf]
  split
  · exact .ok rfl
  · exact (h.isSubtypeLink hr).map fun _ _ hlink => by rw [hlink]

theorem firstSubtypeLink (hrs : List.Forall₂ Reference.Respelled rs rs') :
    EndAlike LookupError.SameKind (Option.Rel Reference.Respelled) (g.firstSubtypeLink rs)
      (g'.firstSubtypeLink rs') := by
  induction hrs with
  | nil => exact .ok .none
  | cons hr _ ih =>
    unfold Schema.firstSubtypeLink
    have hlinks := h.isSubtypeLink hr
    with_reducible refine EndAlike.casesOn hlinks (fun he => .error he) fun {link _} hlink => ?_
    subst hlink
    cases link with
    | true => exact .ok (.some hr)
    | false => exact ih

theorem parentLink (ht : t.same t') : EndAlike LookupError.SameKind
    (Option.Rel Reference.Respelled) (g.parentLink t) (g'.parentLink t') := by
  unfold Schema.parentLink
  with_reducible refine EndAlike.casesOn (h.outgoing ht) (fun he => .error he) fun hrs => ?_
  exact h.firstSubtypeLink hrs

theorem referenced (ht : t.same t') : EndAlike LookupError.SameKind
    (List.Forall₂ Reference.Respelled) (g.referenced t) (g'.referenced t') := by
  unfold Schema.referenced
  with_reducible refine EndAlike.casesOn (h.outgoing ht) (fun he => .error he) fun hrs => ?_
  exact .filterM hrs fun _ _ hr => h.isPlainReference hr

theorem addSubtype {found found' : List TableName} (hfound : SameTables found found')
    (hfk : fk.Respelled fk') : EndAlike LookupError.SameKind SameTables (g.addSubtype found fk)
      (g'.addSubtype found' fk') := by
  unfold Schema.addSubtype
  with_reducible refine EndAlike.casesOn (h.resolve hfk) (fun he => .error he) fun {r r'} hr => ?_
  dsimp only
  have hlinks := h.isSubtypeLink hr
  with_reducible refine EndAlike.casesOn hlinks (fun he => .error he) fun {link _} hlink => ?_
  subst hlink
  dsimp only
  rw [hfound.isIn hr.child]
  split
  · exact .ok (List.rel_append hfound (.cons hr.child .nil))
  · exact .ok hfound

theorem subtypes (ht : t.same t') :
    EndAlike LookupError.SameKind SameTables (g.subtypes t) (g'.subtypes t') :=
  .foldlM (h.foreignKeysTo ht) (fun _ _ _ _ hfound hfk => h.addSubtype hfound hfk) .nil

/-- One step down the subtypes is the same in both schemas, if what follows it
is. -/
theorem classesBelow_step {rest rest' visited visited' : List TableName} {found : List Int}
    (ht : t.same t') (hvisited : SameTables visited visited')
    (hold : t.isIn visited = true → EndAlike LookupError.SameKind Eq
      (g.classesBelow rest visited found) (g'.classesBelow rest' visited' found))
    (hnew : ∀ d below below', t.isIn visited = false → g.table? t = some d →
      g.subtypes t = .ok below → SameTables below below' →
        EndAlike LookupError.SameKind Eq
          (g.classesBelow (below ++ rest) (t :: visited) (found ++ d.classes))
          (g'.classesBelow (below' ++ rest') (t' :: visited') (found ++ d.classes))) :
    EndAlike LookupError.SameKind Eq (g.classesBelow (t :: rest) visited found)
      (g'.classesBelow (t' :: rest') visited' found) := by
  have htables := h.table? ht
  have hsubtypes := h.subtypes ht
  rw [classesBelow_cons, classesBelow_cons, ← hvisited.isIn ht]
  split
  · rename_i hin
    exact hold hin
  · rename_i hin
    generalize g.table? t = known, g'.table? t' = known' at htables hnew ⊢
    generalize g.subtypes t = below, g'.subtypes t' = below' at hsubtypes hnew ⊢
    cases htables with
    | none => exact .error .unknownTable
    | @some d d' hd =>
      cases hsubtypes with
      | error he => exact .error he
      | @ok below below' hbelow =>
        dsimp only
        rw [← hd.classes]
        exact hnew d below below' (by simpa using hin) rfl rfl hbelow

/-- The walk down the subtypes takes the same steps in both schemas. -/
theorem classesBelow {pending pending' visited visited' : List TableName} {found : List Int}
    (hpending : SameTables pending pending') (hvisited : SameTables visited visited') :
    EndAlike LookupError.SameKind Eq (g.classesBelow pending visited found)
      (g'.classesBelow pending' visited' found) := by
  -- the cases are those of the walk in `g`; the step lemma says that `g'` takes the same one
  induction pending, visited, found using Schema.classesBelow.induct (g := g)
    generalizing pending' visited' with
  | case1 visited found =>
    cases hpending
    rw [Schema.classesBelow, Schema.classesBelow]
    exact .ok rfl
  | case2 visited found t rest hold ih =>
    obtain ⟨t', rest', ht, hrest, rfl⟩ := List.forall₂_cons_left_iff.1 hpending
    refine h.classesBelow_step ht hvisited (fun _ => ih hrest hvisited) fun _ _ _ hin => ?_
    rw [hold] at hin
    cases hin
  | case3 visited found t rest hnew hnone =>
    obtain ⟨t', rest', ht, hrest, rfl⟩ := List.forall₂_cons_left_iff.1 hpending
    refine h.classesBelow_step ht hvisited (fun hin => absurd hin hnew) fun _ _ _ _ hknown => ?_
    rw [hnone] at hknown
    cases hknown
  | case4 visited found t rest hnew d hd e herror =>
    obtain ⟨t', rest', ht, hrest, rfl⟩ := List.forall₂_cons_left_iff.1 hpending
    refine h.classesBelow_step ht hvisited (fun hin => absurd hin hnew) fun _ _ _ _ _ hbelow => ?_
    rw [herror] at hbelow
    cases hbelow
  | case5 visited found t rest hnew d hd below hbelow ih =>
    obtain ⟨t', rest', ht, hrest, rfl⟩ := List.forall₂_cons_left_iff.1 hpending
    refine h.classesBelow_step ht hvisited (fun hin => absurd hin hnew)
      fun d₁ below₁ below' _ hd₁ hbelow₁ hsame => ?_
    rw [hd, Option.some.injEq] at hd₁
    rw [hbelow, Except.ok.injEq] at hbelow₁
    subst hd₁
    subst hbelow₁
    exact ih (List.rel_append hsame hrest) (.cons ht hvisited)

end Schema.Respelled

/-! ### Class maps -/

namespace Schema

/-- Class maps with the same tables for the same classes. -/
abbrev ClassMap.Respelled : ClassMap → ClassMap → Prop :=
  List.Forall₂ fun e e' => e.1 = e'.1 ∧ e.2.same e'.2

variable {m m' : ClassMap} {t t' : TableName}

theorem ClassMap.Respelled.insertNew (hm : ClassMap.Respelled m m') (ht : t.same t') (c : Int) :
    ClassMap.Respelled (m.insertNew c t) (m'.insertNew c t') := by
  induction hm with
  | nil => exact .cons ⟨rfl, ht⟩ .nil
  | @cons e e' rest rest' he hrest ih =>
    obtain ⟨d, u⟩ := e
    obtain ⟨d', u'⟩ := e'
    obtain ⟨hd, hu⟩ := he
    dsimp only at hd hu
    subst hd
    unfold ClassMap.insertNew
    split
    · exact .cons ⟨rfl, ht⟩ (.cons ⟨rfl, hu⟩ hrest)
    · split
      · exact .cons ⟨rfl, hu⟩ hrest
      · exact .cons ⟨rfl, hu⟩ ih

theorem ClassMap.Respelled.classesOf (hm : ClassMap.Respelled m m') (ht : t.same t') :
    m.classesOf t = m'.classesOf t' := by
  unfold ClassMap.classesOf
  have hkept := forall₂_filter hm (p := fun e => e.2.same t) (q := fun e => e.2.same t')
    fun _ _ he => TableName.same_congr he.2 ht
  rw [← List.forall₂_eq_eq_eq, List.forall₂_map_left_iff, List.forall₂_map_right_iff]
  exact hkept.imp fun _ _ he => he.1

variable {g g' : Schema} (h : g.Respelled g') (ht : t.same t')
include h ht

theorem Respelled.enterClasses (hm : ClassMap.Respelled m m') {u u' : TableName} (hu : u.same u') :
    EndAlike LookupError.SameKind ClassMap.Respelled (g.enterClasses t m u)
      (g'.enterClasses t' m' u') := by
  have hbelow : EndAlike LookupError.SameKind Eq (g.classesBelow [u] [t] [])
      (g'.classesBelow [u'] [t'] []) := h.classesBelow (.cons hu .nil) (.cons ht .nil)
  unfold Schema.enterClasses
  with_reducible refine EndAlike.casesOn hbelow (fun he => .error he) fun {classes _} heq => ?_
  subst heq
  refine .ok ?_
  -- both maps enter one list of classes
  induction classes generalizing m m' with
  | nil => exact hm
  | cons c classes ih => exact ih (hm.insertNew hu c)

theorem Respelled.classMap :
    EndAlike LookupError.SameKind ClassMap.Respelled (g.classMap t) (g'.classMap t') := by
  unfold Schema.classMap
  with_reducible refine EndAlike.casesOn (h.subtypes ht) (fun he => .error he) fun hsubtypes => ?_
  exact .foldlM hsubtypes (fun _ _ _ _ hm hu => h.enterClasses ht hm hu) .nil

end Schema

end DeleteCascade
