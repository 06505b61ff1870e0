import DeleteCascade.Proofs.Json.Record
import DeleteCascade.Proofs.Json.RoundTrip
import DeleteCascade.Schema.Snapshot
/-!
# Schemas — snapshots read back

A schema that was written is read back field by field (`Schema.ofJson?_toJson`),
and what a snapshot leaves out is put in from its name: `Schema.FilledIn` says
of two schemas that the one is the other with every missing schema name filled
in, and nothing else. A filled-in schema that is written and loaded again stays
as it is.
-/

namespace DeleteCascade

open Json (fields?_record)
open Json.Fields (get?_cons getD?_cons)

/-! ## The document of a schema -/

namespace Column

theorem ofJson?_toJson (c : Column) : ofJson? c.toJson = some c := by
  unfold ofJson? toJson
  rw [fields?_record rfl (by simp)]
  simp [get?_cons]

end Column

namespace ForeignKey

theorem ofJson?_toJson (fk : ForeignKey) : ofJson? fk.toJson = some fk := by
  unfold ofJson? toJson
  rw [fields?_record rfl (by simp)]
  simp [get?_cons, getD?_cons, OnDelete.lookup_name]

end ForeignKey

namespace OwnershipRecord

theorem ofJson?_toJson (r : OwnershipRecord) : ofJson? r.toJson = some r := by
  unfold ofJson? toJson
  rw [fields?_record rfl (by simp)]
  simp [get?_cons, getD?_cons, Relation.lookup_name]

end OwnershipRecord

/-- The object classes of a table are numbers of 32 bits. -/
def Table.ClassesFit (t : Table) : Prop :=
  ∀ c ∈ t.classes, -2147483648 ≤ c ∧ c ≤ 2147483647

namespace Table

theorem ofJson?_toJson {t : Table} (h : t.ClassesFit) : ofJson? t.toJson = some t := by
  have hcolumns : Json.list? Column.ofJson? (.list Column.toJson t.columns) = some t.columns :=
    Json.list?_list fun c _ => c.ofJson?_toJson
  have hkeys : Json.list? ForeignKey.ofJson? (.list ForeignKey.toJson t.foreignKeys) =
      some t.foreignKeys :=
    Json.list?_list fun fk _ => fk.ofJson?_toJson
  have hclasses : Json.list? Json.int32? (.list Json.int t.classes) = some t.classes :=
    Json.list?_list fun c hc => Json.int32?_int (h c hc)
  unfold ofJson? toJson
  rw [fields?_record rfl (by simp)]
  simp [get?_cons, getD?_cons, hcolumns, hkeys, hclasses]

end Table

/-- All object classes are numbers of 32 bits. -/
def Schema.ClassesFit (g : Schema) : Prop := ∀ t ∈ g.tables, t.ClassesFit

namespace Schema

/-- **A schema that was written is read back.** -/
theorem ofJson?_toJson {g : Schema} (h : g.ClassesFit) : ofJson? g.toJson = some g := by
  have htables : Json.list? Table.ofJson? (.list Table.toJson g.tables) = some g.tables :=
    Json.list?_list fun t ht => Table.ofJson?_toJson (h t ht)
  have hownership : Json.list? OwnershipRecord.ofJson? (.list OwnershipRecord.toJson g.ownership) =
      some g.ownership :=
    Json.list?_list fun r _ => r.ofJson?_toJson
  unfold ofJson? toJson
  rw [fields?_record rfl (by simp)]
  simp [get?_cons, getD?_cons, htables, hownership]

end Schema

/-! ## Its text -/

namespace Json

theorem plain_list {α : Type} {encode : α → Json} {items : List α}
    (h : ∀ a ∈ items, Plain (encode a)) : Plain (list encode items) := by
  refine .array fun v hv => ?_
  obtain ⟨a, ha, rfl⟩ := List.mem_map.1 hv
  exact h a ha

theorem plain_texts (items : List String) : Plain (texts items) := plain_list fun s _ => .text s

theorem plain_textOrNull (s : Option String) : Plain (textOrNull s) := by
  cases s with
  | none => exact .null
  | some s => exact .text s

theorem plain_record {members : List (String × Json)} (h : ∀ m ∈ members, Plain m.2) :
    Plain (record members) := by
  refine .object (fun written hwritten => ?_) fun written hwritten => ?_
  · obtain ⟨m, -, rfl⟩ := List.mem_map.1 hwritten
    rfl
  · obtain ⟨m, hm, rfl⟩ := List.mem_map.1 hwritten
    exact h m hm

end Json

theorem Column.plain_toJson (c : Column) : c.toJson.Plain := by
  refine Json.plain_record ?_
  simp only [List.forall_mem_cons]
  exact ⟨.text _, .text _, .bool _, List.forall_mem_nil _⟩

theorem ForeignKey.plain_toJson (fk : ForeignKey) : fk.toJson.Plain := by
  refine Json.plain_record ?_
  simp only [List.forall_mem_cons]
  exact ⟨.text _, .text _, .text _, Json.plain_texts _, .text _, .text _, Json.plain_texts _,
    .text _, List.forall_mem_nil _⟩

theorem Table.plain_toJson (t : Table) : t.toJson.Plain := by
  refine Json.plain_record ?_
  simp only [List.forall_mem_cons]
  exact ⟨.text _, .text _, Json.plain_list fun c _ => c.plain_toJson, Json.plain_texts _,
    Json.plain_list fun fk _ => fk.plain_toJson, Json.plain_list fun c _ => .int c,
    List.forall_mem_nil _⟩

theorem OwnershipRecord.plain_toJson (r : OwnershipRecord) : r.toJson.Plain := by
  refine Json.plain_record ?_
  simp only [List.forall_mem_cons]
  exact ⟨.text _, .text _, Json.plain_textOrNull _, .text _, List.forall_mem_nil _⟩

namespace Schema

theorem plain_toJson (g : Schema) : g.toJson.Plain := by
  refine Json.plain_record ?_
  simp only [List.forall_mem_cons]
  exact ⟨.text _, Json.plain_list fun t _ => t.plain_toJson,
    Json.plain_list fun r _ => r.plain_toJson, List.forall_mem_nil _⟩

/-- **The text of a schema is read back as its document.** -/
theorem parse?_render_toJson (g : Schema) : Json.parse? g.toJson.render = some g.toJson :=
  Json.parse?_render g.plain_toJson

end Schema

/-! ## What is filled in -/

/-- One name is the other with the schema put in if that names none. -/
structure TableName.FilledIn (schema : String) (t u : TableName) : Prop where
  name : u.name = t.name
  missing : t.schema = "" → u.schema = schema
  given : t.schema ≠ "" → u.schema = t.schema

/-- One foreign key is the other with the schema put in at both ends. -/
structure ForeignKey.FilledIn (schema : String) (fk filled : ForeignKey) : Prop where
  name : filled.name = fk.name
  source : fk.source.FilledIn schema filled.source
  sourceColumns : filled.sourceColumns = fk.sourceColumns
  target : fk.target.FilledIn schema filled.target
  targetColumns : filled.targetColumns = fk.targetColumns
  onDelete : filled.onDelete = fk.onDelete

/-- One table is the other with the schema put in, also into its keys. -/
structure Table.FilledIn (schema : String) (t filled : Table) : Prop where
  name : t.name.FilledIn schema filled.name
  columns : filled.columns = t.columns
  primaryKey : filled.primaryKey = t.primaryKey
  foreignKeys : List.Forall₂ (ForeignKey.FilledIn schema) t.foreignKeys filled.foreignKeys
  classes : filled.classes = t.classes

/-- **One schema is the other with its name put in** for every schema name that
is missing in it, and nothing else is changed. -/
structure Schema.FilledIn (g filled : Schema) : Prop where
  name : filled.name = g.name
  tables : List.Forall₂ (Table.FilledIn g.name) g.tables filled.tables
  ownership : filled.ownership = g.ownership

/-- Lists that are related item by item by a function are equal through it. -/
theorem forall₂_iff_eq_map {α β : Type} {R : α → β → Prop} {f : α → β}
    (h : ∀ a b, R a b ↔ b = f a) (as : List α) (bs : List β) :
    List.Forall₂ R as bs ↔ bs = as.map f := by
  have hR : R = fun a b => f a = b := by
    funext a b
    exact propext ((h a b).trans eq_comm)
  rw [hR, ← List.forall₂_map_left_iff, List.forall₂_eq_eq_eq, eq_comm]

theorem TableName.filledIn_iff {schema : String} {t u : TableName} :
    t.FilledIn schema u ↔ u = t.qualify schema := by
  have hqualify : t.qualify schema = if t.schema = "" then { t with schema } else t :=
    if_congr String.isEmpty_iff rfl rfl
  rw [hqualify]
  constructor
  · intro h
    -- a name that is missing and one that is given are told by different fields
    obtain ⟨hname, hmissing, hgiven⟩ := h
    obtain ⟨schema', name⟩ := u
    obtain rfl : name = t.name := hname
    split
    · rename_i hnone
      rw [show schema' = schema from hmissing hnone]
    · rename_i hsome
      rw [show schema' = t.schema from hgiven hsome]
  · rintro rfl
    split
    · rename_i hnone
      exact ⟨rfl, fun _ => rfl, fun hsome => absurd hnone hsome⟩
    · rename_i hsome
      exact ⟨rfl, fun hnone => absurd hnone hsome, fun _ => rfl⟩

theorem ForeignKey.filledIn_iff {schema : String} {fk filled : ForeignKey} :
    fk.FilledIn schema filled ↔ filled =
      { fk with source := fk.source.qualify schema, target := fk.target.qualify schema } := by
  constructor
  · intro h
    obtain ⟨name, source, sourceColumns, target, targetColumns, onDelete⟩ := filled
    obtain ⟨rfl, hsource, rfl, htarget, rfl, rfl⟩ := h
    rw [TableName.filledIn_iff] at hsource htarget
    obtain rfl := hsource
    obtain rfl := htarget
    rfl
  · rintro rfl
    exact ⟨rfl, TableName.filledIn_iff.2 rfl, rfl, TableName.filledIn_iff.2 rfl, rfl, rfl⟩

theorem Table.filledIn_iff {schema : String} {t filled : Table} :
    t.FilledIn schema filled ↔ filled =
      { t with
        name := t.name.qualify schema
        foreignKeys := t.foreignKeys.map fun fk =>
          { fk with source := fk.source.qualify schema, target := fk.target.qualify schema } } := by
  have hfill :=
    forall₂_iff_eq_map (R := ForeignKey.FilledIn schema) fun _ _ => ForeignKey.filledIn_iff
  constructor
  · intro h
    obtain ⟨name, columns, primaryKey, foreignKeys, classes⟩ := filled
    obtain ⟨hname, rfl, rfl, hkeys, rfl⟩ := h
    obtain rfl := TableName.filledIn_iff.1 hname
    obtain rfl := (hfill _ _).1 hkeys
    rfl
  · rintro rfl
    exact ⟨TableName.filledIn_iff.2 rfl, rfl, rfl, (hfill _ _).2 rfl, rfl⟩

namespace Schema

variable {g filled : Schema} {schema : String}

/-- Filling in is what loading does. -/
theorem filledIn_iff : g.FilledIn filled ↔ filled = g.qualify := by
  have hfill := forall₂_iff_eq_map (R := Table.FilledIn g.name) fun _ _ => Table.filledIn_iff
  constructor
  · intro h
    obtain ⟨name, tables, ownership⟩ := filled
    obtain ⟨rfl, htables, rfl⟩ := h
    obtain rfl := (hfill _ _).1 htables
    rfl
  · rintro rfl
    exact ⟨rfl, (hfill _ _).2 rfl, rfl⟩

/-- Nothing is missing after that. -/
theorem qualify_qualify (hname : g.name ≠ "") : g.qualify.qualify = g.qualify := by
  have hagain (t : TableName) : (t.qualify g.name).qualify g.name = t.qualify g.name := by
    unfold TableName.qualify
    by_cases hnone : t.schema.isEmpty = true
    · rw [if_pos hnone, if_neg (by simpa using hname)]
    · rw [if_neg hnone, if_neg hnone]
  simp [qualify, hagain]

theorem ClassesFit.qualify (h : g.ClassesFit) : g.qualify.ClassesFit := by
  intro t ht
  obtain ⟨t₀, ht₀, rfl⟩ := List.mem_map.1 ht
  exact h t₀ ht₀

/-! ## Snapshots loaded -/

/-- A schema that has a name is loaded from its document under that name. -/
theorem ofDocument_toJson (hname : g.name ≠ "") (hsame : sameName g.name schema = true)
    (hclasses : g.ClassesFit) : ofDocument schema g.toJson = .ok g.qualify := by
  unfold ofDocument
  rw [ofJson?_toJson hclasses]
  simp only
  rw [if_neg (by simpa using hname), if_pos hsame]

/-- **A snapshot is loaded as the schema that was written to it**, with its name
put in wherever a schema name is missing, and is not changed by being written
and loaded again. The snapshot may be any text that is read as the document of
the schema; the one that the schema is written as is such a text. -/
theorem ofSnapshot_toJson (hname : g.name ≠ "") (hsame : sameName g.name schema = true)
    (hclasses : g.ClassesFit) :
    Json.parse? g.toJson.render = some g.toJson ∧
    ∃ filled : Schema, g.FilledIn filled ∧ (∀ other, g.FilledIn other → other = filled) ∧
      (∀ text, Json.parse? text = some g.toJson →
        ofSnapshot schema (some text) = .ok filled ∧
          (ofSnapshot schema (some text)).map (·.ownership) = .ok g.ownership) ∧
      Json.parse? filled.toJson.render = some filled.toJson ∧
      ∀ text, Json.parse? text = some filled.toJson →
        ofSnapshot schema (some text) = .ok filled := by
  have hload {h : Schema} (hh : h.name ≠ "") (hsame : sameName h.name schema = true)
      (hfit : h.ClassesFit) {text : String} (htext : Json.parse? text = some h.toJson) :
      ofSnapshot schema (some text) = .ok h.qualify := by
    simp only [ofSnapshot, htext]
    exact ofDocument_toJson hh hsame hfit
  refine ⟨parse?_render_toJson g, g.qualify, filledIn_iff.2 rfl, fun other h => filledIn_iff.1 h,
    fun text htext => ?_, parse?_render_toJson _, fun text htext => ?_⟩
  · have hloaded := hload hname hsame hclasses htext
    refine ⟨hloaded, ?_⟩
    rw [hloaded]
    rfl
  · rw [hload (h := g.qualify) hname hsame hclasses.qualify htext, qualify_qualify hname]

/-- A schema with a table that lacks its own schema, a key to another one and a
link of any name. -/
def outpost : Schema :=
  ⟨"city",
    [⟨⟨"", "house"⟩, [⟨"id", "bigint", false⟩], ["id"], [], [26]⟩,
      ⟨⟨"fort", "gate"⟩, [⟨"id", "bigint", false⟩, ⟨"house", "bigint", true⟩], ["id"],
        [⟨"gate_house_fk", ⟨"fort", "gate"⟩, ["house"], ⟨"", "house"⟩, ["id"], .setNull⟩], [-1]⟩],
    [⟨"gate", "house", none, .aggregation⟩]⟩

/-- The outpost is loaded under its name in capital letters, with its name put
in at the house and at the end of the key that points there. -/
theorem ofSnapshot_toJson_outpost : sameName outpost.name "CITY" = true ∧
    outpost.ClassesFit ∧ ofSnapshot "CITY" (some outpost.toJson.render) = .ok
      ⟨"city",
        [⟨⟨"city", "house"⟩, [⟨"id", "bigint", false⟩], ["id"], [], [26]⟩,
          ⟨⟨"fort", "gate"⟩, [⟨"id", "bigint", false⟩, ⟨"house", "bigint", true⟩], ["id"],
            [⟨"gate_house_fk", ⟨"fort", "gate"⟩, ["house"], ⟨"city", "house"⟩, ["id"], .setNull⟩],
            [-1]⟩],
        [⟨"gate", "house", none, .aggregation⟩]⟩ := by
  have hsame : sameName outpost.name "CITY" = true := by decide +kernel
  have hfit : outpost.ClassesFit := by
    simp [ClassesFit, Table.ClassesFit, outpost]
  obtain ⟨hread, filled, hfilled, -, hload, -⟩ :=
    ofSnapshot_toJson (g := outpost) (by decide +kernel) hsame hfit
  refine ⟨hsame, hfit, ?_⟩
  rw [(hload _ hread).1, filledIn_iff.1 hfilled]
  decide +kernel

end Schema

end DeleteCascade
