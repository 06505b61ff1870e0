import DeleteCascade.Proofs.Catalog.Placement
import DeleteCascade.Proofs.Script.Identifiers
import DeleteCascade.Proofs.Script.Installed
/-!
# Catalog — which tables are asked for

Before object classes and aggregations are loaded, a probe asks whether the
schema has a table of them. The probe gives the server a text that it reads as a
name (`Query.probed?`), while the queries that follow name their tables with the
schema between quotes (`Query.named`). The queries name the schema as it is, and
the probe only finds it if it is a folded word (`Query.probed_iff`): any other
schema is passed over, or a table of another schema answers for it. What the
server answers then decides whether there are records
(`Connection.loadOwnership_of_answers`).
-/

namespace DeleteCascade

namespace Query

open Identifier (isNameChar IsWord IsFolded)

variable {schema table front rest : List Char}

/-! ## What a query names -/

/-- The table that a schema is put in front of with a dot, if any. -/
def behindDot (schema : List Char) : List Char → List (List Char × List Char)
  | '.' :: rest => [(schema, (rest.takeWhile isNameChar).map Char.toLower)]
  | _ => []

/-- The tables that a query names with the schema between quotes, in order. What
looks like one inside a literal is none. -/
def named : List Char → List (List Char × List Char)
  | [] => []
  | c :: cs =>
    if c = '\'' then
      match h : Quote.close? '\'' cs with
      | some (_, after) =>
        have := Quote.length_close? h
        named after
      | none => []
    else if c = '"' then
      match h : Quote.close? '"' cs with
      | some (schema, after) =>
        have := Quote.length_close? h
        behindDot schema after ++ named after
      | none => []
    else named cs
termination_by cs => cs.length

/-- Nothing is named in front of the first quote. -/
theorem named_append (h : '\'' ∉ front ∧ '"' ∉ front) : named (front ++ rest) = named rest := by
  induction front with
  | nil => rfl
  | cons c front ih =>
    simp only [List.mem_cons, not_or] at h
    rw [List.cons_append, named, if_neg (Ne.symm h.1.1), if_neg (Ne.symm h.2.1),
      ih ⟨h.1.2, h.2.2⟩]

theorem named_of_not_mem (h : '\'' ∉ front ∧ '"' ∉ front) : named front = [] := by
  have hnil : named (front ++ []) = named [] := named_append h
  rwa [List.append_nil, named] at hnil

/-- A literal is passed over. -/
theorem named_literal (s : String) (hrest : rest.head? ≠ some '\'') :
    named ((Quote.literal s).toList ++ rest) = named rest := by
  rw [Quote.toList_literal_append, named, if_pos rfl]
  split
  · rename_i hclose
    rw [Quote.close?_double _ hrest] at hclose
    cases hclose
    rfl
  · rename_i hclose
    rw [Quote.close?_double _ hrest] at hclose
    cases hclose

/-- A quoted schema is read as it was, with the table behind it. -/
theorem named_identifier (s : String) (hrest : rest.head? ≠ some '"') :
    named ((Quote.identifier s).toList ++ rest) = behindDot s.toList rest ++ named rest := by
  rw [Quote.toList_identifier_append, named, if_neg (by decide), if_pos rfl]
  split
  · rename_i hclose
    rw [Quote.close?_double _ hrest] at hclose
    cases hclose
    rfl
  · rename_i hclose
    rw [Quote.close?_double _ hrest] at hclose
    cases hclose

/-- **The query for object classes names its table in the schema itself.** -/
theorem named_objectClasses (schema : String) :
    named (objectClasses schema).toList = [(schema.toList, "objectclass".toList)] := by
  have hfields :
      "SELECT json_agg(json_build_object('id', oc.id, 'table_name', lower(oc.tablename)) ".toList =
        "SELECT json_agg(json_build_object(".toList ++ ((Quote.literal "id").toList ++
          (", oc.id, ".toList ++ ((Quote.literal "table_name").toList ++
            ", lower(oc.tablename)) ".toList))) := by
    simp [Quote.literal, Quote.double]
  unfold objectClasses
  rw [toList_ofLines]
  simp only [List.flatMap_cons, List.flatMap_nil, List.append_assoc, String.toList_append, hfields]
  -- two fields, then the schema
  iterate 2
    simp (disch := simp) only [named_append]
    rw [named_literal _ (by simp)]
  simp (disch := simp) only [named_append]
  rw [named_identifier _ (by simp)]
  simp (disch := simp) only [named_of_not_mem, List.append_nil]
  rfl

/-- **The query for aggregations names its tables in the schema itself.** -/
theorem named_aggregations (schema : String) :
    named (aggregations schema).toList = [(schema.toList, "aggregation_info".toList),
      (schema.toList, "objectclass".toList), (schema.toList, "objectclass".toList)] := by
  have hchild : "    'child', lower(c.tablename),".toList = "    ".toList ++
      ((Quote.literal "child").toList ++ ", lower(c.tablename),".toList) := by
    simp [Quote.literal, Quote.double]
  have hparent : "    'parent', lower(p.tablename),".toList = "    ".toList ++
      ((Quote.literal "parent").toList ++ ", lower(p.tablename),".toList) := by
    simp [Quote.literal, Quote.double]
  have hlink : "    'link', lower(ai.join_table_or_column_name),".toList = "    ".toList ++
      ((Quote.literal "link").toList ++ ", lower(ai.join_table_or_column_name),".toList) := by
    simp [Quote.literal, Quote.double]
  have hkind : "    'composite', ai.is_composite = 1".toList = "    ".toList ++
      ((Quote.literal "composite").toList ++ ", ai.is_composite = 1".toList) := by
    simp [Quote.literal, Quote.double]
  unfold aggregations
  rw [toList_ofLines]
  simp only [List.flatMap_cons, List.flatMap_nil, List.append_assoc, String.toList_append, hchild,
    hparent, hlink, hkind]
  -- four fields, then the schema three times
  iterate 4
    simp (disch := simp) only [named_append]
    rw [named_literal _ (by simp)]
  iterate 3
    simp (disch := simp) only [named_append]
    rw [named_identifier _ (by simp)]
  simp (disch := simp) only [named_of_not_mem, List.append_nil]
  rfl

/-! ## What a probe asks for -/

/-- The literals of a probe: the one name that the server is to look up. -/
theorem literals_relationExists (schema table : String) :
    Quote.literals (relationExists schema table).toList = [(schema ++ "." ++ table).toList] := by
  unfold relationExists
  rw [String.toList_append, String.toList_append, List.append_assoc,
    Quote.literals_append (by simp), Quote.literals_literal _ (by simp),
    Quote.literals_of_not_mem (by simp)]

/-- The table that a name means: it has a schema in front of it, and before that
possibly the database itself. -/
def relation? (database text : List Char) : Option (List Char × List Char) :=
  match Identifier.parts? text with
  | some [schema, table] => some (schema, table)
  | some [owner, schema, table] => if owner = database then some (schema, table) else none
  | _ => none

/-- The table that a probe asks a database for, if it is the name of one. -/
def probed? (database query : String) : Option (List Char × List Char) :=
  match Quote.literals query.toList with
  | [text] => relation? database.toList text
  | _ => none

/-- Whether a database answers a probe with yes, which has these tables. -/
def finds (database : String) (has : List Char → List Char → Bool) (query : String) : Bool :=
  (probed? database query).any fun (schema, table) => has schema table

theorem probed?_relationExists (database schema table : String) :
    probed? database (relationExists schema table) =
      relation? database.toList (schema.toList ++ '.' :: table.toList) := by
  unfold probed?
  rw [literals_relationExists]
  simp [String.toList_append]

/-- Three parts are too long to be of a name with one dot that was put there. -/
theorem relation?_eq_iff {database : List Char} (htable : IsFolded table) :
    relation? database (schema ++ '.' :: table) = some (schema, table) ↔ IsFolded schema := by
  rw [← Identifier.parts?_eq_iff htable, relation?]
  split
  · rename_i s t hparts
    rw [hparts]
    simp
  · rename_i owner s t hparts
    rw [hparts]
    have hlength := Identifier.length_parts? hparts
    constructor
    · intro h
      split at h
      · cases h
        simp only [List.flatten_cons, List.flatten_nil, List.length_append, List.length_cons,
          List.length_nil] at hlength
        omega
      · cases h
    · simp
  · rename_i htwo _
    constructor
    · intro h
      cases h
    · intro h
      exact absurd h (htwo _ _)

/-- A word is looked up in small letters. -/
theorem probed?_of_isWord {schema table : String} (database : String)
    (hschema : IsWord schema.toList) (htable : IsFolded table.toList) :
    probed? database (relationExists schema table) =
      some (schema.toList.map Char.toLower, table.toList) := by
  rw [probed?_relationExists, relation?, hschema.parts?_append htable.1, htable.2]

/-- A database answers for the schema itself if and only if that is what it was
asked for. -/
theorem forall_finds_iff {schema table : String} (database query : String) :
    (∀ has, finds database has query = has schema.toList table.toList) ↔
      probed? database query = some (schema.toList, table.toList) := by
  constructor
  · intro h
    -- of a database that has this one table, nothing else is found
    have honly := h fun s t => (s, t) == (schema.toList, table.toList)
    rw [beq_self_eq_true, finds, Option.any_eq_true] at honly
    obtain ⟨⟨s, t⟩, hfound, heq⟩ := honly
    rw [hfound, eq_of_beq heq]
  · intro h has
    rw [finds, h, Option.any_some]

/-- **The probes ask for the tables that the queries name**, if and only if the
schema is a folded word. The queries name the schema as it is, whatever its name. -/
theorem probed_iff (database schema : String) :
    named (objectClasses schema).toList = [(schema.toList, "objectclass".toList)] ∧
      named (aggregations schema).toList = [(schema.toList, "aggregation_info".toList),
        (schema.toList, "objectclass".toList), (schema.toList, "objectclass".toList)] ∧
      ∀ table ∈ ["objectclass", "aggregation_info"],
        (probed? database (relationExists schema table) = some (schema.toList, table.toList) ↔
          IsFolded schema.toList) ∧
        ((∀ has, finds database has (relationExists schema table) =
          has schema.toList table.toList) ↔ IsFolded schema.toList) := by
  refine ⟨named_objectClasses schema, named_aggregations schema, fun table htable => ?_⟩
  have hfolded : IsFolded table.toList := by
    revert table
    simp [IsFolded, IsWord, isNameChar]
  have hprobed : probed? database (relationExists schema table) =
      some (schema.toList, table.toList) ↔ IsFolded schema.toList := by
    rw [probed?_relationExists, relation?_eq_iff hfolded]
  exact ⟨hprobed, (forall_finds_iff database _).trans hprobed⟩

end Query

/-! ## What is loaded -/

namespace Connection

open Query (aggregations named probed? finds)

variable {c : Connection} {schema answer errors errors' : String} {found : Bool} {s : Scripted}
  {rest : List PsqlOutcome} {records : List OwnershipRecord}

/-- **The records of a schema are those of its aggregations** if the probe was
answered with yes. If it was not, there are none, and nothing more is asked. -/
theorem loadOwnership_of_answers (hprobe : c.CanAsk (Query.relationExists schema "aggregation_info"))
    (hquery : c.CanAsk (aggregations schema))
    (hanswers : s.answers = some (.finished true (if found then "t" else "f") errors ::
      .finished true answer errors' :: rest))
    (hrecords : Answer.records? Answer.aggregation? answer = some records) :
    ((c.loadOwnership Scripted.host schema).run.run s).1 =
      .ok (if found then records else []) := by
  obtain ⟨s₁, h₁, hs₁⟩ := query_of_answers hprobe hanswers
  unfold loadOwnership relationExists
  simp only [bind_assoc]
  rw [bind_eq_of_eq_ok h₁]
  cases found with
  | false =>
    have hno : (trim "f" == "t") = false := by decide
    simp only [pure_bind, Bool.false_eq_true, if_false, hno]
    rfl
  | true =>
    have hyes : (trim "t" == "t") = true := by decide
    obtain ⟨s₂, h₂, -⟩ := query_of_answers hquery hs₁
    simp only [pure_bind, if_true, hyes]
    rw [bind_eq_of_eq_ok h₂, readRecords_of_records? hrecords]

/-- A host on which a database answers a probe, and then this. -/
def probing (found : Bool) (answer : String) : Scripted :=
  .new .empty [] none
    (some [.finished true (if found then "t" else "f") "", .finished true answer ""])

/-- The answer with the rooms of a building. -/
def roomAnswer : String :=
  "[\x7b\"child\":\"room\",\"parent\":\"building\",\"link\":\"building_id\"," ++
    "\"composite\":true\x7d]"

/-- **A schema with a capital in its name is passed over.** It has both tables,
and the query for its aggregations names them, but the probe asks for one of
another schema. So its records are not loaded. -/
theorem not_probed_city :
    let has : List Char → List Char → Bool := fun schema _ => schema == "City".toList
    let found := finds "db" has (Query.relationExists "City" "aggregation_info")
    named (aggregations "City").toList = [("City".toList, "aggregation_info".toList),
        ("City".toList, "objectclass".toList), ("City".toList, "objectclass".toList)] ∧
      probed? "db" (Query.relationExists "City" "aggregation_info") =
        some ("city".toList, "aggregation_info".toList) ∧
      Answer.records? Answer.aggregation? roomAnswer =
        some [⟨"room", "building", some "building_id", .composition⟩] ∧
      ((catalog.loadOwnership Scripted.host "City").run.run (probing found roomAnswer)).1 =
        .ok [] := by
  intro has found
  have hprobed : probed? "db" (Query.relationExists "City" "aggregation_info") =
      some ("city".toList, "aggregation_info".toList) :=
    Query.probed?_of_isWord "db" (by simp [Identifier.IsWord, Identifier.isNameChar])
      (by simp [Identifier.IsFolded, Identifier.IsWord, Identifier.isNameChar])
  have hfound : found = false := by
    simp [found, finds, hprobed, has]
  have hrecords : Answer.records? Answer.aggregation? roomAnswer =
      some [⟨"room", "building", some "building_id", .composition⟩] := by decide +kernel
  have hquery : catalog.CanAsk (aggregations "City") :=
    catalog_canAsk (nul_notMem_ofLines (by decide +kernel))
  refine ⟨Query.named_aggregations "City", hprobed, hrecords, ?_⟩
  rw [loadOwnership_of_answers (catalog_canAsk (by decide +kernel)) hquery rfl hrecords, hfound]
  rfl

end Connection

end DeleteCascade
