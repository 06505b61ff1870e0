import DeleteCascade.Catalog.Query
import DeleteCascade.CommandLine.Run
import DeleteCascade.Proofs.Script.Literals
import DeleteCascade.Proofs.Synthesis.Closed
/-!
# Scripts — what an installation finds

An installation drops the functions that the one before it created, which it
looks up by schema and stem. A script defines its functions and nothing else
(`mem_definitions_script`), under names that the namer makes; the query lists
the functions of the schema that begin with the stem
(`lists_installedFunctions`). The script writes both in small letters, and the
query as they were given, so the two meet if they are in small letters to
begin with (`Config.lists_created`).
-/

namespace DeleteCascade

/-! ## What a script defines -/

namespace Sql

@[simp] theorem definitions_concat (parts : List Sql) :
    (concat parts).definitions = parts.flatMap definitions := by
  unfold concat
  induction parts with
  | nil => rfl
  | cons part parts ih => rw [List.foldr_cons, definitions, ih, List.flatMap_cons]

@[simp] theorem definitions_separated (separator : String) (parts : List Sql) :
    (separated separator parts).definitions = parts.flatMap definitions := by
  induction parts using separated.induct with
  | case1 => rfl
  | case2 part => simp [separated]
  | case3 part rest hrest ih => simp [separated, definitions, ih]

end Sql

namespace Postgres

open Sql (definitions)

@[simp] theorem definitions_unowned (table : TableName) (keyColumn : String)
    (owners : Option (List Owner)) (ids : Variable) :
    (unowned table keyColumn owners ids).definitions = [] := by
  rcases owners with _ | _ | ⟨o, owners⟩ <;> simp [unowned, ownerTests, definitions]

@[simp] theorem definitions_deleteUnowned (table : TableName) (keyColumn : String)
    (owners : Option (List Owner)) (ids : Variable) (callee : Callee) :
    (deleteUnowned table keyColumn owners ids callee).definitions = [] := by
  simp [deleteUnowned, definitions]

/-- The blocks of a function define nothing. -/
theorem definitions_block (f : DeleteFunction) (b : Block Callee) :
    (block f b).definitions = [] := by
  cases b with
  | selfParts b => cases hd : b.detach <;> simp [block, selfParts, addDeletedParts, hd, definitions]
  | childCascade b =>
    simp only [block, childCascade]
    split
    · simp [definitions]
    · split <;> simp [definitions]
  | bridgeCascade b =>
    simp only [block, bridgeCascade]
    split <;> simp [definitions]
  | subtypeDispatch b =>
    simp only [block, subtypeDispatch]
    split <;> simp [typedDispatch, subtypeCase, hook, definitions]
  | localDelete captured =>
    simp only [block, localDelete, Sql.definitions_concat]
    simp only [List.flatMap_cons, List.flatMap_nil, definitions, Sql.definitions_concat,
      List.nil_append, List.append_nil, List.flatMap_eq_nil_iff, List.mem_map]
    rintro _ ⟨⟨column, slot⟩, -, rfl⟩
    simp [definitions]
  | referencedCleanup b => simp [block, referencedCleanup, definitions]
  | parentCascade callee => simp [block, parentCascade, definitions]

@[simp] theorem definitions_function (f : DeleteFunction) : (function f).definitions = [f.name] := by
  have hblocks : (f.blocks.map (block f)).flatMap definitions = [] := by
    rw [List.flatMap_map, List.flatMap_eq_nil_iff]
    exact fun b _ => definitions_block f b
  simp [function, opening, closing, hblocks, definitions]

@[simp] theorem definitions_wrapper (f : DeleteFunction) : (wrapper f).definitions = [f.name] := by
  simp [wrapper, definitions]

/-- A script defines its functions. -/
theorem mem_definitions_script {ctx : ScriptContext} {fs : List DeleteFunction} {name : String} :
    name ∈ (script ctx fs).definitions ↔ ∃ f ∈ fs, f.name = name := by
  simp only [script, Sql.definitions_separated, List.flatMap_assoc, List.mem_flatMap]
  refine exists_congr fun f => and_congr_right fun _ => ?_
  cases ctx.wrappers <;> simp [eq_comm]

end Postgres

namespace Query

theorem toList_ofLines (lines : List String) :
    (ofLines lines).toList = "\n".toList ++
      ((lines.flatMap fun line => "            ".toList ++ (line.toList ++ "\n".toList)) ++
        "            ".toList) := by
  simp [ofLines, String.toList_append, List.flatMap_map]

/-- **The texts in the query for functions are the schema and the pattern.**
Whatever stands in them, neither ends before it should. -/
theorem literals_installedFunctions (schema stem : String) :
    Quote.literals (installedFunctions schema stem).toList =
      [schema.toList, (Quote.pattern stem ++ "%").toList] := by
  have hline {rest : List Char} : ("\n".toList ++ rest).head? ≠ some '\'' := by simp
  unfold installedFunctions Quote.startsWith
  generalize Quote.pattern stem ++ "%" = pattern
  rw [toList_ofLines]
  simp only [List.flatMap_cons, List.flatMap_nil, List.append_assoc, String.toList_append]
  simp (disch := simp) only [Quote.literals_append]
  rw [Quote.literals_literal _ hline]
  simp (disch := simp) only [Quote.literals_append]
  rw [Quote.literals_literal _ hline]
  simp (disch := simp) only [Quote.literals_of_not_mem, List.nil_append]

/-- **A query for functions lists one** if it asks for its schema, by the
first of its texts, and for names like its name, by the second. -/
def Lists (query schema name : String) : Prop :=
  ∃ nspname proname, Quote.literals query.toList = [nspname, proname] ∧
    schema.toList = nspname ∧ Like.accepts proname name.toList = true

/-- The functions that are listed are those of the schema that begin with
the stem. -/
theorem lists_installedFunctions {schema stem schema' name : String} :
    Lists (installedFunctions schema stem) schema' name ↔
      schema' = schema ∧ stem.toList <+: name.toList := by
  unfold Lists
  rw [literals_installedFunctions]
  constructor
  · rintro ⟨_, _, htexts, hschema, hname⟩
    cases htexts
    exact ⟨String.toList_inj.1 hschema, (Like.accepts_pattern _ _).1 hname⟩
  · rintro ⟨rfl, hname⟩
    exact ⟨_, _, rfl, rfl, (Like.accepts_pattern _ _).2 hname⟩

end Query

/-! ## Stems in small letters -/

/-- Only one character gets longer in small letters. -/
theorem Lowercase.length_chars {before cs : List Char} (h : 'İ' ∉ cs) :
    (chars before cs).length = cs.length := by
  induction cs generalizing before with
  | nil => rfl
  | cons c cs ih =>
    simp only [List.mem_cons, not_or] at h
    rw [chars, List.length_append, ih h.2, List.length_cons, Nat.add_comm]
    congr 1
    split
    · rfl
    · rw [smallForm, if_neg (Ne.symm h.1)]
      split <;> rfl

theorem length_lowercase {name : String} (h : isPlainIdentifier name = true) :
    (lowercase name).length = name.length := by
  rw [lowercase, String.length_ofList, ← String.length_toList]
  refine Lowercase.length_chars fun hmem => ?_
  unfold isPlainIdentifier at h
  split at h
  · cases h
  · rename_i c rest hname
    rw [hname] at hmem
    simp only [Bool.and_eq_true, List.all_eq_true] at h
    rcases List.mem_cons.1 hmem with rfl | hmem
    · exact absurd h.1 (by decide)
    · exact absurd (h.2 _ hmem) (by decide)

/-- A text of the same length that begins a name is the beginning. -/
theorem eq_of_prefix_of_length {s s' name : String} (h : s.toList <+: name.toList)
    (h' : s'.toList <+: name.toList) (hlength : s.length = s'.length) : s = s' := by
  have hlists : s.toList.length = s'.toList.length := by
    rw [String.length_toList, String.length_toList, hlength]
  exact String.toList_inj.1 ((List.prefix_of_prefix_length_le h h' hlists.le).eq_of_length hlists)

/-! ## What the next installation finds -/

namespace Config

variable {c : Config} {g : Schema} {ownership : List OwnershipRecord} {result : Synthesis}
variable {name : String}

theorem check_eq_ok (h : c.check = .ok ()) :
    c.schema ≠ "" ∧ isPlainIdentifier c.stem = true := by
  unfold check at h
  split at h
  · cases h
  · rename_i hschema
    split at h
    · cases h
    · split at h
      · cases h
      · rename_i hstem
        refine ⟨?_, by simpa using hstem⟩
        rintro heq
        rw [heq] at hschema
        exact hschema (by decide)

/-- The functions of a script are named by the stem in small letters. -/
theorem makes_of_mem_definitions
    (hsyn : (c.setting g ownership).synthesizeFor .postgresql c.stem c.rootTable = .ok result)
    (hname : name ∈ (Postgres.script c.context result.registry.functions).definitions) :
    ∃ table, (Namer.new c.stem Dialect.postgresql.maxNameLength).Makes table name := by
  obtain ⟨f, hf, rfl⟩ := Postgres.mem_definitions_script.1 hname
  obtain ⟨e, he, -, rfl, -⟩ := Registry.mem_functions hf
  exact ⟨_, (Setting.unfinished_of_synthesize hsyn).2.names e he⟩

/-- No function is found by a stem that is longer than names can be. -/
theorem not_lists_of_length_lt
    (hsyn : (c.setting g ownership).synthesizeFor .postgresql c.stem c.rootTable = .ok result)
    (hname : name ∈ (Postgres.script c.context result.registry.functions).definitions)
    (hlong : Dialect.postgresql.maxNameLength < c.stem.length) (schema : String) :
    ¬ Query.Lists (Query.installedFunctions c.schema c.stem) schema name := by
  rw [Query.lists_installedFunctions]
  rintro ⟨-, hprefix⟩
  obtain ⟨table, hmakes⟩ := makes_of_mem_definitions hsyn hname
  have hfits : name.length ≤ Dialect.postgresql.maxNameLength := hmakes.length_le
  have hle := hprefix.length_le
  rw [String.length_toList, String.length_toList] at hle
  omega

/-- **An installation finds the functions of the one before it** exactly where
schema and stem are in small letters, if the stem leaves room for a number. -/
theorem lists_created (hcheck : c.check = .ok ())
    (hroom : c.stem.length + Namer.numberLength ≤ Dialect.postgresql.maxNameLength)
    (hsyn : (c.setting g ownership).synthesizeFor .postgresql c.stem c.rootTable = .ok result)
    (hname : name ∈ (Postgres.script c.context result.registry.functions).definitions) :
    (Postgres.spelling c.context).function name = lowercase c.schema ++ "." ++ name ∧
      (Query.Lists (Query.installedFunctions c.schema c.stem) (lowercase c.schema) name ↔
        lowercase c.schema = c.schema ∧ lowercase c.stem = c.stem) := by
  obtain ⟨hschema, hplain⟩ := check_eq_ok hcheck
  obtain ⟨table, hmakes⟩ := makes_of_mem_definitions hsyn hname
  have hlength := length_lowercase hplain
  have hprefix : (lowercase c.stem).toList <+: name.toList :=
    hmakes.stem_prefix (by simpa [Namer.new, hlength] using hroom)
  refine ⟨if_neg (by simpa [context] using hschema), ?_⟩
  rw [Query.lists_installedFunctions]
  refine and_congr_right fun _ => ⟨fun h => ?_, fun h => by rwa [h] at hprefix⟩
  exact eq_of_prefix_of_length hprefix h hlength

/-- A script that has a function defines it. -/
theorem exists_created (c : Config) (g : Schema) (ownership : List OwnershipRecord)
    (name : String)
    (h : (((c.setting g ownership).synthesizeFor .postgresql c.stem c.rootTable).toOption.any
      fun result => name ∈ result.registry.names) = true) :
    ∃ result, (c.setting g ownership).synthesizeFor .postgresql c.stem c.rootTable = .ok result ∧
      name ∈ (Postgres.script c.context result.registry.functions).definitions := by
  cases hsyn : (c.setting g ownership).synthesizeFor .postgresql c.stem c.rootTable with
  | error e =>
    rw [hsyn] at h
    cases h
  | ok result =>
    rw [hsyn] at h
    refine ⟨result, rfl, Postgres.mem_definitions_script.2 ?_⟩
    exact List.mem_map.1 (of_decide_eq_true h)

/-- A schema with a single table. -/
def archive : Schema := ⟨"city", [cityTable "note" ["id"] []], []⟩

/-- Settings for the notes of an archive. -/
def forNotes : Config := { schema := "city", rootTable := "note", explicitOwnershipOnly := true }

/-- The function for notes is found. -/
theorem lists_created_note : ∃ result name, forNotes.check = .ok () ∧
    (forNotes.setting archive []).synthesizeFor .postgresql forNotes.stem forNotes.rootTable =
      .ok result ∧
    name ∈ (Postgres.script forNotes.context result.registry.functions).definitions ∧
    Query.Lists (Query.installedFunctions "city" "del_") "city" name := by
  obtain ⟨result, hsyn, hname⟩ := exists_created forNotes archive [] "del_note" (by
    delta Setting.synthesizeFor Setting.synthesize
    rw [← Setting.visitFor_eq _ 2]
    decide +kernel)
  have hfound := (lists_created (by decide) (by decide) hsyn hname).2.2 (by decide +kernel)
  exact ⟨result, _, by decide, hsyn, hname, hfound⟩

/-- A function that is created for the notes is not found. -/
def MissesNotes (c : Config) : Prop :=
  c.check = .ok () ∧ c.dialect = .postgresql ∧ ∃ result name,
    (c.setting archive []).synthesizeFor .postgresql c.stem c.rootTable = .ok result ∧
    name ∈ (Postgres.script c.context result.registry.functions).definitions ∧
    (Postgres.spelling c.context).function name = lowercase c.schema ++ "." ++ name ∧
    ¬ Query.Lists (Query.installedFunctions c.schema c.stem) (lowercase c.schema) name

/-- **Not every installation is found**: not one in a schema with a capital
letter, and not one with a stem with a capital letter. -/
theorem not_lists_created : MissesNotes { forNotes with schema := "City" } ∧
    MissesNotes { forNotes with stem := "DEL_" } := by
  simp only [MissesNotes, Query.lists_installedFunctions]
  refine ⟨⟨by decide, rfl, ?_⟩, ⟨by decide, rfl, ?_⟩⟩
  · obtain ⟨result, hsyn, hname⟩ := exists_created { forNotes with schema := "City" }
      archive [] "del_note" (by
        delta Setting.synthesizeFor Setting.synthesize
        rw [← Setting.visitFor_eq _ 2]
        decide +kernel)
    exact ⟨result, _, hsyn, hname, by decide +kernel, by decide +kernel⟩
  · obtain ⟨result, hsyn, hname⟩ := exists_created { forNotes with stem := "DEL_" }
      archive [] "del_note" (by
        delta Setting.synthesizeFor Setting.synthesize
        rw [← Setting.visitFor_eq _ 2]
        decide +kernel)
    exact ⟨result, _, hsyn, hname, by decide +kernel, by decide +kernel⟩

end Config

end DeleteCascade
