import DeleteCascade.Script.Context
/-!
# Script — PostgreSQL

A function takes an array of ids and who calls it, and answers the set of
ids deleted. `locals` are the variables a function declares, `function` is
its text and `script` that of all functions.
-/

namespace DeleteCascade.Postgres

/-- How the parts of a text are written for PostgreSQL. -/
def spelling (ctx : ScriptContext) : Spelling where
  table := ctx.tableText
  function name := if ctx.schema.isEmpty then name else lowercase ctx.schema ++ "." ++ name
  candidate := "c.id"
  notEmpty ids := s!"array_length({ids}, 1) > 0"

/-- The local variables of a function. -/
def locals (f : DeleteFunction) : List Variable :=
  [.deletedIds, .deletedChildIds] ++
    (if f.blocks.any (·.collects) then [.candidateIds] else []) ++
    (List.range f.capturedCount).map .refIds ++
    (if f.blocks.any (·.dispatches) then [.dummyIds, .record] else [])

/-- The declaration of a local variable. -/
def declaration (v : Variable) : String :=
  match v with
  | .deletedIds | .deletedChildIds => s!"  {v.name} int[] := '\x7b\x7d';\n"
  | .record => s!"  {v.name} RECORD;\n"
  | _ => s!"  {v.name} int[];\n"

/-- What a function begins with: nothing is done for an empty batch. -/
def opening (f : DeleteFunction) : Sql :=
  .concat
    ["CREATE OR REPLACE FUNCTION ", .defined f.name,
      "(pid_array int[], caller INTEGER DEFAULT 0) RETURNS SETOF int AS\n",
      "$body$\n",
      "-- deletes ", .table f.table, " rows and everything they own\n",
      "DECLARE\n",
      String.join ((locals f).map declaration),
      "BEGIN\n",
      "  IF cardinality(pid_array) = 0 THEN\n",
      "    RETURN;\n",
      "  END IF;\n"]

/-- The ids of a variable that no owner holds any more. -/
def unowned (table : TableName) (keyColumn : String) (owners : Option (List Owner))
    (ids : Variable) : Sql :=
  match owners with
  | none | some [] => .var ids
  | some owners =>
    .concat
      ["ARRAY(\n",
        "      SELECT c.id\n",
        "        FROM unnest(", .var ids, ") c(id)\n",
        "       WHERE ", ownerTests table keyColumn owners, "\n",
        "    )"]

/-- Has the owned ids of a variable deleted, if there are any. -/
def deleteUnowned (table : TableName) (keyColumn : String) (owners : Option (List Owner))
    (ids : Variable) (callee : Callee) : Sql :=
  .guarded 2 [.notEmpty ids]
    (.concat
      ["    PERFORM ",
        .call callee.function (unowned table keyColumn owners ids) .fromOwner, ";\n"])

/-- Adds the ids in the candidates to the parts deleted. -/
def addDeletedParts : Sql :=
  .concat
    [.var .deletedChildIds, " := ", .var .deletedChildIds, " || COALESCE(", .var .candidateIds,
      ", '\x7b\x7d');\n"]

/-- Deletes parts in the function's own table. -/
def selfParts (f : DeleteFunction) (b : SelfParts Callee) : Sql :=
  if b.detach then
    .concat
      [s!"\n  -- detach parts referencing their parent through {b.column}\n",
        "  WITH detached AS (\n",
        "    UPDATE ", .table f.table, " t\n",
        s!"       SET {b.column} = NULL\n",
        "      FROM unnest(pid_array) a(a_id)\n",
        s!"     WHERE t.{b.column} = a.a_id\n",
        s!"       AND t.{f.keyColumn} <> a.a_id\n",
        s!"    RETURNING t.{f.keyColumn} AS id\n",
        "  )\n",
        "  SELECT array_agg(id) INTO ", .var .candidateIds, " FROM detached;\n",
        .guarded 2 [.notEmpty .candidateIds]
          (.concat
            ["    SELECT array_agg(d) INTO ", .var .candidateIds, "\n",
              "      FROM ", .call b.callee.function (.var .candidateIds) .fromOwner, " d;\n",
              "    ", addDeletedParts])]
  else
    .concat
      [s!"\n  -- delete parts referencing their parent through {b.column}\n",
        "  SELECT array_agg(d) INTO ", .var .candidateIds, "\n",
        "    FROM ",
        .call b.callee.function
          (.concat
            ["ARRAY(\n",
              s!"      SELECT t.{f.keyColumn}\n",
              "        FROM ", .table f.table, " t, unnest(pid_array) a(a_id)\n",
              s!"       WHERE t.{b.column} = a.a_id\n",
              s!"         AND t.{f.keyColumn} <> a.a_id\n",
              "    )"])
          .fromOwner,
        " d;\n",
        "  ", addDeletedParts]

/-- Deletes the rows that point at those deleted. -/
def childCascade (b : ChildCascade Callee) : Sql :=
  if b.detach then
    .concat
      ["\n  -- detach ", .table b.child, s!" rows linked through {b.column}\n",
        "  WITH detached AS (\n",
        "    UPDATE ", .table b.child, " c\n",
        s!"       SET {b.column} = NULL\n",
        "      FROM unnest(pid_array) a(a_id)\n",
        s!"     WHERE c.{b.column} = a.a_id\n",
        s!"    RETURNING c.{b.childKey} AS id\n",
        "  )\n",
        "  SELECT array_agg(id) INTO ", .var .candidateIds, " FROM detached;\n",
        deleteUnowned b.child b.childKey b.ownerCheck .candidateIds b.callee]
  else if b.ownerCheck.isSome then
    .concat
      ["\n  -- collect ", .table b.child, s!" rows linked through {b.column}\n",
        s!"  SELECT array_agg(c.{b.childKey}) INTO ", .var .candidateIds, "\n",
        "    FROM ", .table b.child, " c, unnest(pid_array) a(a_id)\n",
        s!"   WHERE c.{b.column} = a.a_id;\n",
        deleteUnowned b.child b.childKey b.ownerCheck .candidateIds b.callee]
  else
    .concat
      ["\n  -- delete ", .table b.child, s!" rows owned through {b.column}\n",
        "  PERFORM ",
        .call b.callee.function
          (.concat
            ["ARRAY(\n",
              s!"    SELECT c.{b.childKey}\n",
              "      FROM ", .table b.child, " c, unnest(pid_array) a(a_id)\n",
              s!"     WHERE c.{b.column} = a.a_id\n",
              "  )"])
          .fromOwner,
        ";\n"]

/-- Removes links, and deletes the rows behind them. -/
def bridgeCascade (b : BridgeCascade Callee) : Sql :=
  match b.callee with
  | none =>
    .concat
      ["\n  -- unlink ", .table b.bridge, "\n",
        "  DELETE FROM ", .table b.bridge, " t\n",
        "   USING unnest(pid_array) a(a_id)\n",
        s!"   WHERE t.{b.nearColumn} = a.a_id;\n"]
  | some callee =>
    .concat
      ["\n  -- delete ", .table b.bridge, " links and the ", .table b.target,
        " rows behind them\n",
        "  WITH unlinked AS (\n",
        "    DELETE FROM ", .table b.bridge, " t\n",
        "     USING unnest(pid_array) a(a_id)\n",
        s!"     WHERE t.{b.nearColumn} = a.a_id\n",
        s!"    RETURNING t.{b.farColumn} AS id\n",
        "  )\n",
        "  SELECT array_agg(DISTINCT id) INTO ", .var .candidateIds, " FROM unlinked;\n",
        deleteUnowned b.target b.targetKey b.ownerCheck .candidateIds callee]

/-- The branch for the classes of one subtype. -/
def subtypeCase (c : SubtypeCase Callee) : Sql :=
  .concat
    ["        WHEN ", .var .record, s!".class_id IN ({classList c.classes}) THEN\n",
      "          ", .var .dummyIds, " := ARRAY(SELECT ",
      .call c.callee.function (.concat ["ARRAY[", .var .record, ".object_id]"]) .fromParent,
      ");\n"]

/-- Sends each row to the subtype of its class. -/
def typedDispatch (d : Discriminator) (cases : List (SubtypeCase Callee)) : Sql :=
  .guarded 2 [.callerIsNot .fromSubtype]
    (.concat
      ["    FOR ", .var .record, " IN\n",
        s!"      SELECT r.{d.keyColumn} AS object_id, r.{d.column} AS class_id\n",
        "        FROM ", .table d.table, " r, unnest(pid_array) a(a_id)\n",
        s!"       WHERE r.{d.keyColumn} = a.a_id\n",
        "    LOOP\n",
        "      CASE\n",
        .concat (cases.map subtypeCase),
        "        ELSE\n",
        "          ", .var .dummyIds, " := '\x7b\x7d';\n",
        "      END CASE;\n",
        "      IF ", .var .record, ".object_id = ANY(", .var .dummyIds, ") THEN\n",
        "        ", .var .deletedIds, " := ", .var .deletedIds, " || ", .var .record,
        ".object_id;\n",
        "      END IF;\n",
        "    END LOOP;\n"])

/-- Calls the function of a subtype without classes. It may hold a row of
any object, whoever calls. -/
def hook (callee : Callee) : Sql :=
  .concat ["  PERFORM ", .call callee.function "pid_array" .fromParent, ";\n"]

/-- Deletes the rows of subtypes. -/
def subtypeDispatch (b : SubtypeDispatch Callee) : Sql :=
  .concat
    ["\n  -- delete subtype rows\n",
      match b.discriminator, b.cases with
      | some d, c :: rest => typedDispatch d (c :: rest)
      | _, _ => .empty,
      .concat (b.hooks.map hook)]

/-- Deletes the rows themselves. -/
def localDelete (f : DeleteFunction) (captured : List String) : Sql :=
  let slots := captured.zipIdx
  .concat
    ["\n  -- delete ", .table f.table, " rows\n",
      "  WITH deleted AS (\n",
      "    DELETE FROM ", .table f.table, " t\n",
      "     USING unnest(pid_array) a(a_id)\n",
      s!"     WHERE t.{f.keyColumn} = a.a_id\n",
      s!"    RETURNING t.{f.keyColumn} AS id",
      String.join (slots.map fun (column, slot) => s!", t.{column} AS ref_{slot}"),
      "\n",
      "  )\n",
      "  SELECT ", .var .deletedIds, " || COALESCE(array_agg(id), '\x7b\x7d')",
      String.join (slots.map fun (_, slot) =>
        s!",\n         array_agg(DISTINCT ref_{slot}) FILTER (WHERE ref_{slot} IS NOT NULL)"),
      "\n",
      "    INTO ", .var .deletedIds,
      .concat (slots.map fun (_, slot) => .concat [", ", .var (.refIds slot)]),
      "\n",
      "    FROM deleted;\n"]

/-- Deletes what the rows pointed at. -/
def referencedCleanup (b : ReferencedCleanup Callee) : Sql :=
  .concat
    ["\n  -- delete ", .table b.target, s!" rows referenced through {b.column}\n",
      deleteUnowned b.target b.targetKey b.ownerCheck (.refIds b.slot) b.callee]

/-- Deletes the rows of the supertype. -/
def parentCascade (callee : Callee) : Sql :=
  .concat
    ["\n  -- delete the ", .table callee.table, " part of the deleted rows\n",
      .guarded 2 [.callerIsNot .fromParent, .notEmpty .deletedIds]
        (.concat
          ["    PERFORM ", .call callee.function (.var .deletedIds) .fromSubtype, ";\n"])]

/-- The text of a block. -/
def block (f : DeleteFunction) : Block Callee → Sql
  | .selfParts b => selfParts f b
  | .childCascade b => childCascade b
  | .bridgeCascade b => bridgeCascade b
  | .subtypeDispatch b => subtypeDispatch b
  | .localDelete captured => localDelete f captured
  | .referencedCleanup b => referencedCleanup b
  | .parentCascade callee => parentCascade callee

/-- What a function ends with: it answers the ids deleted. -/
def closing : Sql :=
  .concat
    ["\n  RETURN QUERY\n",
      "    SELECT DISTINCT unnest(", .var .deletedIds, " || ", .var .deletedChildIds, ");\n",
      "END;\n",
      "$body$\n",
      "LANGUAGE plpgsql STRICT;\n"]

/-- The text of a function. -/
def function (f : DeleteFunction) : Sql :=
  .concat [opening f, .concat (f.blocks.map (block f)), closing]

/-- The text of the function for a single id. It calls the one for batches
as its own caller. -/
def wrapper (f : DeleteFunction) : Sql :=
  .concat
    ["CREATE OR REPLACE FUNCTION ", .defined f.name,
      "(pid int, caller INTEGER DEFAULT 0) RETURNS int AS\n",
      "$body$\n",
      "DECLARE\n",
      "  deleted_id int;\n",
      "BEGIN\n",
      "  SELECT d INTO deleted_id\n",
      "    FROM ", .relay f.name "ARRAY[pid]", " d\n",
      "   WHERE d = pid;\n",
      "  RETURN deleted_id;\n",
      "END;\n",
      "$body$\n",
      "LANGUAGE plpgsql STRICT;\n"]

/-- The text of all functions. -/
def script (ctx : ScriptContext) (functions : List DeleteFunction) : Sql :=
  Sql.separated "\n"
    (functions.flatMap fun f => if ctx.wrappers then [function f, wrapper f] else [function f])

/-- The statement that drops an installed function. -/
def dropStatement (f : InstalledFunction) : String :=
  s!"DROP FUNCTION IF EXISTS {f.signature};"

end DeleteCascade.Postgres
