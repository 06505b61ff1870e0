import DeleteCascade.Script.Context
/-!
# Script — Oracle

All functions live in one package. A function takes a collection of ids and
who calls it, and answers the collection of ids deleted. Unlike in
PostgreSQL most variables are declared in every function.
-/

namespace DeleteCascade.Oracle

/-- How the parts of a text are written for Oracle. -/
def spelling (ctx : ScriptContext) : Spelling where
  table := ctx.tableText
  function name := name
  candidate := "c.COLUMN_VALUE"
  notEmpty ids := s!"{ids} IS NOT EMPTY"

/-- The head of a function. -/
def batchHead (name : Sql) : Sql :=
  .concat ["FUNCTION ", name, "(pid_array ID_ARRAY, caller int := 0) RETURN ID_ARRAY"]

/-- The head of a function for a single id. -/
def singleHead (name : Sql) : Sql :=
  .concat ["FUNCTION ", name, "(pid NUMBER, caller int := 0) RETURN NUMBER"]

/-- The local variables of a function, the row at hand in a loop apart,
which needs no declaration. -/
def locals (f : DeleteFunction) : List Variable :=
  [.deletedIds, .deletedChildIds, .candidateIds, .targetIds, .dummyIds] ++
    (List.range f.capturedCount).map .refIds

/-- The declaration of a local variable. -/
def declaration (v : Variable) : String := s!"    {v.name} ID_ARRAY := ID_ARRAY();\n"

/-- What a function begins with: nothing is done for an empty batch. -/
def opening (f : DeleteFunction) : Sql :=
  .concat
    ["  ", batchHead (.defined f.name), "\n",
      "  IS\n",
      "    -- deletes ", .table f.table, " rows and everything they own\n",
      String.join ((locals f).map declaration),
      "  BEGIN\n",
      "    IF pid_array IS EMPTY THEN\n",
      "      RETURN ", .var .deletedIds, ";\n",
      "    END IF;\n"]

/-- Has the candidates deleted that no owner holds any more, if there are
any. -/
def deleteUnowned (table : TableName) (keyColumn : String) (owners : Option (List Owner))
    (callee : Callee) : Sql :=
  .guarded 4 [.notEmpty .candidateIds]
    (match owners with
    | none | some [] =>
      .concat
        ["      ", .var .dummyIds, " := ",
          .call callee.function (.var .candidateIds) .fromOwner, ";\n"]
    | some owners =>
      .concat
        ["      SELECT c.COLUMN_VALUE BULK COLLECT INTO ", .var .targetIds, "\n",
          "        FROM TABLE(", .var .candidateIds, ") c\n",
          "       WHERE ", ownerTests table keyColumn owners, ";\n",
          .guarded 6 [.notEmpty .targetIds]
            (.concat
              ["        ", .var .dummyIds, " := ",
                .call callee.function (.var .targetIds) .fromOwner, ";\n"])])

/-- Deletes parts in the function's own table. -/
def selfParts (f : DeleteFunction) (b : SelfParts Callee) : Sql :=
  .concat
    [if b.detach then
        .concat
          [s!"\n    -- detach parts referencing their parent through {b.column}\n",
            "    UPDATE ", .table f.table, " t\n",
            s!"       SET t.{b.column} = NULL\n",
            s!"     WHERE t.{b.column} IN (SELECT a.COLUMN_VALUE FROM TABLE(pid_array) a)\n",
            s!"       AND t.{f.keyColumn} <> t.{b.column}\n",
            s!"    RETURNING t.{f.keyColumn} BULK COLLECT INTO ", .var .candidateIds, ";\n"]
      else
        .concat
          [s!"\n    -- delete parts referencing their parent through {b.column}\n",
            s!"    SELECT t.{f.keyColumn} BULK COLLECT INTO ", .var .candidateIds, "\n",
            "      FROM ", .table f.table, " t, TABLE(pid_array) a\n",
            s!"     WHERE t.{b.column} = a.COLUMN_VALUE\n",
            s!"       AND t.{f.keyColumn} <> a.COLUMN_VALUE;\n"],
      .guarded 4 [.notEmpty .candidateIds]
        (.concat
          ["      ", .var .deletedChildIds, " := ", .var .deletedChildIds,
            " MULTISET UNION DISTINCT ",
            .call b.callee.function (.var .candidateIds) .fromOwner, ";\n"])]

/-- Deletes the rows that point at those deleted. -/
def childCascade (b : ChildCascade Callee) : Sql :=
  .concat
    [if b.detach then
        .concat
          ["\n    -- detach ", .table b.child, s!" rows linked through {b.column}\n",
            "    UPDATE ", .table b.child, " c\n",
            s!"       SET c.{b.column} = NULL\n",
            s!"     WHERE c.{b.column} IN (SELECT a.COLUMN_VALUE FROM TABLE(pid_array) a)\n",
            s!"    RETURNING c.{b.childKey} BULK COLLECT INTO ", .var .candidateIds, ";\n"]
      else
        .concat
          ["\n    -- delete ", .table b.child, s!" rows owned through {b.column}\n",
            s!"    SELECT c.{b.childKey} BULK COLLECT INTO ", .var .candidateIds, "\n",
            "      FROM ", .table b.child, " c, TABLE(pid_array) a\n",
            s!"     WHERE c.{b.column} = a.COLUMN_VALUE;\n"],
      deleteUnowned b.child b.childKey b.ownerCheck b.callee]

/-- Removes links, and deletes the rows behind them. -/
def bridgeCascade (b : BridgeCascade Callee) : Sql :=
  match b.callee with
  | none =>
    .concat
      ["\n    -- unlink ", .table b.bridge, "\n",
        "    DELETE FROM ", .table b.bridge, " t\n",
        s!"     WHERE t.{b.nearColumn} IN (SELECT a.COLUMN_VALUE FROM TABLE(pid_array) a);\n"]
  | some callee =>
    .concat
      ["\n    -- delete ", .table b.bridge, " links and the ", .table b.target,
        " rows behind them\n",
        "    DELETE FROM ", .table b.bridge, " t\n",
        s!"     WHERE t.{b.nearColumn} IN (SELECT a.COLUMN_VALUE FROM TABLE(pid_array) a)\n",
        s!"    RETURNING t.{b.farColumn} BULK COLLECT INTO ", .var .candidateIds, ";\n",
        "    ", .var .candidateIds, " := SET(", .var .candidateIds, ");\n",
        deleteUnowned b.target b.targetKey b.ownerCheck callee]

/-- The branch for the classes of one subtype. -/
def subtypeCase (keyword : String) (c : SubtypeCase Callee) : Sql :=
  .concat
    [s!"        {keyword} ", .var .record, s!".class_id IN ({classList c.classes}) THEN\n",
      "          ", .var .dummyIds, " := ",
      .call c.callee.function (.concat ["ID_ARRAY(", .var .record, ".object_id)"]) .fromParent,
      ";\n"]

/-- Sends each row to the subtype of its class: that of the first case, or
of one of the others. -/
def typedDispatch (d : Discriminator) (first : SubtypeCase Callee)
    (others : List (SubtypeCase Callee)) : Sql :=
  .guarded 4 [.callerIsNot .fromSubtype]
    (.concat
      ["      FOR ", .var .record, " IN (\n",
        s!"        SELECT r.{d.keyColumn} AS object_id, r.{d.column} AS class_id\n",
        "          FROM ", .table d.table, " r, TABLE(pid_array) a\n",
        s!"         WHERE r.{d.keyColumn} = a.COLUMN_VALUE\n",
        "      ) LOOP\n",
        "        ", .var .dummyIds, " := ID_ARRAY();\n",
        subtypeCase "IF" first,
        .concat (others.map (subtypeCase "ELSIF")),
        "        END IF;\n",
        "        IF ", .var .record, ".object_id MEMBER OF ", .var .dummyIds, " THEN\n",
        "          ", .var .deletedIds, " := ", .var .deletedIds,
        " MULTISET UNION DISTINCT ID_ARRAY(", .var .record, ".object_id);\n",
        "        END IF;\n",
        "      END LOOP;\n"])

/-- Calls the function of a subtype without classes. -/
def hook (callee : Callee) : Sql :=
  .concat ["    ", .var .dummyIds, " := ", .call callee.function "pid_array" .fromParent, ";\n"]

/-- Deletes the rows of subtypes. -/
def subtypeDispatch (b : SubtypeDispatch Callee) : Sql :=
  .concat
    ["\n    -- delete subtype rows\n",
      match b.discriminator, b.cases with
      | some d, first :: others => typedDispatch d first others
      | _, _ => .empty,
      .concat (b.hooks.map hook)]

/-- Deletes the rows themselves. -/
def localDelete (f : DeleteFunction) (captured : List String) : Sql :=
  .concat
    ["\n    -- delete ", .table f.table, " rows\n",
      "    DELETE FROM ", .table f.table, " t\n",
      s!"     WHERE t.{f.keyColumn} IN (SELECT a.COLUMN_VALUE FROM TABLE(pid_array) a)\n",
      s!"    RETURNING t.{f.keyColumn}",
      String.join (captured.map fun column => s!", t.{column}"),
      "\n",
      "    BULK COLLECT INTO ", .var .targetIds,
      .concat (captured.zipIdx.map fun (_, slot) => .concat [", ", .var (.refIds slot)]),
      ";\n",
      "    ", .var .deletedIds, " := ", .var .deletedIds, " MULTISET UNION DISTINCT ",
      .var .targetIds, ";\n"]

/-- Deletes what the rows pointed at. -/
def referencedCleanup (b : ReferencedCleanup Callee) : Sql :=
  .concat
    ["\n    -- delete ", .table b.target, s!" rows referenced through {b.column}\n",
      "    SELECT DISTINCT r.COLUMN_VALUE BULK COLLECT INTO ", .var .candidateIds, "\n",
      "      FROM TABLE(", .var (.refIds b.slot), ") r\n",
      "     WHERE r.COLUMN_VALUE IS NOT NULL;\n",
      deleteUnowned b.target b.targetKey b.ownerCheck b.callee]

/-- Deletes the rows of the supertype. -/
def parentCascade (callee : Callee) : Sql :=
  .concat
    ["\n    -- delete the ", .table callee.table, " part of the deleted rows\n",
      .guarded 4 [.callerIsNot .fromParent, .notEmpty .deletedIds]
        (.concat
          ["      ", .var .dummyIds, " := ",
            .call callee.function (.var .deletedIds) .fromSubtype, ";\n"])]

/-- The text of a block. -/
def block (f : DeleteFunction) : Block Callee → Sql
  | .selfParts b => selfParts f b
  | .childCascade b => childCascade b
  | .bridgeCascade b => bridgeCascade b
  | .subtypeDispatch b => subtypeDispatch b
  | .localDelete captured => localDelete f captured
  | .referencedCleanup b => referencedCleanup b
  | .parentCascade callee => parentCascade callee

/-- What a function ends with: it answers the ids deleted. -/
def closing : Sql :=
  .concat
    ["\n    RETURN ", .var .deletedIds, " MULTISET UNION DISTINCT ", .var .deletedChildIds, ";\n",
      "  END;\n"]

/-- The text of a function. -/
def function (f : DeleteFunction) : Sql :=
  .concat [opening f, .concat (f.blocks.map (block f)), closing]

/-- The text of the function for a single id. It calls the one for batches
as its own caller. -/
def wrapper (f : DeleteFunction) : Sql :=
  .concat
    ["  ", singleHead (.defined f.name), "\n",
      "  IS\n",
      "    deleted_ids ID_ARRAY := ID_ARRAY();\n",
      "  BEGIN\n",
      "    deleted_ids := ", .relay f.name "ID_ARRAY(pid)", ";\n",
      "    IF pid MEMBER OF deleted_ids THEN\n",
      "      RETURN pid;\n",
      "    END IF;\n",
      "    RETURN NULL;\n",
      "  END;\n"]

/-- The heads of a function in the package. -/
def heads (ctx : ScriptContext) (f : DeleteFunction) : Sql :=
  .concat
    ["  ", batchHead (.defined f.name), ";\n",
      if ctx.wrappers then .concat ["  ", singleHead (.defined f.name), ";\n"] else .empty]

/-- The text of the package with all functions. -/
def script (ctx : ScriptContext) (functions : List DeleteFunction) : Sql :=
  .concat
    ["CREATE OR REPLACE TYPE ID_ARRAY IS TABLE OF NUMBER;\n/\n\n",
      s!"CREATE OR REPLACE PACKAGE {ctx.package}\nAS\n",
      .concat (functions.map (heads ctx)),
      s!"END {ctx.package};\n/\n\n",
      s!"CREATE OR REPLACE PACKAGE BODY {ctx.package}\nAS\n",
      Sql.separated "\n"
        (functions.flatMap fun f => if ctx.wrappers then [function f, wrapper f] else [function f]),
      s!"END {ctx.package};\n/\n"]

/-- The statement that drops an installed function, with the package it is
in. -/
def dropStatement (ctx : ScriptContext) (f : InstalledFunction) : String :=
  s!"DROP PACKAGE {f.schema}.{ctx.package};"

end DeleteCascade.Oracle
