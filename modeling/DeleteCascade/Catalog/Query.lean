import DeleteCascade.Script.Quote
/-!
# Catalog — queries

What the catalog of a PostgreSQL database is asked about one of its
schemas. Each query but `relationExists` answers one JSON array, or null if
there is nothing.
-/

namespace DeleteCascade.Query

/-- A query of several lines. -/
def ofLines (lines : List String) : String :=
  "\n" ++ String.join (lines.map fun line => "            " ++ line ++ "\n") ++ "            "

/-- The tables with their columns and primary keys. -/
def tables (schema : String) : String :=
  ofLines
    ["SELECT json_agg(row_to_json(t) ORDER BY t.name)",
      "FROM (",
      "    SELECT",
      "        n.nspname as schema,",
      "        c.relname as name,",
      "        COALESCE((",
      "            SELECT json_agg(json_build_object(",
      "                'name', a.attname,",
      "                'data_type', format_type(a.atttypid, a.atttypmod),",
      "                'nullable', NOT a.attnotnull",
      "            ) ORDER BY a.attnum)",
      "            FROM pg_attribute a",
      "            WHERE a.attrelid = c.oid",
      "              AND a.attnum > 0",
      "              AND NOT a.attisdropped",
      "        ), '[]'::json) as columns,",
      "        COALESCE((",
      "            SELECT array_agg(a.attname ORDER BY array_position(i.indkey::int2[], a.attnum))",
      "            FROM pg_index i",
      "            JOIN pg_attribute a ON a.attrelid = i.indrelid AND a.attnum = ANY(i.indkey)",
      "            WHERE i.indrelid = c.oid AND i.indisprimary",
      "        ), '\x7b\x7d') as primary_key",
      "    FROM pg_class c",
      "    JOIN pg_namespace n ON n.oid = c.relnamespace",
      "    WHERE c.relkind IN ('r', 'p')",
      "      AND n.nspname = " ++ Quote.literal schema,
      ") t"]

/-- The foreign keys. -/
def foreignKeys (schema : String) : String :=
  ofLines
    ["SELECT json_agg(row_to_json(fk) ORDER BY fk.from_table, fk.name)",
      "FROM (",
      "    SELECT",
      "        con.conname as name,",
      "        n1.nspname as from_schema,",
      "        c1.relname as from_table,",
      "        array_agg(a1.attname ORDER BY array_position(con.conkey, a1.attnum)) " ++
        "as from_columns,",
      "        n2.nspname as to_schema,",
      "        c2.relname as to_table,",
      "        array_agg(a2.attname ORDER BY array_position(con.confkey, a2.attnum)) " ++
        "as to_columns,",
      "        con.confdeltype as on_delete",
      "    FROM pg_constraint con",
      "    JOIN pg_class c1 ON c1.oid = con.conrelid",
      "    JOIN pg_namespace n1 ON n1.oid = c1.relnamespace",
      "    JOIN pg_class c2 ON c2.oid = con.confrelid",
      "    JOIN pg_namespace n2 ON n2.oid = c2.relnamespace",
      "    JOIN pg_attribute a1 ON a1.attrelid = c1.oid AND a1.attnum = ANY(con.conkey)",
      "    JOIN pg_attribute a2 ON a2.attrelid = c2.oid AND a2.attnum = ANY(con.confkey)",
      "    WHERE con.contype = 'f'",
      "      AND n1.nspname = " ++ Quote.literal schema,
      "    GROUP BY con.conname, n1.nspname, c1.relname, n2.nspname, c2.relname, con.confdeltype",
      ") fk"]

/-- Whether a schema has a table. -/
def relationExists (schema table : String) : String :=
  "SELECT to_regclass(" ++ Quote.literal (schema ++ "." ++ table) ++ ") IS NOT NULL"

/-- The object classes with the tables that store them. -/
def objectClasses (schema : String) : String :=
  ofLines
    ["SELECT json_agg(json_build_object('id', oc.id, 'table_name', lower(oc.tablename)) " ++
        "ORDER BY oc.id)",
      "FROM " ++ Quote.identifier schema ++ ".objectclass oc",
      "WHERE oc.tablename IS NOT NULL"]

/-- The aggregations between object classes. -/
def aggregations (schema : String) : String :=
  let schema := Quote.identifier schema
  ofLines
    ["SELECT json_agg(json_build_object(",
      "    'child', lower(c.tablename),",
      "    'parent', lower(p.tablename),",
      "    'link', lower(ai.join_table_or_column_name),",
      "    'composite', ai.is_composite = 1",
      "))",
      "FROM " ++ schema ++ ".aggregation_info ai",
      "JOIN " ++ schema ++ ".objectclass c ON c.id = ai.child_id",
      "JOIN " ++ schema ++ ".objectclass p ON p.id = ai.parent_id",
      "WHERE c.tablename IS NOT NULL AND p.tablename IS NOT NULL"]

/-- The functions whose names begin with a stem. -/
def installedFunctions (schema stem : String) : String :=
  ofLines
    ["SELECT json_agg(row_to_json(f) ORDER BY f.name, f.arguments)",
      "FROM (",
      "    SELECT",
      "        n.nspname as schema,",
      "        p.proname as name,",
      "        pg_get_function_identity_arguments(p.oid) as arguments",
      "    FROM pg_proc p",
      "    JOIN pg_namespace n ON n.oid = p.pronamespace",
      "    WHERE n.nspname = " ++ Quote.literal schema,
      "      AND p.proname LIKE " ++ Quote.startsWith stem,
      ") f"]

end DeleteCascade.Query
