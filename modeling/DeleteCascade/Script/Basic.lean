import DeleteCascade.Script.Database
import DeleteCascade.Script.Oracle
import DeleteCascade.Script.Postgres
/-!
# Script — scripts

A script is a comment that lists its functions and what there is to review,
followed by the functions in the dialect.
-/

namespace DeleteCascade

namespace Dialect

/-- How the parts of a text are written. -/
def spelling (d : Dialect) (ctx : ScriptContext) : Spelling :=
  match d with
  | postgresql => Postgres.spelling ctx
  | oracle => Oracle.spelling ctx

/-- The text of a block of a function. -/
def block (d : Dialect) (f : DeleteFunction) (b : Block Callee) : Sql :=
  match d with
  | postgresql => Postgres.block f b
  | oracle => Oracle.block f b

/-- The text of all functions. -/
def functions (d : Dialect) (ctx : ScriptContext) (fs : List DeleteFunction) : String :=
  match d with
  | postgresql => (d.spelling ctx).render (Postgres.script ctx fs)
  | oracle => (d.spelling ctx).render (Oracle.script ctx fs)

/-- The statement that drops an installed function. -/
def dropStatement (d : Dialect) (ctx : ScriptContext) (f : InstalledFunction) : String :=
  match d with
  | postgresql => Postgres.dropStatement f
  | oracle => Oracle.dropStatement ctx f

/-- The comment at the top of a script. -/
def header (d : Dialect) (ctx : ScriptContext) (fs : List DeleteFunction) (notes : List String) :
    String :=
  let title := d.database.title
  s!"-- Delete functions for schema {ctx.schema} ({title})\n--\n-- Functions ({fs.length}):\n" ++
    String.join (fs.map fun f => s!"--   {f.name} ({f.table.qualified})\n") ++
    (if notes.isEmpty then ""
      else "--\n-- Review:\n" ++ String.join (notes.map fun note => s!"--   {note}\n")) ++
    "\n"

/-- A whole script. -/
def script (d : Dialect) (ctx : ScriptContext) (fs : List DeleteFunction) (notes : List String) :
    String :=
  d.header ctx fs notes ++ d.functions ctx fs

end Dialect

end DeleteCascade
