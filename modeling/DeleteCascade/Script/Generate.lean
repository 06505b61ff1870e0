import DeleteCascade.Script.Basic
import DeleteCascade.Synthesis.Basic
/-!
# Script — generating

From a schema to the script of the functions that delete rows of a root
table. There is a whole script or none.
-/

namespace DeleteCascade

/-- A script with what went into it. -/
structure GeneratedScript where
  text : String
  /-- The names of the functions, in the order of the script. -/
  functions : List String
  /-- The remarks for a reviewer. -/
  notes : List String
  deriving DecidableEq

namespace Setting

/-- The functions for a root table of the schema, with names that the
dialect allows. -/
def synthesizeFor (s : Setting) (d : Dialect) (stem root : String) :
    Except SynthesisError Synthesis :=
  s.synthesize (.new stem d.maxNameLength) (s.schema.named root)

/-- The script for a root table of the schema. -/
def generate (s : Setting) (d : Dialect) (ctx : ScriptContext) (stem root : String) :
    Except SynthesisError GeneratedScript :=
  (s.synthesizeFor d stem root).map fun result =>
    { text := d.script ctx result.registry.functions result.notes
      functions := result.registry.names
      notes := result.notes }

end Setting

end DeleteCascade
