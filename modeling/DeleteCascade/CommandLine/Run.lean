import DeleteCascade.Catalog.Load
import DeleteCascade.CommandLine.Invocation
import DeleteCascade.Config.Lookup
import DeleteCascade.Schema.Snapshot
import DeleteCascade.Script.Generate
/-!
# Command line — carrying out a command

Generating loads the schema, makes the script, writes or prints it and
installs it if asked to. The statements that drop functions are printed one
a line. What was written before an error stays written.
-/

namespace DeleteCascade

/-- Why a command failed. -/
inductive CommandError where
  | config (cause : ConfigError)
  | database (cause : DatabaseError)
  | snapshot (cause : SnapshotError)
  /-- The catalog was not loaded. -/
  | catalog (cause : PsqlError)
  | synthesis (cause : SynthesisError)
  | write (cause : WriteError)
  /-- Functions were not listed or not installed. -/
  | install (cause : PsqlError)
  /-- There is neither a snapshot nor a connection. -/
  | noSource
  /-- Databases of this kind cannot be reached. -/
  | notLive (kind : Database)
  deriving DecidableEq

/-- The message of an error of which the text is not left to others. -/
def CommandError.message? : CommandError → Option String
  | config cause => cause.message?
  | database cause => some cause.message
  | snapshot cause => cause.message?
  | catalog cause => cause.queryMessage?
  | synthesis cause => some cause.message
  | write _ => none
  | install cause => cause.installMessage?
  | noSource => some "no schema source: pass --snapshot or --dsn (or set DATABASE_URL)"
  | notLive kind =>
    some ("live databases are only supported for PostgreSQL; use a snapshot for " ++ kind.title)

namespace Config

variable {m : Type → Type} [Monad m]

/-- The connection to the database that the settings name. -/
def connection (c : Config) : Except CommandError Connection :=
  if c.dialect ≠ .postgresql then .error (.notLive c.dialect)
  else
    match c.dsn with
    | none => .error .noSource
    | some dsn => .ok ⟨dsn, c.timeout⟩

/-- Loads the schema that the settings name, with its ownership records:
from the snapshot, if there is one, or from the database, which is asked
for the records once more. -/
def loadSchema (c : Config) (h : Host m) :
    ExceptT CommandError m (Schema × List OwnershipRecord) := do
  match c.snapshot with
  | some path =>
    let g ← ExceptT.mk ((fun file => (Schema.ofSnapshot c.schema file).mapError .snapshot) <$>
      h.read path)
    return (g, g.ownership)
  | none =>
    let db ← ofExcept c.connection
    let g ← (db.loadSchema h c.schema).adapt .catalog
    return (g, ← (db.loadOwnership h c.schema).adapt .catalog)

/-- The statements that drop the functions which the database has, each
once. -/
def dropStatements (c : Config) (h : Host m) (d : Dialect) :
    ExceptT CommandError m (List String) := do
  let db ← ofExcept c.connection
  let installed ← (db.listInstalled h c.schema c.stem).adapt .install
  return (installed.map (d.dropStatement c.context)).eraseReps

/-- Writes a script where the settings say. -/
def deliver (c : Config) (h : Host m) (script : String) : ExceptT CommandError m Unit :=
  match c.output with
  | some path => ExceptT.mk ((·.mapError .write) <$> h.write path script)
  | none => ExceptT.lift (h.print script)

/-- Puts the functions of a script in the place of those which the database
has. -/
def install (c : Config) (h : Host m) (d : Dialect) (script : String) :
    ExceptT CommandError m Unit := do
  let drops ← c.dropStatements h d
  let db ← ofExcept c.connection
  (db.install h drops script).adapt .install

/-- What the functions are made from. -/
def setting (c : Config) (g : Schema) (ownership : List OwnershipRecord) : Setting :=
  ⟨g, c.classifier ownership, c.discriminator⟩

/-- Makes the script and brings it where it belongs. -/
def generate (c : Config) (h : Host m) (installing : Bool) : ExceptT CommandError m Unit := do
  let d ← ofExcept (c.dialect.dialect.mapError .database)
  let (g, ownership) ← c.loadSchema h
  let script ← ofExcept
    (((c.setting g ownership).generate d c.context c.stem c.rootTable).mapError .synthesis)
  c.deliver h script.text
  if installing then
    c.install h d script.text

/-- Prints the statements that drop the functions which the database has. -/
def printDropStatements (c : Config) (h : Host m) : ExceptT CommandError m Unit := do
  let d ← ofExcept (c.dialect.dialect.mapError .database)
  let drops ← c.dropStatements h d
  ExceptT.lift (h.print (String.join (drops.map fun drop => drop ++ "\n")))

end Config

namespace Invocation

variable {m : Type → Type} [Monad m]

/-- The settings that hold for an invocation: those of a file with those
given by options put in. -/
def settings (i : Invocation) (h : Host m) : ExceptT CommandError m Config := do
  let (c, _) ← ExceptT.mk ((·.mapError .config) <$> Config.find h i.configFile)
  let c := i.overrides.apply c
  ofExcept (c.check.mapError .config)
  return c

/-- Does what is asked for. -/
def run (i : Invocation) (h : Host m) : ExceptT CommandError m Unit := do
  let c ← i.settings h
  match i.command with
  | .generate installing => c.generate h installing
  | .dropStatements => c.printDropStatements h

end Invocation

end DeleteCascade
