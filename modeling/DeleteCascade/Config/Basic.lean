import DeleteCascade.Ownership.Classifier
import DeleteCascade.Script.Context
import DeleteCascade.Script.Database
import DeleteCascade.Text.Quoted
/-!
# Config — settings

The settings of a run, what makes them valid (`Config.check`), and what
scripts are made from when they are given. Ownership records in a config
take the place of those found elsewhere for the same link.
-/

namespace DeleteCascade

/-- The settings of a run. -/
structure Config where
  dialect : Database := .postgresql
  schema : String := "citydb"
  rootTable : String := "cityobject"
  /-- What the names of functions begin with. -/
  stem : String := "del_"
  discriminator : String := "objectclass_id"
  wrappers : Bool := true
  package : String := "citydb_delete"
  /-- Where the script goes; to the terminal if nothing is given. -/
  output : Option String := none
  /-- The snapshot that stands for a database. -/
  snapshot : Option String := none
  dsn : Option String := none
  /-- How many seconds a command may take. -/
  timeout : Nat := 30
  /-- Whether the records of the city model are left out. -/
  explicitOwnershipOnly : Bool := false
  ownership : List OwnershipRecord := []
  deriving DecidableEq

/-- What makes settings invalid. -/
inductive ConfigFault where
  | emptySchema
  | emptyRootTable
  | badStem (stem : String)
  | badPackage (package : String)
  | noTimeout
  deriving DecidableEq

/-- The message of the fault. -/
def ConfigFault.message : ConfigFault → String
  | emptySchema => "schema must not be empty"
  | emptyRootTable => "root_table must not be empty"
  | badStem stem => "function_prefix " ++ quoted stem ++ " is not a plain SQL identifier"
  | badPackage package => "oracle_package " ++ quoted package ++ " is not a plain SQL identifier"
  | noTimeout => "psql_timeout_secs must be positive"

/-- Why there are no settings. -/
inductive ConfigError where
  /-- The file that was asked for is not there. -/
  | notFound
  | unreadable
  /-- The text is no document of settings. -/
  | malformed
  | invalid (fault : ConfigFault)
  deriving DecidableEq

/-- The message of an error of which the text is not left to others. -/
def ConfigError.message? : ConfigError → Option String
  | invalid fault => some ("invalid config: " ++ fault.message)
  | _ => none

/-- Whether a name needs no quotes in SQL: ASCII letters, digits and
underscores, with no digit in front. -/
def isPlainIdentifier (name : String) : Bool :=
  match name.toList with
  | [] => false
  | c :: rest => (c.isAlpha || c == '_') && rest.all fun c => c.isAlphanum || c == '_'

namespace Config

/-- Looks for what makes the settings invalid, and answers the first
fault. -/
def check (c : Config) : Except ConfigError Unit :=
  if trim c.schema = "" then .error (.invalid .emptySchema)
  else if trim c.rootTable = "" then .error (.invalid .emptyRootTable)
  else if !isPlainIdentifier c.stem then .error (.invalid (.badStem c.stem))
  else if c.dialect = .oracle && !isPlainIdentifier c.package then
    .error (.invalid (.badPackage c.package))
  else if c.timeout = 0 then .error (.invalid .noTimeout)
  else .ok ()

/-- What scripts are made for. -/
def context (c : Config) : ScriptContext := ⟨c.schema, c.package, c.wrappers⟩

/-- The configured records, and those of the others that are about other
links. -/
def recordsWith (c : Config) (others : List OwnershipRecord) : List OwnershipRecord :=
  c.ownership ++ others.filter fun r => !c.ownership.any (·.sameSubject r)

/-- The classifier of the configured records and others. -/
def classifier (c : Config) (others : List OwnershipRecord) : Classifier :=
  .ofRecords (c.recordsWith others) c.explicitOwnershipOnly

end Config

end DeleteCascade
