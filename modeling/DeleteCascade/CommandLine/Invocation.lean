import DeleteCascade.CommandLine.Arguments
import DeleteCascade.Config.Basic
/-!
# Command line — invocations

The commands of this program with their options, and what a user asks for
with them. Options go before the settings of a file.
-/

namespace DeleteCascade

/-- The settings that options give. -/
structure Overrides where
  dsn : Option String
  snapshot : Option String
  schema : Option String
  stem : Option String
  dialect : Option Database
  rootTable : Option String
  output : Option String
  noWrappers : Bool
  deriving DecidableEq

/-- The settings with those given by options put in. -/
def Overrides.apply (o : Overrides) (c : Config) : Config :=
  { c with
    dsn := o.dsn <|> c.dsn
    snapshot := o.snapshot <|> c.snapshot
    schema := o.schema.getD c.schema
    stem := o.stem.getD c.stem
    dialect := o.dialect.getD c.dialect
    rootTable := o.rootTable.getD c.rootTable
    output := o.output <|> c.output
    wrappers := c.wrappers && !o.noWrappers }

namespace Level

/-- The text that an option was given. -/
def text? (l : Level) (name : String) : Option String :=
  match l.given.lookup name with
  | some (.text s) => some s
  | _ => none

/-- The database that an option was given. -/
def database? (l : Level) (name : String) : Option Database :=
  match l.given.lookup name with
  | some (.database d) => some d
  | _ => none

/-- Whether an option was given. -/
def has (l : Level) (name : String) : Bool := (l.given.lookup name).isSome

end Level

/-- The settings that the options of a command give. The environment stands
in for a connection that is not given. -/
def Overrides.ofLevel (l : Level) (databaseUrl : Option String) : Overrides where
  dsn := l.text? "dsn" <|> databaseUrl
  snapshot := l.text? "snapshot"
  schema := l.text? "schema"
  stem := l.text? "prefix"
  dialect := l.database? "dialect"
  rootTable := l.text? "root"
  output := l.text? "output"
  noWrappers := l.has "no-wrappers"

/-- What is to be done. -/
inductive Command where
  /-- Write a script, and install it if asked to. -/
  | generate (install : Bool)
  /-- Print the statements that drop the installed functions. -/
  | dropStatements
  deriving DecidableEq

/-- What a user asks for. -/
structure Invocation where
  command : Command
  overrides : Overrides
  configFile : Option String
  verbose : Bool
  deriving DecidableEq

namespace Invocation

/-- The options of every command. -/
def commonOptions : List OptionSpec :=
  [⟨"config", none, .path⟩, ⟨"verbose", some 'v', .flag⟩, ⟨"help", some 'h', .help⟩]

/-- The options that say where the schema comes from. -/
def sourceOptions : List OptionSpec :=
  [⟨"dsn", none, .text⟩, ⟨"snapshot", none, .path⟩, ⟨"schema", none, .text⟩,
    ⟨"prefix", none, .text⟩]

/-- The options of a generation. -/
def generateOptions : List OptionSpec :=
  [⟨"dialect", none, .database⟩, ⟨"root", none, .text⟩, ⟨"output", some 'o', .path⟩,
    ⟨"no-wrappers", none, .flag⟩, ⟨"install", none, .flag⟩]

/-- The names of the commands. -/
def commandNames : List String := ["generate", "drop-statements", "help"]

/-- The program itself. -/
def program : CommandSpec :=
  ⟨commonOptions ++ [⟨"version", some 'V', .version⟩], commandNames⟩

/-- The command that writes a script. -/
def generate : CommandSpec := ⟨commonOptions ++ sourceOptions ++ generateOptions, []⟩

/-- The command that prints statements. -/
def dropStatements : CommandSpec := ⟨commonOptions ++ sourceOptions, []⟩

/-- The answer to a question for help on a command. -/
def helpOn : List String → UsageError
  | [] => .help
  | [name] => if commandNames.contains name then .help else .invalidSubcommand
  | _ => .invalidSubcommand

/-- Reads the options of a command, those before it being in `outer`. -/
def ofCommand (spec : CommandSpec) (command : Level → Command) (outer : Level)
    (args : List String) (databaseUrl : Option String) : Except UsageError Invocation := do
  let (inner, _) ← spec.read .empty false args
  let outer ← outer.settle
  return { command := command inner
           overrides := .ofLevel inner databaseUrl
           configFile := inner.text? "config" <|> outer.text? "config"
           verbose := inner.has "verbose" || outer.has "verbose" }

/-- Reads what a user asks for from the arguments of the program and the
connection in the environment. -/
def parse (args : List String) (databaseUrl : Option String) : Except UsageError Invocation := do
  let (outer, command) ← program.read .empty false args
  match command with
  | none => throw (if outer.given.isEmpty then .helpOnMissing else .missingSubcommand)
  | some (name, rest) =>
    if name = "generate" then
      ofCommand generate (fun l => .generate (l.has "install")) outer rest databaseUrl
    else if name = "drop-statements" then
      ofCommand dropStatements (fun _ => .dropStatements) outer rest databaseUrl
    else throw (helpOn rest)

end Invocation

end DeleteCascade
