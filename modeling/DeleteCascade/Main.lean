import DeleteCascade.CommandLine.Run
import DeleteCascade.Host.FileTree
/-!
# Main — the program

The services of the machine that the program runs on, and what a user is
told when a run is over. Everything else is decided by `Invocation.parse`
and `Invocation.run`.
-/

namespace DeleteCascade

namespace Machine

/-- Runs an action, `none` if it fails. -/
def attempt {α : Type} (action : IO α) : IO (Option α) := do
  match ← action.toBaseIO with
  | .ok a => return some a
  | .error _ => return none

/-- The working directory and those around it. -/
def directories : IO (List String) := do
  let place := PathName.partsOf (← IO.currentDir).toString
  return (FileTree.around place).map FileTree.absolutePath

/-- Where the user keeps settings. -/
def settings : IO (Option String) := do
  match ← IO.getEnv "XDG_CONFIG_HOME" with
  | some directory =>
    if directory.startsWith "/" then
      return some directory
  | none => pure ()
  return (← IO.getEnv "HOME").map fun home => joinPath home ".config"

/-- Puts a text into a file, and makes the directories around it. -/
def write (path text : String) : IO (Except WriteError Unit) := do
  let target := (← IO.currentDir) / path
  match target.parent with
  | some directory =>
    if (← attempt (IO.FS.createDirAll directory)).isNone then
      return .error .noDirectory
  | none => pure ()
  match ← attempt (IO.FS.writeFile target text) with
  | some _ => return .ok ()
  | none => return .error .notWritten

/-- The services of the machine. It has no client program to call: scripts
are made from snapshots. -/
def host : Host IO where
  directories := directories
  settings := settings
  isFile path := do
    let target := (← IO.currentDir) / path
    return (← target.pathExists) && !(← target.isDir)
  isDirectory path := do ((← IO.currentDir) / path).isDir
  hasEntry path := do ((← IO.currentDir) / path).pathExists
  read path := do attempt (IO.FS.readFile ((← IO.currentDir) / path))
  write := write
  print text := do
    IO.print text
    (← IO.getStdout).flush
  psql _ _ := return .notStarted

end Machine

/-- How the program is called. -/
def usage : String :=
  "Generates recursive delete functions for a 3DCityDB schema and its ADEs\n\n" ++
  "Usage: adedel [--config FILE] [-v] generate [OPTIONS]\n" ++
  "       adedel [--config FILE] [-v] drop-statements [OPTIONS]\n\n" ++
  "Options of both commands:\n" ++
  "  --dsn TEXT        connection used for introspection and installation\n" ++
  "  --snapshot FILE   schema snapshot read instead of a live database\n" ++
  "  --schema NAME     schema of the tables\n" ++
  "  --prefix TEXT     what the names of generated functions begin with\n\n" ++
  "Options of generate:\n" ++
  "  --dialect NAME    postgresql or oracle\n" ++
  "  --root NAME       table whose delete function is the entry point\n" ++
  "  -o, --output FILE script path; printed when omitted\n" ++
  "  --no-wrappers     skip the functions for a single id\n" ++
  "  --install         replace the installed functions with the generated ones\n"

/-- What a user is told about arguments that are not understood. -/
def UsageError.describe : UsageError → String
  | .unknownArgument => "unexpected argument"
  | .invalidValue => "a value is required for an option"
  | .valueValidation => "invalid value for an option"
  | .conflict => "an option cannot be used multiple times"
  | .tooManyValues => "unexpected value for an option"
  | .invalidSubcommand => "unrecognized subcommand"
  | .missingSubcommand => "a subcommand is required"
  | .help | .helpOnMissing => usage
  | .version => "adedel 0.1.0"

/-- What a user is told about an error. -/
def CommandError.describe (e : CommandError) : String :=
  match e.message? with
  | some message => message
  | none =>
    match e with
    | .config .notFound => "config file not found"
    | .config .unreadable => "cannot read the config file"
    | .config _ => "invalid config"
    | .snapshot .unreadable => "cannot read the snapshot"
    | .snapshot _ => "invalid snapshot"
    | .write .noDirectory => "cannot create the directory of the script"
    | .write .notWritten => "cannot write the script"
    | .catalog .notStarted | .install .notStarted => "command not found: psql"
    | _ => "invalid answer of the database"

/-- Does what the arguments ask for. The answer is the exit code. -/
def runProgram (args : List String) : IO UInt32 := do
  match Invocation.parse args (← IO.getEnv "DATABASE_URL") with
  | .error .help =>
    IO.print usage
    return 0
  | .error .version =>
    IO.println (UsageError.describe .version)
    return 0
  | .error e =>
    IO.eprintln ("error: " ++ e.describe)
    return 2
  | .ok invocation =>
    match ← (invocation.run Machine.host).run with
    | .ok () => return 0
    | .error e =>
      IO.eprintln ("Error: " ++ e.describe)
      return 1

end DeleteCascade

/-- The program. -/
def main (args : List String) : IO UInt32 := DeleteCascade.runProgram args
