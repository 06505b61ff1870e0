/-!
# Host — what a run needs of its machine

A run reads files, writes a script, prints and has the client program of the
database carry out statements. All of this goes through a `Host`, so that a
run can be reasoned about on a host that is a plain state.
-/

namespace DeleteCascade

/-- Why a script was not written. -/
inductive WriteError where
  /-- The directory it goes to could not be made. -/
  | noDirectory
  | notWritten
  deriving DecidableEq

/-- One call of the client program. -/
structure PsqlCall where
  arguments : List String
  /-- What it is fed, if anything. -/
  input : Option String
  deriving DecidableEq

/-- What became of a call of the client program. -/
inductive PsqlOutcome where
  | notStarted
  /-- It took longer than it may. -/
  | timedOut
  | finished (succeeded : Bool) (output errors : String)
  deriving DecidableEq

/-- The services of a machine. -/
structure Host (m : Type → Type) where
  /-- The working directory and those around it, the innermost first. -/
  directories : m (List String)
  /-- Where the user keeps settings. -/
  settings : m (Option String)
  isFile : String → m Bool
  isDirectory : String → m Bool
  /-- Whether there is anything of this name. -/
  hasEntry : String → m Bool
  /-- The text of a file, if it can be read. -/
  read : String → m (Option String)
  /-- Puts a text into a file, and makes the directories around it. -/
  write : (path text : String) → m (Except WriteError Unit)
  print : String → m Unit
  /-- Calls the client program, which may take so many seconds. -/
  psql : (timeout : Nat) → PsqlCall → m PsqlOutcome

/-- The path of a name in a directory. -/
def joinPath (directory name : String) : String :=
  if directory.endsWith "/" then directory ++ name else directory ++ "/" ++ name

end DeleteCascade
