import DeleteCascade.Host.Basic
import DeleteCascade.Text.Blank
/-!
# Catalog — the client program

Statements are carried out by the client program of the database. It is
told to ignore the user's own settings and to stop at the first error.
-/

namespace DeleteCascade

/-- Why the client program did not do what it was called for. -/
inductive PsqlError where
  | notStarted
  /-- It failed with this message. -/
  | failed (message : String)
  | timedOut
  /-- Its answer cannot be read. -/
  | malformed
  deriving DecidableEq

namespace PsqlError

/-- The message when the catalog was asked, of an error of which the text is
not left to others. -/
def queryMessage? : PsqlError → Option String
  | failed message => some ("query failed: " ++ message)
  | timedOut => some "operation timed out"
  | _ => none

/-- The message when functions were listed or installed, of an error of
which the text is not left to others. -/
def installMessage? : PsqlError → Option String
  | failed message => some ("installation failed: " ++ message)
  | timedOut => some "operation timed out"
  | _ => none

end PsqlError

/-- A database to be reached through the client program. -/
structure Connection where
  dsn : String
  /-- How many seconds a call may take. -/
  timeout : Nat
  deriving DecidableEq

namespace Connection

variable {m : Type → Type} [Monad m]

/-- The arguments of every call. -/
def commonArguments (c : Connection) : List String := [c.dsn, "-X", "-v", "ON_ERROR_STOP=1"]

/-- What an outcome means for the caller. -/
def read (o : PsqlOutcome) : Except PsqlError String :=
  match o with
  | .notStarted => .error .notStarted
  | .timedOut => .error .timedOut
  | .finished true output _ => .ok output
  | .finished false _ errors => .error (.failed (trim errors))

/-- Calls the client program and answers what it printed. A program is not
started with a NUL in an argument. -/
def call (c : Connection) (h : Host m) (arguments : List String) (input : Option String) :
    ExceptT PsqlError m String := do
  let arguments := c.commonArguments ++ arguments
  if arguments.any fun a => a.contains '\x00' then
    throw .notStarted
  ExceptT.mk (read <$> h.psql c.timeout ⟨arguments, input⟩)

/-- Has one statement carried out and answers the bare rows. -/
def query (c : Connection) (h : Host m) (statement : String) : ExceptT PsqlError m String :=
  c.call h ["-t", "-A", "-c", statement] none

/-- Has a script carried out as one transaction. -/
def execute (c : Connection) (h : Host m) (script : String) : ExceptT PsqlError m Unit := do
  let _ ← c.call h ["--single-transaction", "-q", "-f", "-"] (some script)

end Connection

end DeleteCascade
