import DeleteCascade.Script.Database
/-!
# Command line — arguments

Reading the arguments of a command: options by their long or short name,
with a value behind an equals sign or in the next argument, and subcommands.
An option that is given is settled, its value checked, only when the next
option is met or the arguments end (`Level.settle`), which decides the one
of two errors that is reported.
-/

namespace DeleteCascade

/-- Why arguments are not understood, or what they ask for instead of a
command. -/
inductive UsageError where
  | unknownArgument
  /-- A value is missing, or is empty where it must not be. -/
  | invalidValue
  /-- A value is none of those allowed. -/
  | valueValidation
  /-- An option is given twice. -/
  | conflict
  /-- An option without value is given one. -/
  | tooManyValues
  | invalidSubcommand
  | missingSubcommand
  | help
  | version
  /-- There are no arguments at all. -/
  | helpOnMissing
  deriving DecidableEq

/-- What an option takes or does. -/
inductive OptionKind where
  | flag
  | text
  | path
  | database
  | help
  | version
  deriving DecidableEq

/-- Whether the option has a value. -/
def OptionKind.takesValue : OptionKind → Bool
  | text | path | database => true
  | flag | help | version => false

/-- An option. -/
structure OptionSpec where
  name : String
  short : Option Char
  kind : OptionKind
  deriving DecidableEq

/-- A command with its options and its subcommands. -/
structure CommandSpec where
  options : List OptionSpec
  subcommands : List String

namespace CommandSpec

/-- The option with this long name. -/
def option? (c : CommandSpec) (name : String) : Option OptionSpec :=
  c.options.find? (·.name == name)

/-- The option with this short name. -/
def shortOption? (c : CommandSpec) (short : Char) : Option OptionSpec :=
  c.options.find? (·.short == some short)

end CommandSpec

/-- The value of an option that is given. -/
inductive OptionValue where
  | present
  | text (s : String)
  | database (d : Database)
  deriving DecidableEq

/-- The options given to one command. -/
structure Level where
  given : List (String × OptionValue)
  /-- The option met last, with its value once there is one. -/
  pending : Option (OptionSpec × Option String)

namespace Level

/-- No options. -/
def empty : Level := ⟨[], none⟩

/-- The value that a text means for an option. -/
def value (o : OptionSpec) (text : String) : Except UsageError OptionValue :=
  match o.kind with
  | .path => if text.isEmpty then .error .invalidValue else .ok (.text text)
  | .database =>
    match Database.parse? text with
    | some d => .ok (.database d)
    | none => .error .valueValidation
  | .text => .ok (.text text)
  | .flag | .help | .version => .ok .present

/-- Adds an option with its value, unless it is there. -/
def record (l : Level) (o : OptionSpec) (text : String) : Except UsageError Level :=
  if l.given.any (·.1 == o.name) then .error .conflict
  else (value o text).map fun v => { l with given := l.given ++ [(o.name, v)] }

/-- Adds the option met last. -/
def settle (l : Level) : Except UsageError Level :=
  match l.pending with
  | none => .ok l
  | some (_, none) => .error .invalidValue
  | some (o, some text) => { l with pending := none }.record o text

/-- Meets an option with its value. -/
def meetWithValue (l : Level) (o : OptionSpec) (text : String) : Except UsageError Level := do
  (← l.settle).record o text

/-- Meets an option that waits for its value. -/
def meet (l : Level) (o : OptionSpec) : Except UsageError Level := do
  return { ← l.settle with pending := some (o, none) }

/-- Meets an option without value. -/
def meetFlag (l : Level) (o : OptionSpec) : Except UsageError Level := do
  let l ← l.settle
  match o.kind with
  | .help => throw .help
  | .version => throw .version
  | _ => l.record o ""

/-- Gives the option met last its value. -/
def giveValue (l : Level) (text : String) : Level :=
  { l with pending := l.pending.map fun (o, _) => (o, some text) }

end Level

namespace CommandSpec

/-- Meets the option with a long name. The answer tells whether a value is
to follow. -/
def meetLong (c : CommandSpec) (l : Level) (name : String) (attached : Option String) :
    Except UsageError (Level × Bool) :=
  match c.option? name with
  | none => .error .unknownArgument
  | some o =>
    match o.kind.takesValue, attached with
    | true, some text => (l.meetWithValue o text).map fun l => (l, false)
    | true, none => (l.meet o).map fun l => (l, true)
    | false, some _ => .error .tooManyValues
    | false, none => (l.meetFlag o).map fun l => (l, false)

/-- Meets options with short names behind one dash. What follows an option
with a value is its value. -/
def meetShort (c : CommandSpec) (l : Level) : List Char → Except UsageError (Level × Bool)
  | [] => .ok (l, false)
  | short :: rest =>
    match c.shortOption? short with
    | none => .error .unknownArgument
    | some o =>
      if o.kind.takesValue then
        match rest with
        | [] => (l.meet o).map fun l => (l, true)
        | '=' :: text => (l.meetWithValue o (String.ofList text)).map fun l => (l, false)
        | text => (l.meetWithValue o (String.ofList text)).map fun l => (l, false)
      else
        match l.meetFlag o with
        | .error e => .error e
        | .ok l => c.meetShort l rest

/-- The error for an argument that is no option. -/
def strayArgument (c : CommandSpec) (afterDashes : Bool) (arg : String) : UsageError :=
  if c.subcommands.isEmpty then .unknownArgument
  else if afterDashes && c.subcommands.contains arg then .unknownArgument
  else .invalidSubcommand

/-- An argument by its form. -/
inductive Form where
  | dashes
  | long (name : String) (attached : Option String)
  | short (letters : List Char)
  | plain

/-- The form of an argument. -/
def Form.of (arg : String) : Form :=
  match arg.toList with
  | ['-', '-'] => .dashes
  | '-' :: '-' :: rest =>
    match rest.span (· ≠ '=') with
    | (name, []) => .long (String.ofList name) none
    | (name, _ :: text) => .long (String.ofList name) (some (String.ofList text))
  | '-' :: c :: rest => .short (c :: rest)
  | _ => .plain

/-- Reads arguments up to the end or to a subcommand, which is answered with
the arguments behind it. An option before a subcommand may be left to be
settled. -/
def read (c : CommandSpec) (l : Level) (expecting : Bool) :
    List String → Except UsageError (Level × Option (String × List String))
  | [] => l.settle.map fun l => (l, none)
  | arg :: rest =>
    if !expecting && c.subcommands.contains arg then .ok (l, some (arg, rest))
    else
      match Form.of arg with
      | .dashes =>
        match rest with
        | [] => l.settle.map fun l => (l, none)
        | stray :: _ => .error (c.strayArgument true stray)
      | .long name attached =>
        match c.meetLong l name attached with
        | .error e => .error e
        | .ok (l, expecting) => c.read l expecting rest
      | .short letters =>
        match c.meetShort l letters with
        | .error e => .error e
        | .ok (l, expecting) => c.read l expecting rest
      | .plain =>
        if expecting then c.read (l.giveValue arg) false rest
        else .error (c.strayArgument false arg)

end CommandSpec

end DeleteCascade
