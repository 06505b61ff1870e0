import DeleteCascade.Config.Document
import DeleteCascade.Host.Basic
/-!
# Config — finding the settings

Settings come from the file that was asked for, or else from the one at the
root of the project around the working directory, or else from the user's
own. Where there is no file the defaults hold.
-/

namespace DeleteCascade

namespace Config

/-- The name of a file of settings. -/
def fileName : String := "adedel.toml"

variable {m : Type → Type} [Monad m]

/-- Whether a directory is the root of a project: it has a file of settings
or is under version control. -/
def isProjectRoot (h : Host m) (directory : String) : m Bool := do
  if ← h.isFile (joinPath directory fileName) then
    return true
  h.isDirectory (joinPath directory ".git")

/-- The first of some directories that is the root of a project. -/
def firstProjectRoot (h : Host m) : List String → m (Option String)
  | [] => return none
  | directory :: rest => do
    if ← isProjectRoot h directory then
      return some directory
    firstProjectRoot h rest

/-- The root of the project around the working directory. -/
def projectRoot (h : Host m) : m (Option String) := do
  firstProjectRoot h (← h.directories)

/-- Reads the settings in a file. -/
def load (h : Host m) (path : String) : m (Except ConfigError Config) := do
  if ← h.hasEntry path then
    match ← h.read path with
    | some text => return ofText text
    | none => return .error .unreadable
  else
    return .error .notFound

/-- The first of some files that is there. -/
def firstFile (h : Host m) : List String → m (Option String)
  | [] => return none
  | path :: rest => do
    if ← h.isFile path then
      return some path
    firstFile h rest

/-- Where settings are looked for when no file was asked for. -/
def candidates (h : Host m) : m (List String) := do
  let root ← projectRoot h
  let settings ← h.settings
  return (root.map fun d => joinPath d fileName).toList ++
    (settings.map fun d => joinPath (joinPath d "adedel") fileName).toList

/-- The settings of a run, and the file they come from. -/
def find (h : Host m) (explicit : Option String) :
    m (Except ConfigError (Config × Option String)) := do
  let path ←
    match explicit with
    | some path => pure (some path)
    | none => firstFile h (← candidates h)
  match path with
  | none => return .ok ({}, none)
  | some path => return (← load h path).map fun c => (c, some path)

end Config

end DeleteCascade
