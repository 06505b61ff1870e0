import DeleteCascade.Host.Basic
/-!
# Host — a tree of files

Files and directories below a root, told apart by their location: the names
on the way to them. A path is followed name by name from a working
directory, and each name but the last must be that of a directory
(`FileTree.walk`). The root is a directory that is always there, and its
own parent.
-/

namespace DeleteCascade

/-- The names on the way from the root. -/
abbrev Location := List String

/-- What is at a location. -/
inductive FileEntry where
  | file (text : String)
  | directory
  deriving DecidableEq

/-- A path as it is followed. -/
structure PathName where
  /-- Whether it begins at the root. -/
  absolute : Bool
  /-- The names in it; a slash at the end asks for the directory itself. -/
  parts : List String
  deriving DecidableEq

namespace PathName

/-- The names between the slashes of a path. -/
def partsOf (s : String) : List String :=
  match (s.splitOn "/").filter (· ≠ "") with
  | [] => []
  | parts => if s.endsWith "/" then parts ++ ["."] else parts

/-- Whether a file can have this name: it has no NUL and is not too long. -/
def isName (part : String) : Bool := !part.contains '\x00' && part.utf8ByteSize ≤ 255

/-- Reads a path. The empty path names nothing, nor does one with a part
that no file can have as its name. -/
def ofString? (s : String) : Option PathName :=
  if s.isEmpty || !(partsOf s).all isName then none else some ⟨s.startsWith "/", partsOf s⟩

end PathName

/-- Files and directories. -/
structure FileTree where
  entries : List (Location × FileEntry)

namespace FileTree

/-- A tree without files. -/
def empty : FileTree := ⟨[]⟩

/-- What is at a location. -/
def entry? (t : FileTree) (place : Location) : Option FileEntry :=
  if place = [] then some .directory else t.entries.lookup place

/-- Puts something at a location. -/
def set (t : FileTree) (place : Location) (e : FileEntry) : FileTree :=
  ⟨(place, e) :: t.entries.filter fun old => old.1 ≠ place⟩

/-- Follows names from a location. -/
def walk (t : FileTree) (origin : Location) : List String → Option Location
  | [] => some origin
  | part :: rest =>
    if t.entry? origin ≠ some .directory then none
    else if part = "." then t.walk origin rest
    else if part = ".." then t.walk origin.dropLast rest
    else t.walk (origin ++ [part]) rest

/-- Where a path begins. -/
def start (cwd : Location) (p : PathName) : Location := if p.absolute then [] else cwd

/-- What a path leads to. -/
def find? (t : FileTree) (cwd : Location) (path : String) : Option FileEntry := do
  let p ← PathName.ofString? path
  t.entry? (← t.walk (start cwd p) p.parts)

/-- The text of the file that a path leads to. -/
def read? (t : FileTree) (cwd : Location) (path : String) : Option String :=
  match t.find? cwd path with
  | some (.file text) => some text
  | _ => none

/-- Makes the directories that names lead through. A file in the way ends
it. -/
def makeDirectories (t : FileTree) (origin : Location) : List String → FileTree × Bool
  | [] => (t, true)
  | part :: rest =>
    if part = "." then t.makeDirectories origin rest
    else if part = ".." then t.makeDirectories origin.dropLast rest
    else
      let next := origin ++ [part]
      match t.entry? next with
      | some .directory => t.makeDirectories next rest
      | some (.file _) => (t, false)
      | none => (t.set next .directory).makeDirectories next rest

/-- The names of a path but the last, when those that stay in place do not
count. -/
def parentParts (p : PathName) : List String := (p.parts.filter (· ≠ ".")).dropLast

/-- Puts a text into the file that the last name of a path means, in a
directory that is there. -/
def replaceFile (t : FileTree) (cwd : Location) (path text : String) :
    FileTree × Except WriteError Unit :=
  let written := do
    let p ← PathName.ofString? path
    let name ← p.parts.getLast?
    if name = "." ∨ name = ".." then none
    else do
      let directory ← t.walk (start cwd p) p.parts.dropLast
      let target := directory ++ [name]
      if t.entry? directory ≠ some .directory ∨ t.entry? target = some .directory then none
      else some (t.set target (.file text))
  match written with
  | some t' => (t', .ok ())
  | none => (t, .error .notWritten)

/-- Puts a text into the file of a path, and makes the directories around it
first. -/
def write (t : FileTree) (cwd : Location) (path text : String) :
    FileTree × Except WriteError Unit :=
  let parts := PathName.partsOf path
  let names := parentParts ⟨path.startsWith "/", parts⟩
  if !names.all PathName.isName then (t, .error .noDirectory)
  else
    match t.makeDirectories (start cwd ⟨path.startsWith "/", parts⟩) names with
    | (t, false) => (t, .error .noDirectory)
    | (t, true) => t.replaceFile cwd path text

/-- The path of a location from the root. -/
def absolutePath (place : Location) : String := "/" ++ "/".intercalate place

/-- A location and those around it, the innermost first. -/
def around (place : Location) : List Location :=
  (List.range (place.length + 1)).reverse.map place.take

/-- The files with their texts. -/
def files (t : FileTree) : List (Location × String) :=
  t.entries.filterMap fun (place, e) =>
    match e with
    | .file text => some (place, text)
    | .directory => none

end FileTree

end DeleteCascade
