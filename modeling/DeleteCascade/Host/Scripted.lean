import DeleteCascade.Host.FileTree
/-!
# Host — a scripted host

A host that is a state: its files are a tree, the client program gives
prepared answers, and what is printed and called is kept.
-/

namespace DeleteCascade

/-- The state of a scripted host. -/
structure Scripted where
  tree : FileTree
  cwd : Location
  settings : Option Location
  /-- The answers that the client program will give; none if there is no
  such program. -/
  answers : Option (List PsqlOutcome)
  /-- The calls of the client program so far. -/
  calls : List PsqlCall
  /-- What was printed so far. -/
  printed : String

namespace Scripted

/-- A host with files and answers, on which nothing has happened. -/
def new (tree : FileTree) (cwd : Location) (settings : Option Location)
    (answers : Option (List PsqlOutcome)) : Scripted :=
  ⟨tree, cwd, settings, answers, [], ""⟩

/-- The answer of the client program once those prepared are used up. -/
def noAnswer : PsqlOutcome := .finished false "" "no response"

/-- A call of the client program. -/
def callPsql (s : Scripted) (call : PsqlCall) : PsqlOutcome × Scripted :=
  match s.answers with
  | none => (.notStarted, s)
  | some [] => (noAnswer, { s with calls := s.calls ++ [call] })
  | some (answer :: rest) => (answer, { s with answers := some rest, calls := s.calls ++ [call] })

/-- The services of a scripted host. -/
def host : Host (StateM Scripted) where
  directories := do return (FileTree.around (← get).cwd).map FileTree.absolutePath
  settings := do return (← get).settings.map FileTree.absolutePath
  isFile path := do
    let s ← get
    return (s.tree.read? s.cwd path).isSome
  isDirectory path := do
    let s ← get
    return s.tree.find? s.cwd path == some .directory
  hasEntry path := do
    let s ← get
    return (s.tree.find? s.cwd path).isSome
  read path := do
    let s ← get
    return s.tree.read? s.cwd path
  write path text := do
    let s ← get
    let (tree, result) := s.tree.write s.cwd path text
    set { s with tree }
    return result
  print text := modify fun s => { s with printed := s.printed ++ text }
  psql _ call := modifyGet fun s => s.callPsql call

end Scripted

end DeleteCascade
