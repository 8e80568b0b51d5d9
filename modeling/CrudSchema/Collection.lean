import CrudSchema.Fault

/-!
# Declarations in files

**Collecting** (`collect`). A path to a file stands for that file, whatever its name; a path to a
directory stands for the declaration files at any depth below it. The files come in the order of
their paths and each once, so the order in which paths are given is of no consequence. The first
path that leads nowhere is at fault, unless one before it is too long to be looked up or leads to a
directory with such a path below. Directories are searched at any depth: that an interpreter stops a
recursion after some thousand levels is left out.

**Loading** (`loadPaths`). All files are read before the first is parsed. How many of them may be
read at the same time is of no consequence, but it must not be none.
-/

namespace CrudSchema

/-- The endings of declaration files. -/
def declarationSuffixes : List String := [".graphql", ".gql"]

/-- The declaration files below a directory that a path leads to. -/
def declarationsBelow (t : FileTree) (p : Path) (directory : Location) : List Path :=
  ((t.filesBelow directory).map p.extend).filter fun file =>
    declarationSuffixes.contains file.suffix

/-- Of what is below a directory that a path leads to, the first whose path is too long to be
looked up. -/
def overlongBelow? (t : FileTree) (p : Path) (directory : Location) : Option Path :=
  ((t.namesBelow directory).map p.extend).find? FileTree.isOverlong

/-- The files one path stands for. -/
def filesAt (t : FileTree) (p : Path) : Except Fault (List Path) :=
  match t.find? p with
  | .ok (some (location, .directory)) =>
    match overlongBelow? t p location with
    | some q => .error (.file ⟨.nameTooLong, q⟩)
    | none => .ok (declarationsBelow t p location)
  | .ok (some (_, .file _)) => .ok [p]
  | .ok none => .error (.config (.missingDeclarations p))
  | .error e => .error (.file e)

/-- The files some paths stand for, in order and each once. -/
def collect (t : FileTree) (paths : List String) : Except Fault (List Path) := do
  let found ← paths.mapM fun path => filesAt t (.ofText path)
  return Path.sorted found.flatten

/-- The documents in the files some paths stand for. A document's source is its file. At most
`workers` files, if that is given, are read at the same time. -/
def loadPaths (t : FileTree) (paths : List String) (workers : Option Int) :
    Logged Fault (List Document) := do
  let files ← .ofExcept (collect t paths)
  Logged.tell ⟨.debug, .loading, "Loading " ++ toString files.length ++ " declaration file(s)"⟩
  if workers.any (· ≤ 0) then Logged.fail .noWorkers
  let texts ← .ofExcept (files.mapM t.readText)
  (loadTexts ((files.map Path.text).zip texts)).mapError fun e => .generation (.declaration e)

end CrudSchema
