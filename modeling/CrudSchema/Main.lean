import CrudSchema.CommandLine.Execution

/-!
# The program

The outer layer: the files that a command line concerns are read into a tree, the command line is
run on the tree, and what has changed in it is written back.
-/

namespace CrudSchema.Program

open CommandLine

/-! ## The world -/

def spelling (location : Location) : String := "/" ++ "/".intercalate location

def isDirectory (location : Location) : IO Bool := do
  ((← IO.currentDir) / spelling location).isDir

def exists? (location : Location) : IO Bool := do
  ((← IO.currentDir) / spelling location).pathExists

def namesIn (directory : Location) : IO (List String) := do
  let found ← ((← IO.currentDir) / spelling directory).readDir
  return found.toList.map fun e => e.fileName

/-! ## Reading -/

/-- Take up the file or directory at a location. -/
def takeUp (t : FileTree) (location : Location) : IO FileTree := do
  if location.isEmpty then return t
  else if ← isDirectory location then return t.put location .directory
  else if ← exists? location then
    return t.put location (.file (← IO.FS.readBinFile (spelling location)))
  else return t

/-- Take up what stands along a path. -/
def takeUpPath (t : FileTree) (p : Path) : IO FileTree := do
  let (t, _) ← p.parts.foldlM (fun (t, here) name => do
    let next := FileTree.neighbour here name
    return (← takeUp t next, next)) (t, t.start p)
  return t

/-- Take up the declaration files below a directory. -/
partial def takeUpBelow (t : FileTree) (directory : Location) : IO FileTree := do
  (← namesIn directory).foldlM (fun t name => do
    let location := directory ++ [name]
    if ← isDirectory location then takeUpBelow (t.put location .directory) location
    else if declarationSuffixes.contains (Path.endingOf name) then takeUp t location
    else return t) t

/-- Take up what stands along a path and the declaration files below its end. -/
def takeUpDeclarations (t : FileTree) (path : String) : IO FileTree := do
  let p := Path.ofText path
  let t ← takeUpPath t p
  match t.find? p with
  | .ok (some (location, .directory)) => takeUpBelow t location
  | _ => return t

/-- Take up what a command with some settings concerns. -/
def takeUpSettings (t : FileTree) (configPath : Option String) (s : Selection)
    (schemaPath : String) : IO FileTree := do
  match ((ExceptT.run (Action.settings configPath s schemaPath)).run { files := t }).1 with
  | .ok c =>
    let t ← c.types.foldlM takeUpDeclarations t
    takeUpPath t (.ofText c.schemaPath)
  | .error _ => return t

/-- Take up what a command line concerns. -/
def takeUpRequest (t : FileTree) (words : List String) : IO FileTree := do
  match request words with
  | .ok (.run configPath c) =>
    let p := Path.ofText (configPath.getD "")
    let t ← takeUpPath t p
    match c with
    | .init _ => takeUpPath t (Action.typesDirectory p)
    | .generate s schemaPath => takeUpSettings t configPath s schemaPath
    | .check s => takeUpSettings t configPath s ""
  | _ => return t

/-! ## Writing -/

/-- Write what is in a tree and was not in the one before. -/
def writeBack (before after : FileTree) : IO Unit := do
  for (location, e) in after.entries.entries do
    if before.entries.get? location ≠ some e then
      match e with
      | .directory => IO.FS.createDir (spelling location)
      | .file bytes => IO.FS.writeBinFile (spelling location) bytes

end CrudSchema.Program

open CrudSchema Program in
def main (words : List String) : IO UInt32 := do
  let here := (Path.ofText (← IO.currentDir).toString).parts
  let start ← takeUpPath ⟨.empty, here⟩ (Path.ofText (spelling here))
  let before ← takeUpRequest start words
  let outcome := CommandLine.run words before
  writeBack before outcome.progress.files
  IO.print outcome.progress.output
  IO.eprint outcome.progress.errors
  match outcome.ending with
  | .ok code => return code.toUInt32
  | .error e =>
    IO.eprintln e.message
    return 1
