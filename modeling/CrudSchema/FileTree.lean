import CrudSchema.OrderedMap
import CrudSchema.Path
import CrudSchema.Text.Quoted

/-!
# The files a run works on

**The tree** (`FileTree`). What stands at each location, and the directory one stands in. A
location is the list of names that lead to it from the root; the root is a directory that is
always there.

**Looking up** (`locate`). A path is followed name by name from where it starts. Two dots go up,
and every name but the last must be that of a directory: a missing one and a file on the way are
different faults. A missing last name is no fault yet, for something may be made there.

**Asking and doing.** A question (`find?`, `exists?`) takes a fault on the way for a no, unless a
name is too long to be looked up at all. Reading, writing and making directories fail with the
fault. `makeDirectories` makes what is missing on the way, and keeps it if it fails later. It goes
up as far as it must: that an interpreter stops a recursion after some thousand levels is left out.
-/

namespace CrudSchema

/-! ## Faults -/

inductive FileError.Cause where
  | notFound
  | alreadyExists
  | notDirectory
  | isDirectory
  | nameTooLong
  | nullCharacter
  deriving DecidableEq, Repr

structure FileError where
  cause : FileError.Cause
  path : Path
  deriving DecidableEq

namespace FileError

/-- The number a cause is known by, and its text. -/
def Cause.known : Cause → Option (Nat × String)
  | .notFound => some (2, "No such file or directory")
  | .alreadyExists => some (17, "File exists")
  | .notDirectory => some (20, "Not a directory")
  | .isDirectory => some (21, "Is a directory")
  | .nameTooLong => some (36, "File name too long")
  | .nullCharacter => none

def message (e : FileError) : String :=
  match e.cause.known with
  | some (number, text) =>
    "[Errno " ++ toString number ++ "] " ++ text ++ ": " ++ Text.quoted e.path.text
  | none => "embedded null byte"

end FileError

/-! ## The tree -/

abbrev Location := List String

inductive Entry where
  | file (bytes : ByteArray)
  | directory

instance : DecidableEq Entry
  | .file a, .file b =>
    if h : a.data.toList = b.data.toList then
      isTrue (congrArg Entry.file (ByteArray.ext (Array.toList_inj.1 h)))
    else isFalse fun e => h (Entry.file.inj e ▸ rfl)
  | .directory, .directory => isTrue rfl
  | .file _, .directory => isFalse nofun
  | .directory, .file _ => isFalse nofun

structure FileTree where
  entries : OrderedMap Location Entry
  current : Location

namespace FileTree

/-- What stands at a location. -/
def entry? (t : FileTree) (location : Location) : Option Entry :=
  if location.isEmpty then some .directory else t.entries.get? location

/-- Where a path starts. -/
def start (t : FileTree) (p : Path) : Location :=
  match p.anchor with
  | .relative => t.current
  | _ => []

/-- A name has at most so many bytes. -/
def longestName : Nat := 255

/-- A path has at most so many bytes. -/
def longestPath : Nat := 4095

/-- The path is too long to be looked up. -/
def isOverlong (p : Path) : Bool := longestPath < p.text.utf8ByteSize

/-- The location a name leads to from a directory. -/
def neighbour (here : Location) (name : String) : Location :=
  if name = ".." then here.dropLast else here ++ [name]

/-- Follow names from a directory: the location they lead to, and what stands there. -/
def follow (t : FileTree) (here : Location) :
    List String → Except FileError.Cause (Location × Option Entry)
  | [] => .ok (here, some .directory)
  | name :: rest =>
    if longestName < name.utf8ByteSize then .error .nameTooLong
    else
      let next := neighbour here name
      match t.entry? next, rest with
      | found, [] => .ok (next, found)
      | some .directory, rest => t.follow next rest
      | some (.file _), _ => .error .notDirectory
      | none, _ => .error .notFound

/-- The location a path leads to, and what stands there. -/
def locate (t : FileTree) (p : Path) : Except FileError.Cause (Location × Option Entry) :=
  if p.parts.any fun name => name.toList.contains '\x00' then .error .nullCharacter
  else if isOverlong p then .error .nameTooLong
  else t.follow (t.start p) p.parts

/-! ## Questions -/

/-- What a path leads to and where that stands, if it leads anywhere. -/
def find? (t : FileTree) (p : Path) : Except FileError (Option (Location × Entry)) :=
  match t.locate p with
  | .ok (location, found) => .ok (found.map fun e => (location, e))
  | .error .nameTooLong => .error ⟨.nameTooLong, p⟩
  | .error _ => .ok none

def exists? (t : FileTree) (p : Path) : Except FileError Bool := (t.find? p).map Option.isSome

/-- The names that lead from a directory to a location at or below it. -/
def namesFrom : Location → Location → Option (List String)
  | [], location => some location
  | name :: directory, first :: location =>
    if name = first then namesFrom directory location else none
  | _ :: _, [] => none

/-- What is below a directory, each by the names that lead to it from there. -/
def namesBelow (t : FileTree) (directory : Location) : List (List String) :=
  t.entries.keys.filterMap (namesFrom directory)

/-- The regular files below a directory, each by the names that lead to it from there. -/
def filesBelow (t : FileTree) (directory : Location) : List (List String) :=
  t.entries.entries.filterMap fun (location, e) =>
    match e with
    | .file _ => namesFrom directory location
    | .directory => none

/-! ## Reading and writing -/

def read (t : FileTree) (p : Path) : Except FileError ByteArray :=
  match t.locate p with
  | .ok (_, some (.file bytes)) => .ok bytes
  | .ok (_, some .directory) => .error ⟨.isDirectory, p⟩
  | .ok (_, none) => .error ⟨.notFound, p⟩
  | .error cause => .error ⟨cause, p⟩

/-- The tree with something at a location. -/
def put (t : FileTree) (location : Location) (e : Entry) : FileTree :=
  { t with entries := t.entries.set location e }

/-- Write a file, over the one that is there. -/
def write (t : FileTree) (p : Path) (bytes : ByteArray) : Except FileError FileTree :=
  match t.locate p with
  | .ok (_, some .directory) => .error ⟨.isDirectory, p⟩
  | .ok (location, _) => .ok (t.put location (.file bytes))
  | .error cause => .error ⟨cause, p⟩

/-! ## Making directories -/

/-- Make a directory where nothing is. -/
def makeDirectory (t : FileTree) (p : Path) : Except FileError FileTree :=
  match t.locate p with
  | .ok (location, none) => .ok (t.put location .directory)
  | .ok (_, some _) => .error ⟨.alreadyExists, p⟩
  | .error cause => .error ⟨cause, p⟩

/-- Make a directory, or keep the one that is there. -/
def ensureDirectory (t : FileTree) (p : Path) : Except FileError FileTree :=
  match t.makeDirectory p with
  | .ok t' => .ok t'
  | .error e =>
    match t.find? p with
    | .ok (some (_, .directory)) => .ok t
    | _ => .error e

/-- Make a directory and those missing on the way to it. -/
def makeDirectories (t : FileTree) (p : Path) : Except FileError Unit × FileTree :=
  match t.ensureDirectory p with
  | .ok t' => (.ok (), t')
  | .error e =>
    if e.cause = .notFound ∧ 0 < p.parts.length then
      match t.makeDirectories p.parent with
      | (.error e, t') => (.error e, t')
      | (.ok _, t') =>
        match t'.ensureDirectory p with
        | .ok t'' => (.ok (), t'')
        | .error e => (.error e, t')
    else (.error e, t)
termination_by p.parts.length
decreasing_by simp [Path.parent]; omega

end FileTree

end CrudSchema
