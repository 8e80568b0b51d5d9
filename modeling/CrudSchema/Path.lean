import CrudSchema.Text.Split

/-!
# Paths

**A path** (`Path`). Where it starts, and the parts that lead on from there. A part is neither
empty nor a single dot and holds no slash; two dots are a part like any other. Two spellings that
differ only in single dots and in slashes repeated or at the end are one path (`ofText`), and the
path has one spelling itself (`text`).

**Joining** (`join`). A relative path goes on from the base; another one leaves it behind.

**Order** (`key`). Paths are ordered part by part, so what is below a directory stays together.
-/

namespace CrudSchema

/-- Where a path starts: where one stands, at the root, or at the root written with two slashes,
which counts as another place. -/
inductive Anchor where
  | relative
  | root
  | doubleRoot
  deriving DecidableEq, Repr

def Anchor.text : Anchor → String
  | .relative => ""
  | .root => "/"
  | .doubleRoot => "//"

/-- The anchor of a spelling. -/
def Anchor.ofText : List Char → Anchor
  | '/' :: '/' :: '/' :: _ => .root
  | '/' :: '/' :: _ => .doubleRoot
  | '/' :: _ => .root
  | _ => .relative

def Path.IsPart (s : String) : Prop := s ≠ "" ∧ s ≠ "." ∧ '/' ∉ s.toList

structure Path where
  anchor : Anchor
  parts : List String
  plain : ∀ s ∈ parts, Path.IsPart s
  deriving DecidableEq

namespace Path

/-! ## Spelling -/

/-- The parts in a spelling. -/
def partsOfText (s : String) : List String :=
  ((Text.split '/' s.toList).map String.ofList).filter fun part => part ≠ "" && part ≠ "."

theorem isPart_of_mem_partsOfText {s part : String} (h : part ∈ partsOfText s) : IsPart part := by
  obtain ⟨hmem, hplain⟩ := List.mem_filter.1 h
  obtain ⟨piece, hpiece, rfl⟩ := List.mem_map.1 hmem
  simp only [Bool.and_eq_true, decide_eq_true_eq] at hplain
  exact ⟨hplain.1, hplain.2, by
    simpa using Text.separator_not_mem_of_mem_split hpiece⟩

/-- The path with a spelling. -/
def ofText (s : String) : Path where
  anchor := .ofText s.toList
  parts := partsOfText s
  plain := fun _ h => isPart_of_mem_partsOfText h

/-- The spelling of a path. -/
def text (p : Path) : String :=
  match p.anchor, p.parts with
  | .relative, [] => "."
  | anchor, parts => anchor.text ++ String.ofList (Text.join '/' (parts.map String.toList))

/-! ## Moving about -/

/-- The place another path leads to from a base. -/
def join (base p : Path) : Path :=
  match p.anchor with
  | .relative =>
    ⟨base.anchor, base.parts ++ p.parts, fun s h =>
      (List.mem_append.1 h).elim (base.plain s) (p.plain s)⟩
  | _ => p

/-- The place that names lead to from a base, one after the other. -/
def extend (base : Path) (names : List String) : Path :=
  names.foldl (fun path name => path.join (ofText name)) base

/-- The path without its last part. -/
def parent (p : Path) : Path :=
  ⟨p.anchor, p.parts.dropLast, fun s h => p.plain s (List.dropLast_subset _ h)⟩

/-- The ending of a name: its last dot with what follows. A dot that comes first or last begins no
ending. -/
def endingOf (name : String) : String :=
  let backwards := name.toList.reverse
  match backwards.takeWhile (· ≠ '.'), backwards.dropWhile (· ≠ '.') with
  | c :: ending, _ :: _ :: _ => String.ofList ('.' :: (c :: ending).reverse)
  | _, _ => ""

/-- The ending of the last part. -/
def suffix (p : Path) : String :=
  match p.parts.getLast? with
  | some name => endingOf name
  | none => ""

/-! ## Order -/

/-- What paths are compared by: the anchor, if there is one, and the parts. -/
def key (p : Path) : List String :=
  match p.anchor with
  | .relative => p.parts
  | anchor => anchor.text :: p.parts

instance : LT Path := ⟨fun p q => p.key < q.key⟩

instance (p q : Path) : Decidable (p < q) := inferInstanceAs (Decidable (p.key < q.key))

/-- Put a path in its place among paths in order, once. -/
def insertIn (p : Path) : List Path → List Path
  | [] => [p]
  | q :: rest =>
    if p < q then p :: q :: rest
    else if p = q then q :: rest
    else q :: insertIn p rest

/-- The paths of a list in order, each once. -/
def sorted (paths : List Path) : List Path := paths.foldl (fun l p => p.insertIn l) []

example : (ofText "a//b/./../c/").text = "a/b/../c" := by decide
example : (ofText "").text = "." := by decide
example : (ofText "a/.b.gql").suffix = ".gql" ∧ (ofText ".gql").suffix = "" := by decide
example : (sorted (["a-b/y", "a/z", "./a/z"].map ofText)).map text = ["a/z", "a-b/y"] := by
  decide

end Path

end CrudSchema
