import CrudSchema.Schema.Basic
import CrudSchema.Schema.Name

/-!
# Valid schemas

**Faults** (`Flaw`). What a complete schema can still have wrong: names kept for introspection,
types without members, and inputs that contain themselves through required fields alone, so that
no value of them is finite.

**Order** (`flaws`). Type by type: the name, the members, and for an input the circles.

**Circles** (`searchCircles`). A search in depth over required fields that hold an input directly.
An input is entered once in a whole run; coming back to an input that is still being searched is a
circle, named by the fields that lead around it.
-/

namespace CrudSchema.Schema

inductive Flaw where
  | introspectiveName (name : String)
  | noFields (typeName : String)
  | noValues (typeName : String)
  | noInputFields (typeName : String)
  | circle (typeName : String) (path : List String)
  deriving DecidableEq, Repr

def Flaw.message : Flaw → String
  | .introspectiveName name =>
    "Name " ++ Text.quoted name ++
      " must not begin with '__', which is reserved by GraphQL introspection."
  | .noFields typeName => "Type " ++ typeName ++ " must define one or more fields."
  | .noValues typeName => "Enum type " ++ typeName ++ " must define one or more values."
  | .noInputFields typeName =>
    "Input Object type " ++ typeName ++ " must define one or more fields."
  | .circle typeName path =>
    "Cannot reference Input Object '" ++ typeName ++
      "' within itself through a series of non-null fields: '" ++ ".".intercalate path ++ "'."

/-! ## Names and members -/

def nameFlaws (names : List String) : List Flaw :=
  (names.filter isIntrospective).map .introspectiveName

/-- The names of a type's members: fields, each followed by its arguments, or values. -/
def memberNames : NamedType → List String
  | .scalar _ => []
  | .object o => o.fields.entries.flatMap fun (name, f) => name :: f.arguments.keys
  | .enum e => e.values
  | .input i => i.fields.keys

/-- The flaw of having no members. -/
def emptyFlaw : NamedType → Flaw
  | .enum e => .noValues e.name
  | .input i => .noInputFields i.name
  | t => .noFields t.name

def isScalar : NamedType → Bool
  | .scalar _ => true
  | _ => false

def memberFlaws (t : NamedType) : List Flaw :=
  let names := memberNames t
  (if names.isEmpty && !isScalar t then [emptyFlaw t] else []) ++ nameFlaws names

/-! ## Circles -/

/-- Required fields that hold an input directly: the field and the name of its input. -/
def directInputs (s : Schema) (i : InputType) : List (String × String) :=
  i.fields.entries.filterMap fun (name, f) =>
    match f.type with
    | .nonNull (.named target) => if (s.input? target).isSome then some (name, target) else none
    | _ => none

/-- An input to search, with the inputs on the way to it and the field taken from each. -/
structure Visit where
  way : List (String × String)
  target : String

/-- The circles found by some visits, and the names of the inputs not yet entered. -/
def searchCircles (s : Schema) (fresh : List String) : List Visit → List Flaw × List String
  | [] => ([], fresh)
  | visit :: rest =>
    match visit.way.dropWhile fun step => step.1 ≠ visit.target with
    | step :: more =>
      let (found, left) := searchCircles s fresh rest
      (.circle visit.target ((step :: more).map Prod.snd) :: found, left)
    | [] =>
      if _h : visit.target ∈ fresh then
        let next := match s.input? visit.target with
          | some i => (directInputs s i).map fun (field, target) =>
              ⟨visit.way ++ [(visit.target, field)], target⟩
          | none => []
        searchCircles s (fresh.erase visit.target) (next ++ rest)
      else searchCircles s fresh rest
termination_by visits => (fresh.length, visits.length)
decreasing_by
  · simp_wf; right; omega
  · simp_wf; left
    rw [List.length_erase_of_mem _h]
    have := List.length_pos_of_mem _h
    omega
  · simp_wf; right; omega

/-! ## All flaws -/

/-- The flaws of some types, with the inputs whose circles have not been searched. -/
def flawsFrom (s : Schema) (fresh : List String) : List NamedType → List Flaw
  | [] => []
  | t :: rest =>
    let (circles, left) := match t with
      | .input i => searchCircles s fresh [⟨[], i.name⟩]
      | _ => ([], fresh)
    nameFlaws [t.name] ++ memberFlaws t ++ circles ++ flawsFrom s left rest

/-- Everything wrong with a schema. -/
def flaws (s : Schema) : List Flaw := flawsFrom s s.typeNames s.types

end CrudSchema.Schema
