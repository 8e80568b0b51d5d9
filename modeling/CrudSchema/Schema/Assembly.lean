import CrudSchema.Journal
import CrudSchema.Schema.Catalogue
import CrudSchema.Schema.Validity

/-!
# From an API to a schema

**Roots** (`rootObject`). The queries make up the type `Query`, and the mutations, if there are
any, the type `Mutation`. Their fields are resolved at once: for each operation its arguments, its
return type, and then the names of its arguments.

**Reaching types** (`reach`). A type is reached once. After it come the types that it refers to,
each followed by its own, before the next. The declared objects are reached in their order and not
earlier, even where something refers to them; then come the roots.

**Assembly** (`assemble`). Catalogue, roots, types; then no two types may have one name; and then
the schema must be valid.
-/

namespace CrudSchema.Schema

/-! ## Roots -/

/-- The arguments of an operation, without those left out. -/
def rootArguments (c : Catalogue) (inputs : NameMap InputObject) :
    List Argument → Except ReferenceError (List (String × WrappedType))
  | [] => .ok []
  | a :: rest => do
    if ← omits inputs a.type then rootArguments c inputs rest
    else
      let type ← c.typeOn Definition.isInput .argumentNotInput a.type a.nullable
      let more ← rootArguments c inputs rest
      .ok ((a.name, type) :: more)

/-- An operation as a field of its root. -/
def rootField (c : Catalogue) (inputs : NameMap InputObject) (o : Operation) :
    Except AssemblyError OutputField := do
  let arguments ← (rootArguments c inputs o.arguments).mapError .reference
  let type ← (c.typeOn Definition.isOutput .notOutput o.returnType o.returnNullable).mapError
    .reference
  let arguments := OrderedMap.ofList arguments
  (checkNames arguments.keys).mapError .illegalName
  .ok ⟨type, arguments, o.description⟩

def rootFields (c : Catalogue) (inputs : NameMap InputObject) :
    List (String × Operation) → Except AssemblyError (List (String × OutputField))
  | [] => .ok []
  | (_, o) :: rest => do
    let f ← rootField c inputs o
    let more ← rootFields c inputs rest
    .ok ((o.name, f) :: more)

def rootObject (c : Catalogue) (inputs : NameMap InputObject) (name : String)
    (operations : NameMap Operation) : Except AssemblyError ObjectType := do
  let fields ← rootFields c inputs operations.entries
  .ok { name, fields := .ofList fields }

/-! ## Reaching types -/

/-- The types reached so far, and the names that can still be reached. -/
structure Reached where
  types : List NamedType
  fresh : List String

/-- Reach the types of some names, each followed by what it refers to. -/
def reach (c : Catalogue) (inputs : NameMap InputObject) (r : Reached) :
    List String → Except AssemblyError Reached
  | [] => .ok r
  | name :: rest =>
    if _h : name ∈ r.fresh then
      match c.get? name with
      | some d => do
        let t ← d.resolve c inputs
        reach c inputs ⟨r.types ++ [t], r.fresh.erase name⟩ (t.references ++ rest)
      | none => reach c inputs { r with fresh := r.fresh.erase name } rest
    else reach c inputs r rest
termination_by names => (r.fresh.length, names.length)
decreasing_by
  · simp_wf; left
    rw [List.length_erase_of_mem _h]
    have := List.length_pos_of_mem _h
    omega
  · simp_wf; left
    rw [List.length_erase_of_mem _h]
    have := List.length_pos_of_mem _h
    omega
  · simp_wf; right; omega

/-- Reach a type that nothing else can reach. -/
def reachFirst (c : Catalogue) (inputs : NameMap InputObject) (r : Reached) (t : NamedType) :
    Except AssemblyError Reached :=
  reach c inputs { r with types := r.types ++ [t] } t.references

/-- Reach the declared objects in order. -/
def reachObjects (c : Catalogue) (inputs : NameMap InputObject) (r : Reached) :
    List String → Except AssemblyError Reached
  | [] => .ok r
  | name :: rest =>
    match c.get? name with
    | none => reachObjects c inputs r rest
    | some d => do
      let t ← d.resolve c inputs
      let r ← reachFirst c inputs r t
      reachObjects c inputs r rest

/-- Reach a root. The names of its fields are checked now. -/
def reachRoot (c : Catalogue) (inputs : NameMap InputObject) (r : Reached) (root : ObjectType) :
    Except AssemblyError Reached := do
  (checkNames root.fields.keys).mapError .illegalName
  reachFirst c inputs r (.object root)

/-! ## Assembly -/

/-- Fail at the first object that the catalogue does not have. -/
def checkObjects (c : Catalogue) : List String → Except AssemblyError Unit
  | [] => .ok ()
  | name :: rest =>
    if c.contains name then checkObjects c rest else .error (.reference (.unknown name))

/-- The first name that a list of names has twice. -/
def repeated? (seen : List String) : List String → Option String
  | [] => none
  | name :: rest => if name ∈ seen then some name else repeated? (name :: seen) rest

/-- The schema of an API before it is looked at as a whole. -/
def build (api : Api) : Except AssemblyError Schema := do
  let c ← Catalogue.ofApi api
  let query ← rootObject c api.inputs "Query" api.query
  let mutation ←
    if api.mutation.isEmpty then pure none
    else some <$> rootObject c api.inputs "Mutation" api.mutation
  checkObjects c api.objects.keys
  let r ← reachObjects c api.inputs ⟨[], c.keys.filter fun n => !api.objects.contains n⟩
    api.objects.keys
  let r ← reachRoot c api.inputs r query
  let r ← match mutation with
    | some m => reachRoot c api.inputs r m
    | none => .ok r
  .ok ⟨r.types⟩

/-- Fail if two types have one name, or if the schema is not valid. -/
def judge (s : Schema) : Except AssemblyError Unit :=
  match repeated? [] s.typeNames with
  | some name => .error (.repeatedType name)
  | none =>
    match flaws s with
    | [] => .ok ()
    | found => .error (.invalid (found.map Flaw.message))

/-- The number of types with those that every schema has. -/
def size (s : Schema) : Nat :=
  s.types.length + introspectionTypes.length +
    (["Boolean", "String"].filter fun n => !s.typeNames.contains n).length

def assembledRecord (s : Schema) : Record :=
  ⟨.debug, .assembly, "Assembled schema with " ++ toString s.size ++ " named types"⟩

/-- The schema of an API. -/
def assemble (api : Api) : Logged AssemblyError Schema :=
  match build api with
  | .error e => .fail e
  | .ok s =>
    match judge s with
    | .error e => .fail e
    | .ok () => ⟨[assembledRecord s], .ok s⟩

end CrudSchema.Schema
