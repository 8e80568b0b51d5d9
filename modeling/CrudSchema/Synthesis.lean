import CrudSchema.Derivation.Inputs

/-!
# From declarations to an API

**One type** (`Derive.foldType`). Its four inputs are registered, and its five operations are
added:

    user(id: ID!): User!
    users(limit: Int, offset: Int, filter: UserFilterInput, sort: UserSortInput): [User!]!
    createUser(input: UserCreateInput!): User!
    updateUser(input: UserUpdateInput!): User!
    deleteUser(id: ID!): User!

**All types** (`compile`). One after the other in declaration order, all or nothing: the first
fault ends the run. There must be at least one type.

**Checking** (`check`). Every type that cannot be classified is reported; only if there is none
is the map compiled, and then a fault of that is reported.
-/

namespace CrudSchema

/-! ## Operations of a type -/

namespace ClassifiedType

def identifierArgument (t : ClassifiedType) : Argument := ⟨t.identifier, .scalar .id, false⟩

def singleQuery (t : ClassifiedType) : Operation where
  name := Naming.singleQuery t.name
  typeName := t.name
  returnType := .named t.name
  arguments := [t.identifierArgument]
  description := some ("Fetch a single " ++ t.name ++ " by " ++ t.identifier ++ ".")

def listQuery (t : ClassifiedType) : Operation where
  name := Naming.listQuery t.name
  typeName := t.name
  returnType := .requiredListOf t.name
  arguments := [⟨"limit", .scalar .int, true⟩, ⟨"offset", .scalar .int, true⟩,
    ⟨"filter", .named (Naming.filterInput t.name), true⟩,
    ⟨"sort", .named (Naming.sortInput t.name), true⟩]
  description := some ("List " ++ t.name ++ " objects.")

def createMutation (t : ClassifiedType) : Operation where
  name := Naming.createMutation t.name
  typeName := t.name
  returnType := .named t.name
  arguments := [⟨"input", .named (Naming.createInput t.name), false⟩]

def updateMutation (t : ClassifiedType) : Operation where
  name := Naming.updateMutation t.name
  typeName := t.name
  returnType := .named t.name
  arguments := [⟨"input", .named (Naming.updateInput t.name), false⟩]

def deleteMutation (t : ClassifiedType) : Operation where
  name := Naming.deleteMutation t.name
  typeName := t.name
  returnType := .named t.name
  arguments := [t.identifierArgument]

/-- The names of the inputs derived from a type. -/
def derivedTypes (t : ClassifiedType) : DerivedTypes where
  typeName := t.name
  identifier := t.identifier
  filterInput := Naming.filterInput t.name
  sortInput := Naming.sortInput t.name
  createInput := Naming.createInput t.name
  updateInput := Naming.updateInput t.name

end ClassifiedType

/-! ## Folding types into a draft -/

namespace Derive

def addOperations (t : ClassifiedType) : Derive Unit := do
  addQuery t.singleQuery
  addQuery t.listQuery
  addMutation t.createMutation
  addMutation t.updateMutation
  addMutation t.deleteMutation

def classifyType (known : List String) (d : Declaration) : Derive ClassifiedType := do
  match CrudSchema.classifyType known d with
  | .error e => throw e
  | .ok t => do tell t.record; pure t

/-- Derive the inputs of a declaration among known types, and add its operations. -/
def foldType (known : List String) (logical : Bool) (d : Declaration) : Derive Unit := do
  let t ← classifyType known d
  let _ ← filterInput t logical
  let _ ← sortInput t
  registerInput t.createInput
  registerInput t.updateInput
  modify fun draft => { draft with derived := draft.derived.set t.name t.derivedTypes }
  addOperations t
  tell ⟨.debug, .synthesis, "Folded " ++ t.name ++ " (identifier: " ++ t.identifier ++ ")"⟩

def foldTypes (known : List String) (logical : Bool) : List Declaration → Derive Unit
  | [] => pure ()
  | d :: rest => do foldType known logical d; foldTypes known logical rest

end Derive

/-! ## Compiling and checking -/

/-- Switches for optional parts of the API. -/
structure SynthesisOptions where
  logicalFilters : Bool := false
  deriving DecidableEq, Repr

/-- What a run over all types of a map leaves behind. -/
def draftOf (options : SynthesisOptions) (types : TypeMap) : Except SynthesisError Unit × Draft :=
  (Draft.start types.keys).take (Derive.foldTypes types.keys options.logicalFilters types.values)

def synthesizedRecord (api : Api) : Record :=
  ⟨.info, .synthesis, "Synthesized schema: " ++ toString api.objects.size ++ " type(s), " ++
    toString api.query.size ++ " queries, " ++ toString api.mutation.size ++ " mutations"⟩

/-- The API of a map of declared types. -/
def compile (options : SynthesisOptions) (types : TypeMap) : Logged SynthesisError Api :=
  if types.isEmpty then .fail .noTypes
  else
    let (result, draft) := draftOf options types
    match result with
    | .error e => ⟨draft.journal, .error e⟩
    | .ok () =>
      let api := draft.api types
      ⟨draft.journal ++ [synthesizedRecord api], .ok api⟩

/-- The faults found in a map, or its API. -/
structure CheckReport where
  api : Option Api
  faults : List SynthesisError

def CheckReport.success (r : CheckReport) : Bool := r.api.isSome

/-- The faults of the declarations that cannot be classified, in order. -/
def classificationFaults (types : TypeMap) : List SynthesisError :=
  types.values.filterMap fun d =>
    match classifyType types.keys d with
    | .ok _ => none
    | .error e => some e

/-- Compile, and collect faults instead of ending with the first. -/
def check (options : SynthesisOptions) (types : TypeMap) : CheckReport × Journal :=
  let classified := types.values.flatMap fun d => (classifyTypeLogged types.keys d).journal
  match classificationFaults types with
  | [] =>
    let run := compile options types
    match run.result with
    | .ok api => (⟨some api, []⟩, classified ++ run.journal)
    | .error e => (⟨none, [e]⟩, classified ++ run.journal)
  | faults => (⟨none, faults⟩, classified)

end CrudSchema
