import CrudSchema.Schema.Assembly
import CrudSchema.Schema.Printer
import CrudSchema.Synthesis

/-!
# Building an API step by step

**Steps** (`Session.Step`). What a run does to its draft, one thing at a time: registering inputs,
enums and operations, building the filters of a scalar, deriving the inputs of a type, folding a
whole type, and assembling what is there.

**Replies** (`Session.Reply`). What a step shows. A step that fails leaves what it did before it
failed, and the session goes on.
-/

namespace CrudSchema

/-- A map of declared types and the draft of their API. -/
structure Session where
  types : TypeMap
  draft : Draft

namespace Session

/-- One of the four inputs of a type. -/
inductive Derivation where
  | filter (logical : Bool)
  | sort
  | create (register : Bool)
  | update (register : Bool)
  deriving DecidableEq, Repr

inductive Step where
  | registerInput (i : InputObject)
  | registerEnum (e : EnumType)
  | isTaken (name : String)
  | sortEnum
  | scalarFilter (kind : ScalarKind)
  | derive (typeName : String) (which : Derivation)
  | fold (typeName : String) (logical : Bool)
  | addQuery (o : Operation)
  | addMutation (o : Operation)
  | input (name : String)
  | assemble

inductive Reply where
  | input (i : InputObject)
  | registered (i : InputObject)
  | enum (e : EnumType)
  | taken (answer : Bool)
  | filterName (name : String)
  | derived (keys : List String)
  | operation (o : Operation)
  | schema (text : String)

inductive Fault where
  | synthesis (e : SynthesisError)
  | assembly (e : Schema.AssemblyError)
  /-- There is no type or input of this name. -/
  | unknown (name : String)

/-! ## Taking steps -/

/-- The session in which the types of a map are being folded. -/
def start (types : TypeMap) (declared : List String) : Session := ⟨types, .start declared⟩

def known (s : Session) : List String := s.types.keys

def api (s : Session) : Api := s.draft.api s.types

/-- Derive one input of a classified type. -/
def deriveInput (t : ClassifiedType) : Derivation → Derive InputObject
  | .filter logical => Derive.filterInput t logical
  | .sort => Derive.sortInput t
  | .create register => do
    if register then Derive.registerInput t.createInput
    pure t.createInput
  | .update register => do
    if register then Derive.registerInput t.updateInput
    pure t.updateInput

/-- Take a step of the draft, and show its outcome. -/
def draftStep {α : Type} (s : Session) (step : Derive α) (answer : α → Draft → Reply) :
    Except Fault Reply × Session :=
  let (result, draft) := s.draft.take step
  ((result.map (answer · draft)).mapError .synthesis, { s with draft })

/-- Take a step of the draft for a declared type. -/
def typeStep {α : Type} (s : Session) (typeName : String) (step : Declaration → Derive α)
    (answer : α → Draft → Reply) : Except Fault Reply × Session :=
  match s.types.get? typeName with
  | none => (.error (.unknown typeName), s)
  | some d => s.draftStep (step d) answer

def tell (s : Session) (journal : Journal) : Session :=
  { s with draft := { s.draft with journal := s.draft.journal ++ journal } }

def step (s : Session) : Step → Except Fault Reply × Session
  | .registerInput i => s.draftStep (Derive.registerInput i) fun _ _ => .registered i
  | .registerEnum e => s.draftStep (Derive.registerEnum e) fun _ _ => .enum e
  | .isTaken name => (.ok (.taken (s.draft.isTaken name)), s)
  | .sortEnum => s.draftStep Derive.sortDirectionEnum fun e _ => .enum e
  | .scalarFilter kind => s.draftStep (Derive.scalarFilter kind) fun name _ => .filterName name
  | .derive typeName which =>
    s.typeStep typeName
      (fun d => do let t ← Derive.classifyType s.known d; deriveInput t which)
      fun i _ => .input i
  | .fold typeName logical =>
    s.typeStep typeName (Derive.foldType s.known logical) fun _ draft => .derived draft.derived.keys
  | .addQuery o => s.draftStep (Derive.addQuery o) fun _ _ => .operation o
  | .addMutation o => s.draftStep (Derive.addMutation o) fun _ _ => .operation o
  | .input name =>
    match s.draft.inputs.get? name with
    | some i => (.ok (.input i), s)
    | none => (.error (.unknown name), s)
  | .assemble =>
    let run := Schema.assemble s.api
    ((run.result.map fun schema => .schema (schema.print "")).mapError .assembly,
      s.tell run.journal)

end Session

end CrudSchema
