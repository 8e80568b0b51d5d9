/-!
# The journal of a run

**Records** (`Record`). What a run tells a reader of its log: a level, the part of the program
that speaks, and a message. `Record.line` is the form shown.

**Logged computations** (`Logged`). A value or a fault, together with the records made on the
way; a fault keeps the records made before it. Records never influence a result.
-/

namespace CrudSchema

/-! ## Records -/

inductive LogLevel where
  | debug
  | info
  | warning
  | error
  deriving DecidableEq, Repr

namespace LogLevel

def all : List LogLevel := [.debug, .info, .warning, .error]

def name : LogLevel → String
  | .debug => "DEBUG"
  | .info => "INFO"
  | .warning => "WARNING"
  | .error => "ERROR"

/-- The rank levels are compared by. -/
def rank : LogLevel → Nat
  | .debug => 10
  | .info => 20
  | .warning => 30
  | .error => 40

def ofName? (s : String) : Option LogLevel := all.find? fun l => l.name == s

end LogLevel

/-- The part of the program a record comes from. -/
inductive Topic where
  | program
  | registry
  | classification
  | filters
  | draft
  | synthesis
  | loading
  | assembly
  deriving DecidableEq, Repr

def Topic.name : Topic → String
  | .program => "crudgraph"
  | .registry => "crudgraph.core.registry"
  | .classification => "crudgraph.core.classifier"
  | .filters => "crudgraph.core.filters"
  | .draft => "crudgraph.core.context"
  | .synthesis => "crudgraph.core.compiler"
  | .loading => "crudgraph.schema.loader"
  | .assembly => "crudgraph.schema.assembler"

structure Record where
  level : LogLevel
  topic : Topic
  message : String
  deriving DecidableEq, Repr

def Record.line (r : Record) : String := r.level.name ++ " " ++ r.topic.name ++ ": " ++ r.message

abbrev Journal := List Record

/-! ## Logged computations -/

/-- The records of a run, and its value or the fault that ended it. -/
structure Logged (ε α : Type) where
  journal : Journal
  result : Except ε α

namespace Logged

variable {ε ε' α β : Type}

def pure (a : α) : Logged ε α := ⟨[], .ok a⟩

def fail (e : ε) : Logged ε α := ⟨[], .error e⟩

def tell (r : Record) : Logged ε Unit := ⟨[r], .ok ()⟩

def ofExcept (r : Except ε α) : Logged ε α := ⟨[], r⟩

/-- Run `f` on the value, after the records made so far. -/
def bind (x : Logged ε α) (f : α → Logged ε β) : Logged ε β :=
  match x.result with
  | .ok a => ⟨x.journal ++ (f a).journal, (f a).result⟩
  | .error e => ⟨x.journal, .error e⟩

instance : Monad (Logged ε) where
  pure := pure
  bind := bind

def mapError (f : ε → ε') (x : Logged ε α) : Logged ε' α := ⟨x.journal, x.result.mapError f⟩

end Logged

end CrudSchema
