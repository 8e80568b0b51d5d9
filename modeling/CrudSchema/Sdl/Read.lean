import CrudSchema.Sdl.Lexer

/-!
# Reading lexemes

**Steps** (`Read`). A step looks at the lexeme in front and goes on. Going on to a lexical fault is
a fault at once, even if the grammar would have had its own complaint a moment later.

**Repetition** (`Read.any`, `Read.many`, `Read.delimited`). Items come up to a closing punctuator
or with a separator between them. Every item takes a lexeme at least, so the lexemes left bound
their number.
-/

namespace CrudSchema.Sdl

/-! ## Faults -/

inductive Wanted where
  | name
  | punctuator (p : Punctuator)
  | keyword (word : String)
  deriving DecidableEq, Repr

def Wanted.describe : Wanted → String
  | .name => "Name"
  | .punctuator p => (Token.punctuator p).describe
  | .keyword word => "'" ++ word ++ "'"

inductive SyntaxError where
  | lexical (e : LexicalError)
  | expected (wanted : Wanted) (found : Token)
  | unexpected (found : Token)
  | describedShorthand
  | describedOther
  | reservedEnumValue (found : Token)
  | variableInConstant (name : String)
  | tooDeep
  deriving DecidableEq, Repr

def SyntaxError.detail : SyntaxError → String
  | .lexical e => e.message
  | .expected wanted found => "Expected " ++ wanted.describe ++ ", found " ++ found.describe ++ "."
  | .unexpected found => "Unexpected " ++ found.describe ++ "."
  | .describedShorthand =>
    "Unexpected description, descriptions are not supported on shorthand queries."
  | .describedOther => "Unexpected description, only GraphQL definitions support descriptions."
  | .reservedEnumValue found =>
    found.describe ++ " is reserved and cannot be used for an enum value."
  | .variableInConstant name => "Unexpected variable '$" ++ name ++ "' in constant value."
  | .tooDeep => "Document is nested too deeply. Parsing aborted."

def SyntaxError.message (e : SyntaxError) : String := "Syntax Error: " ++ e.detail

/-! ## Steps -/

/-- A step over lexemes. -/
abbrev Read := StateT (List Lexeme) (Except SyntaxError)

namespace Read

/-- The token in front. -/
def current : Read Token := fun
  | .ok t :: rest => .ok (t, .ok t :: rest)
  | .error e :: _ => .error (.lexical e)
  | [] => .ok (.ending, [])

/-- The token behind the one in front. -/
def next : Read Token := fun
  | first :: .ok t :: rest => .ok (t, first :: .ok t :: rest)
  | _ :: .error e :: _ => .error (.lexical e)
  | lexemes => .ok (.ending, lexemes)

/-- Go on to the next token; the end is never left. -/
def advance : Read Unit := fun
  | .ok .ending :: rest => .ok ((), .ok .ending :: rest)
  | _ :: .error e :: _ => .error (.lexical e)
  | _ :: rest => .ok ((), rest)
  | [] => .ok ((), [])

/-- Go past a punctuator. -/
def expect (p : Punctuator) : Read Unit := do
  let t ← current
  if t = .punctuator p then advance else throw (.expected (.punctuator p) t)

/-- Go past a punctuator if it is in front. -/
def accept (p : Punctuator) : Read Bool := do
  if (← current) = .punctuator p then advance; pure true else pure false

def expectName : Read String := do
  match ← current with
  | .name n => do advance; pure n
  | t => throw (.expected .name t)

def expectKeyword (word : String) : Read Unit := do
  let t ← current
  if t = .name word then advance else throw (.expected (.keyword word) t)

def acceptKeyword (word : String) : Read Bool := do
  if (← current) = .name word then advance; pure true else pure false

/-- Fail on the token in front. -/
def unexpected {α : Type} : Read α := do throw (.unexpected (← current))

/-! ## Repetition -/

variable {α : Type}

/-- Items up to the closing punctuator, which may come at once; at most `limit` of them. -/
def itemsUntil (close : Punctuator) (item : Read α) : Nat → Read (List α)
  | 0 => unexpected
  | limit + 1 => do
    if ← accept close then pure []
    else do
      let x ← item
      let more ← itemsUntil close item limit
      pure (x :: more)

/-- Items up to the closing punctuator. An item takes a lexeme at least, which bounds them. -/
def any (close : Punctuator) (item : Read α) : Read (List α) := do
  itemsUntil close item ((← get).length + 1)

/-- One item or more, up to the closing punctuator. -/
def many (close : Punctuator) (item : Read α) : Read (List α) := do
  let x ← item
  let more ← any close item
  pure (x :: more)

/-- One item or more between punctuators, or nothing. -/
def optionalMany (opening close : Punctuator) (item : Read α) : Read (List α) := do
  if ← accept opening then many close item else pure []

/-- Further items, each behind a separator; at most `limit` of them. -/
def separated (separator : Punctuator) (item : Read Unit) : Nat → Read Unit
  | 0 => unexpected
  | limit + 1 => do
    if ← accept separator then item; separated separator item limit else pure ()

/-- One item or more with a separator between them and perhaps one in front. -/
def delimited (separator : Punctuator) (item : Read Unit) : Read Unit := do
  let _ ← accept separator
  item
  separated separator item ((← get).length + 1)

end Read

end CrudSchema.Sdl
