import CrudSchema.Sdl.BlockString
import CrudSchema.Sdl.Token

/-!
# From characters to tokens

**Lexemes** (`lex`). The tokens of a text in order, ended by the token for the end or by the first
lexical fault. A reader of the list meets the fault only when it gets there, so what is wrong
earlier in the grammar is found first.

**Between tokens** (`skipIgnored`). Spaces, tabs, line ends, commas, byte order marks and comments
separate tokens and mean nothing.

**Numbers** (`readNumber`). No leading zeros, and no name or point directly behind.

**Strings** (`readString`, `readBlock`). A string ends on its line; a block string may go on, and
knows one escape only, for three quotes.
-/

namespace CrudSchema.Sdl

/-- The next token, or what is wrong with the characters that should make it. -/
abbrev Lexeme := Except LexicalError Token

/-! ## Between tokens -/

def isIgnored (c : Char) : Bool :=
  c = ' ' || c = '\t' || c = ',' || c = '\n' || c = '\r' || c = '\ufeff'

/-- Drop what separates tokens; inside a comment that is everything up to the end of the line. -/
def skipIgnored (comment : Bool) : List Char → List Char
  | [] => []
  | c :: rest =>
    if comment then skipIgnored (!(c = '\n' || c = '\r')) rest
    else if isIgnored c then skipIgnored false rest
    else if c = '#' then skipIgnored true rest
    else c :: rest

/-! ## Names and numbers -/

def isNameStart (c : Char) : Bool := c.isAlpha || c = '_'

def isNameChar (c : Char) : Bool := c.isAlphanum || c = '_'

/-- One digit or more, and the rest. -/
def readDigits (cs : List Char) : Except LexicalError (List Char × List Char) :=
  match cs.takeWhile Char.isDigit with
  | [] => .error (.digitExpected cs.head?)
  | digits => .ok (digits, cs.dropWhile Char.isDigit)

/-- The digits before the point: a lone zero, or digits that do not begin with one. -/
def readWhole : List Char → Except LexicalError (List Char × List Char)
  | '0' :: rest =>
    match rest with
    | c :: _ => if c.isDigit then .error (.digitAfterZero c) else .ok (['0'], rest)
    | [] => .ok (['0'], [])
  | cs => readDigits cs

/-- The point and the digits after it, if there is a point. -/
def readFraction : List Char → Except LexicalError (List Char × List Char)
  | '.' :: rest => (readDigits rest).map fun (digits, rest) => ('.' :: digits, rest)
  | cs => .ok ([], cs)

/-- The exponent, if there is one. -/
def readExponent : List Char → Except LexicalError (List Char × List Char)
  | [] => .ok ([], [])
  | e :: rest =>
    if e = 'e' || e = 'E' then
      match rest with
      | s :: more =>
        if s = '+' || s = '-' then
          (readDigits more).map fun (digits, rest) => (e :: s :: digits, rest)
        else (readDigits rest).map fun (digits, rest) => (e :: digits, rest)
      | [] => .error (.digitExpected none)
    else .ok ([], e :: rest)

/-- Fail if a number runs into a name or another point. -/
def checkNumberEnd : List Char → Except LexicalError Unit
  | c :: _ => if c = '.' || isNameStart c then .error (.digitExpected (some c)) else .ok ()
  | [] => .ok ()

def readNumber (cs : List Char) : Except LexicalError (Token × List Char) := do
  let (sign, cs) := match cs with
    | '-' :: rest => (['-'], rest)
    | _ => ([], cs)
  let (whole, cs) ← readWhole cs
  let (fraction, cs) ← readFraction cs
  let (exponent, cs) ← readExponent cs
  checkNumberEnd cs
  let text := String.ofList (sign ++ whole ++ fraction ++ exponent)
  .ok (if fraction.isEmpty && exponent.isEmpty then .int text else .float text, cs)

/-! ## Strings -/

/-- The number that exactly four hexadecimal digits at the front make. -/
def fourHexDigits? (cs : List Char) : Option Nat :=
  if (cs.take 4).length = 4 then Text.hexNumber? 0 (cs.take 4) else none

def isScalarValue (n : Nat) : Bool := n < 0xD800 || (0xDFFF < n && n < 0x110000)

/-- The character for the rest of `\u{…}` after the brace, with the count of characters that the
escape takes from its backslash on, of which `size` are read. It takes at most twelve. -/
def bracedEscape (source : List Char) (point : Nat) (size : Nat) :
    List Char → Except LexicalError (Char × Nat)
  | [] => .error (.unicodeEscape (String.ofList (source.take size)))
  | c :: rest =>
    if 12 ≤ size then .error (.unicodeEscape (String.ofList (source.take size)))
    else if c = '}' then
      if 4 ≤ size && isScalarValue point then .ok (Char.ofNat point, size + 1)
      else .error (.unicodeEscape (String.ofList (source.take (size + 1))))
    else match Text.hexValue? c with
      | some d => bracedEscape source (16 * point + d) (size + 1) rest
      | none => .error (.unicodeEscape (String.ofList (source.take (size + 1))))

/-- The character for `\uhhhh`, or for two of these that are a surrogate pair. -/
def fixedEscape (source : List Char) : Except LexicalError (Char × Nat) :=
  let fault := .error (.unicodeEscape (String.ofList (source.take 6)))
  match fourHexDigits? (source.drop 2) with
  | none => fault
  | some code =>
    if isScalarValue code then .ok (Char.ofNat code, 6)
    else if code ≤ 0xDBFF && (source.drop 6).take 2 = ['\\', 'u'] then
      match fourHexDigits? (source.drop 8) with
      | some trail =>
        if 0xDC00 ≤ trail && trail ≤ 0xDFFF then
          .ok (Char.ofNat (0x10000 + (code - 0xD800) * 0x400 + (trail - 0xDC00)), 12)
        else fault
      | none => fault
    else fault

/-- The character that a one-letter escape stands for. -/
def letterEscape? : Char → Option Char
  | '"' => some '"'
  | '\\' => some '\\'
  | '/' => some '/'
  | 'b' => some '\x08'
  | 'f' => some '\x0c'
  | 'n' => some '\n'
  | 'r' => some '\r'
  | 't' => some '\t'
  | _ => none

/-- The character an escape stands for, and how many characters it takes; the source begins with
its backslash. -/
def readEscape (source : List Char) : Except LexicalError (Char × Nat) :=
  match source.drop 1 with
  | 'u' :: '{' :: rest => bracedEscape source 0 3 rest
  | 'u' :: _ => fixedEscape source
  | c :: _ =>
    match letterEscape? c with
    | some d => .ok (d, 2)
    | none => .error (.characterEscape (String.ofList (source.take 2)))
  | [] => .error (.characterEscape (String.ofList (source.take 2)))

/-- The value of a string whose opening quote is read, and the rest; the next `escaped` characters
belong to an escape that is read already. -/
def readString (escaped : Nat) : List Char → Except LexicalError (List Char × List Char)
  | [] => .error .unterminatedString
  | c :: rest =>
    match escaped with
    | n + 1 => readString n rest
    | 0 =>
      if c = '"' then .ok ([], rest)
      else if c = '\n' || c = '\r' then .error .unterminatedString
      else if c = '\\' then do
        let (d, size) ← readEscape (c :: rest)
        let (value, rest) ← readString (size - 1) rest
        .ok (d :: value, rest)
      else do
        let (value, rest) ← readString 0 rest
        .ok (c :: value, rest)

/-- The text of a block string whose opening quotes are read, and the rest. -/
def readBlock : List Char → Except LexicalError (List Char × List Char)
  | [] => .error .unterminatedString
  | '"' :: '"' :: '"' :: rest => .ok ([], rest)
  | '\\' :: '"' :: '"' :: '"' :: rest => do
    let (text, rest) ← readBlock rest
    .ok ('"' :: '"' :: '"' :: text, rest)
  | c :: rest => do
    let (text, rest) ← readBlock rest
    .ok (c :: text, rest)

/-! ## Tokens -/

/-- The token at the front of a text, and the rest. -/
def readToken : List Char → Except LexicalError (Token × List Char)
  | [] => .ok (.ending, [])
  | '.' :: '.' :: '.' :: rest => .ok (.punctuator .spread, rest)
  | '"' :: '"' :: '"' :: rest => do
    let (text, rest) ← readBlock rest
    .ok (.blockString (BlockString.value text), rest)
  | '"' :: rest => do
    let (value, rest) ← readString 0 rest
    .ok (.string (String.ofList value), rest)
  | c :: rest =>
    match Punctuator.ofChar? c with
    | some p => .ok (.punctuator p, rest)
    | none =>
      if c.isDigit || c = '-' then readNumber (c :: rest)
      else if isNameStart c then
        .ok (.name (String.ofList ((c :: rest).takeWhile isNameChar)), rest.dropWhile isNameChar)
      else if c = '\'' then .error .singleQuote
      else .error (.unexpectedCharacter c)

/-- At most `limit` lexemes of a text. -/
def lexAtMost : Nat → List Char → List Lexeme
  | 0, _ => []
  | limit + 1, cs =>
    match readToken (skipIgnored false cs) with
    | .error e => [.error e]
    | .ok (.ending, _) => [.ok .ending]
    | .ok (t, rest) => .ok t :: lexAtMost limit rest

/-- The lexemes of a text. A token takes a character at least, so this is all of them. -/
def lex (cs : List Char) : List Lexeme := lexAtMost (cs.length + 1) cs

end CrudSchema.Sdl
