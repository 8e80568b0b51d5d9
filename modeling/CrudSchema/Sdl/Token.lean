import CrudSchema.Text.Quoted

/-!
# The words of the schema language

**Tokens** (`Token`). Punctuation, names, numbers, strings in either form, and the end of the
text. `Token.describe` is how messages show a token that was found, `Token.Kind.describe` one
that was wanted.

**Lexical faults** (`LexicalError`). What can be wrong with the characters themselves. A character
is shown in quotes if it is printable ASCII and by its code point otherwise.
-/

namespace CrudSchema.Sdl

/-! ## Tokens -/

inductive Punctuator where
  | bang
  | dollar
  | ampersand
  | parenLeft
  | parenRight
  | spread
  | colon
  | equals
  | at
  | bracketLeft
  | bracketRight
  | braceLeft
  | pipe
  | braceRight
  deriving DecidableEq, Repr

namespace Punctuator

def text : Punctuator → List Char
  | .bang => ['!']
  | .dollar => ['$']
  | .ampersand => ['&']
  | .parenLeft => ['(']
  | .parenRight => [')']
  | .spread => ['.', '.', '.']
  | .colon => [':']
  | .equals => ['=']
  | .at => ['@']
  | .bracketLeft => ['[']
  | .bracketRight => [']']
  | .braceLeft => ['{']
  | .pipe => ['|']
  | .braceRight => ['}']

/-- The punctuator that is one given character. -/
def ofChar? : Char → Option Punctuator
  | '!' => some .bang
  | '$' => some .dollar
  | '&' => some .ampersand
  | '(' => some .parenLeft
  | ')' => some .parenRight
  | ':' => some .colon
  | '=' => some .equals
  | '@' => some .at
  | '[' => some .bracketLeft
  | ']' => some .bracketRight
  | '{' => some .braceLeft
  | '|' => some .pipe
  | '}' => some .braceRight
  | _ => none

end Punctuator

inductive Token where
  | punctuator (p : Punctuator)
  | name (value : String)
  | int (text : String)
  | float (text : String)
  | string (value : String)
  | blockString (value : String)
  | ending
  deriving DecidableEq, Repr

namespace Token

/-- The value a token carries. -/
def value? : Token → Option String
  | .punctuator _ | .ending => none
  | .name v | .int v | .float v | .string v | .blockString v => some v

def kindText : Token → String
  | .punctuator p => "'" ++ String.ofList p.text ++ "'"
  | .name _ => "Name"
  | .int _ => "Int"
  | .float _ => "Float"
  | .string _ => "String"
  | .blockString _ => "BlockString"
  | .ending => "<EOF>"

/-- A token as messages show it. -/
def describe (t : Token) : String :=
  match t.value? with
  | some v => t.kindText ++ " '" ++ v ++ "'"
  | none => t.kindText

end Token

/-! ## Lexical faults -/

/-- A character, or the end of the text, as messages show it. -/
def describeChar : Option Char → String
  | none => "<EOF>"
  | some c =>
    if 0x20 ≤ c.toNat && c.toNat ≤ 0x7E then String.ofList ['\'', c, '\'']
    else
      let width := if c.toNat < 0x10000 then 4 else if c.toNat < 0x100000 then 5 else 6
      "U+" ++ String.ofList (Text.hexDigits true width c.toNat)

inductive LexicalError where
  | unexpectedCharacter (c : Char)
  | singleQuote
  | digitAfterZero (found : Char)
  | digitExpected (found : Option Char)
  | unterminatedString
  | characterEscape (text : String)
  | unicodeEscape (text : String)
  deriving DecidableEq, Repr

def LexicalError.message : LexicalError → String
  | .unexpectedCharacter c => "Unexpected character: " ++ describeChar (some c) ++ "."
  | .singleQuote =>
    "Unexpected single quote character ('), did you mean to use a double quote (\")?"
  | .digitAfterZero found =>
    "Invalid number, unexpected digit after 0: " ++ describeChar (some found) ++ "."
  | .digitExpected found => "Invalid number, expected digit but got: " ++ describeChar found ++ "."
  | .unterminatedString => "Unterminated string."
  | .characterEscape text => "Invalid character escape sequence: '" ++ text ++ "'."
  | .unicodeEscape text => "Invalid Unicode escape sequence: '" ++ text ++ "'."

example : (LexicalError.unexpectedCharacter 'é').message = "Unexpected character: U+00E9." := by
  decide

end CrudSchema.Sdl
