import CrudSchema.Text.Blank

/-!
# Block strings

**Reading** (`dedent`). The value of a block string is its lines without the indentation they have
in common and without the blank lines at either end. The first line is not indented by the text
around it, so it neither counts nor changes.

**Writing** (`print`). A value that reading would give back (`isPrintable`) is written between
triple quotes: on lines of its own if it has several lines, is long, or ends in a character that
would run into the closing quotes; else on one line.
-/

namespace CrudSchema.Sdl.BlockString

open Text

/-- The blanks that indent a line. -/
def isIndent (c : Char) : Bool := c = ' ' || c = '\t'

def indentation (line : List Char) : Nat := (line.takeWhile isIndent).length

def isBlankLine (line : List Char) : Bool := line.all isIndent

/-! ## Reading -/

/-- The least indentation of the lines that are not blank, if there are any. -/
def commonIndent (ls : List (List Char)) : Option Nat :=
  ((ls.filter fun l => !isBlankLine l).map indentation).min?

/-- Drop the blank lines at both ends. -/
def trimBlankLines (ls : List (List Char)) : List (List Char) :=
  ((ls.dropWhile isBlankLine).reverse.dropWhile isBlankLine).reverse

/-- The lines of the value, from the lines of the text between the quotes. -/
def dedent : List (List Char) → List (List Char)
  | [] => []
  | first :: rest =>
    let indent := (commonIndent rest).getD 0
    trimBlankLines (first :: rest.map (List.drop indent))

/-- The value of the text between the quotes. -/
def value (text : List Char) : String := String.ofList (join '\n' (dedent (lines text)))

/-! ## Writing -/

/-- Reading gives the value back: no control characters, a first and a last line that are not
blank, and some line of several that is not indented. The empty value counts too. -/
def isPrintable (value : String) : Bool :=
  let cs := value.toList
  let ls := split '\n' cs
  cs.isEmpty ||
    cs.all (fun c => c = '\n' || c = '\t' || 0x0F < c.toNat) &&
    (ls.length = 1 || !(ls.head?.any isBlankLine)) &&
    !(ls.getLast?.any isBlankLine) &&
    (ls.length = 1 || ls.any fun l => !isBlankLine l && indentation l = 0)

/-- Write each triple quote with a backslash before it. -/
def escapeQuotes : List Char → List Char
  | '"' :: '"' :: '"' :: rest => '\\' :: '"' :: '"' :: '"' :: escapeQuotes rest
  | c :: rest => c :: escapeQuotes rest
  | [] => []

/-- The written form of a value. -/
def print (value : String) : List Char :=
  let cs := value.toList
  let severalLines := 1 < (lines cs).length
  let apart := severalLines || 70 < cs.length || cs.getLast? = some '"' || cs.getLast? = some '\\'
  let before := if apart && (severalLines || !(cs.head?.any isIndent)) then ['\n'] else []
  let after := if apart then ['\n'] else []
  ['"', '"', '"'] ++ before ++ escapeQuotes cs ++ after ++ ['"', '"', '"']

example : value "\n    indented\n      more\n    less\n".toList = "indented\n  more\nless" := by
  decide

end CrudSchema.Sdl.BlockString
