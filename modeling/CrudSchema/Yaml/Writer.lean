import CrudSchema.Text.Quoted
import CrudSchema.Yaml.Tag

/-!
# Writing a settings file

**Styles** (`Style`). A text is written plain if it then reads back as that text; between single
quotes if it holds nothing but printable ASCII and line feeds in places where they are kept; and
else between double quotes, with escapes for everything outside of printable ASCII.

**Long lines.** A line longer than 80 characters is broken at the next place where the style allows
it: at a single blank, and between double quotes also behind an escape. The text goes on two
columns in.

**Documents** (`print`). One entry a line; the items of a list follow their key, each on its line
behind a dash.
-/

namespace CrudSchema.Yaml

/-! ## Styles -/

inductive Style where
  | plain
  | single
  | double
  deriving DecidableEq, Repr

/-- Characters that may be written as they are. -/
def isPlainChar (c : Char) : Bool := 0x20 ≤ c.toNat && c.toNat ≤ 0x7E

/-- Two characters that stand side by side somewhere. -/
def hasPair (p : Char → Char → Bool) : List Char → Bool
  | a :: b :: rest => p a b || hasPair p (b :: rest)
  | _ => false

/-- A text in quotes keeps it: printable, and no blanks next to line feeds. -/
def allowsSingle (cs : List Char) : Bool :=
  cs.all (fun c => isPlainChar c || c = '\n') &&
    !hasPair (fun a b => a = ' ' && b = '\n' || a = '\n' && b = ' ') cs

/-- What a plain scalar cannot begin with. -/
def isBlockedStart : List Char → Bool
  | [] => true
  | c :: rest =>
    "#,[]\x7b\x7d&*!|>'\"%@\x60".toList.contains c ||
      "?:-".toList.contains c && isGap (rest.headD endMark)

/-- A colon before a gap, or a number sign behind one. -/
def hasBlockedPair (cs : List Char) : Bool :=
  hasPair (fun a b => a = ':' && isGap b || isGap a && b = '#') cs || cs.getLast? = some ':'

/-- A text without quotes keeps it. -/
def allowsPlain (cs : List Char) : Bool :=
  cs.all isPlainChar && cs.head? ≠ some ' ' && cs.getLast? ≠ some ' ' &&
    !isBlockedStart cs && !hasBlockedPair cs &&
    !(cs.take 3 = ['-', '-', '-'] || cs.take 3 = ['.', '.', '.'])

/-- How a text is written. -/
def styleOf (s : String) : Style :=
  if allowsPlain s.toList && Tag.ofPlain s = .text then .plain
  else if allowsSingle s.toList then .single
  else .double

/-! ## Long lines -/

def lineWidth : Nat := 80

/-- What a broken line goes on behind. -/
def continuation : List Char := [' ', ' ']

/-- Write a text without quotes from a column on. `before` is the character before. -/
def writePlain (column : Nat) (before : Option Char) : List Char → List Char
  | [] => []
  | c :: rest =>
    let single := before ≠ some ' ' && rest.head? ≠ some ' '
    if c = ' ' && single && lineWidth < column then
      '\n' :: continuation ++ writePlain continuation.length (some c) rest
    else c :: writePlain (column + 1) (some c) rest

/-- Write a text between single quotes from a column on. The first of several line feeds is written
twice, for reading drops it; and a quote is written twice. -/
def writeSingle (column : Nat) (before : Option Char) : List Char → List Char
  | [] => []
  | c :: rest =>
    if c = '\n' then
      let first := if before = some '\n' then [] else ['\n']
      if rest.head? = some '\n' then first ++ '\n' :: writeSingle 0 (some c) rest
      else first ++ '\n' :: continuation ++ writeSingle continuation.length (some c) rest
    else if c = '\'' then '\'' :: '\'' :: writeSingle (column + 2) (some c) rest
    else
      let single := before.any (· ≠ ' ') && rest.head?.any (· ≠ ' ')
      if c = ' ' && single && lineWidth < column then
        '\n' :: continuation ++ writeSingle continuation.length (some c) rest
      else c :: writeSingle (column + 1) (some c) rest

/-! ## Escapes -/

/-- The letters of short escapes. -/
def escapeLetters : List (Char × Char) :=
  [('\x00', '0'), ('\x07', 'a'), ('\x08', 'b'), ('\t', 't'), ('\n', 'n'), ('\x0B', 'v'),
    ('\x0C', 'f'), ('\r', 'r'), ('\x1B', 'e'), ('"', '"'), ('\\', '\\'), ('\x85', 'N'),
    ('\u00a0', '_'), ('\u2028', 'L'), ('\u2029', 'P')]

def escapeOf (c : Char) : List Char :=
  match escapeLetters.lookup c with
  | some letter => ['\\', letter]
  | none =>
    if c.toNat ≤ 0xFF then '\\' :: 'x' :: Text.hexDigits true 2 c.toNat
    else if c.toNat ≤ 0xFFFF then '\\' :: 'u' :: Text.hexDigits true 4 c.toNat
    else '\\' :: 'U' :: Text.hexDigits true 8 c.toNat

def isEscaped (c : Char) : Bool := !isPlainChar c || c = '"' || c = '\\'

/-- The end of a line between double quotes, and the blanks of the next. A backslash keeps a blank
that comes first. -/
def joinedLine (next : Option Char) : List Char :=
  '\\' :: '\n' :: continuation ++ if next = some ' ' then ['\\'] else []

/-- The column behind `joinedLine`. -/
def joinedColumn (next : Option Char) : Nat :=
  continuation.length + if next = some ' ' then 1 else 0

/-- Write a text between double quotes from a column on. A line may be broken before a blank and on
either side of an escape, but not next to the quotes. -/
def writeDouble (column : Nat) (first afterEscape : Bool) : List Char → List Char
  | [] => []
  | c :: rest =>
    let inside := !first && !rest.isEmpty
    if isEscaped c then
      let column := column + (escapeOf c).length
      if inside && lineWidth + 1 < column then
        escapeOf c ++ joinedLine rest.head? ++ writeDouble (joinedColumn rest.head?) false true rest
      else escapeOf c ++ writeDouble column false true rest
    else if inside && (c = ' ' || afterEscape) && lineWidth < column then
      joinedLine (some c) ++ c :: writeDouble (joinedColumn (some c) + 1) false false rest
    else c :: writeDouble (column + 1) false false rest

/-! ## Documents -/

/-- A text in its style, from a column on. -/
def writeText (column : Nat) (s : String) : List Char :=
  let cs := s.toList
  match styleOf s with
  | .plain => writePlain column none cs
  | .single => '\'' :: writeSingle (column + 1) none cs ++ ['\'']
  | .double => '"' :: writeDouble (column + 1) true false cs ++ ['"']

inductive Leaf where
  | int (n : Int)
  | bool (b : Bool)
  | text (s : String)
  deriving DecidableEq, Repr

def Leaf.write (column : Nat) : Leaf → List Char
  | .int n => (toString n).toList
  | .bool b => (if b then "true" else "false").toList
  | .text s => writeText column s

/-- What stands behind a key: a leaf, or a list of one leaf or more. -/
inductive Entry where
  | leaf (l : Leaf)
  | list (items : List Leaf)
  deriving DecidableEq, Repr

/-- An entry behind its key, a word that needs no quotes. -/
def writeEntry (key : String) : Entry → List Char
  | .leaf l => key.toList ++ ':' :: ' ' :: l.write (key.length + 2) ++ ['\n']
  | .list items =>
    key.toList ++ ':' :: '\n' :: items.flatMap fun l => '-' :: ' ' :: l.write 2 ++ ['\n']

/-- The text of a document. -/
def print (entries : List (String × Entry)) : String :=
  String.ofList (entries.flatMap fun (key, e) => writeEntry key e)

end CrudSchema.Yaml
