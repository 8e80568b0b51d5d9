/-!
# A place in a text

**Characters.** A text may hold tabs, line breaks, and everything that Unicode does not keep for
control or for itself (`isAllowed`). The end of a text is seen as the character NUL, which no text
may hold (`endMark`).

**Places** (`Cursor`). What is left of a text, with the line, the column and the number of
characters gone by. A byte order mark has no width.
-/

namespace CrudSchema.Yaml

/-! ## Characters -/

def isAllowed (c : Char) : Bool :=
  let n := c.toNat
  n = 0x09 || n = 0x0A || n = 0x0D || 0x20 ≤ n && n ≤ 0x7E || n = 0x85 ||
    0xA0 ≤ n && n ≤ 0xD7FF || 0xE000 ≤ n && n ≤ 0xFFFD || 0x10000 ≤ n

def endMark : Char := '\x00'

def byteOrderMark : Char := '\ufeff'

def isBreak (c : Char) : Bool :=
  c = '\n' || c = '\r' || c = '\x85' || c = '\u2028' || c = '\u2029'

def isBreakOrEnd (c : Char) : Bool := isBreak c || c = endMark

/-- A blank, a break, or the end. -/
def isGap (c : Char) : Bool := c = ' ' || c = '\t' || isBreakOrEnd c

/-! ## Places -/

structure Cursor where
  rest : List Char
  index : Nat := 0
  line : Nat := 0
  column : Nat := 0

namespace Cursor

/-- The character so many places ahead. -/
def peek (c : Cursor) (ahead : Nat := 0) : Char := c.rest.getD ahead endMark

/-- Go past one character. -/
def next (c : Cursor) : Cursor :=
  match c.rest with
  | [] => c
  | ch :: rest =>
    if isBreak ch && !(ch = '\r' && rest.head? = some '\n') then ⟨rest, c.index + 1, c.line + 1, 0⟩
    else if ch = byteOrderMark then ⟨rest, c.index + 1, c.line, c.column⟩
    else ⟨rest, c.index + 1, c.line, c.column + 1⟩

/-- Go past so many characters. -/
def skip (c : Cursor) : Nat → Cursor
  | 0 => c
  | n + 1 => c.next.skip n

/-- How many characters in front satisfy `p`. -/
def count (c : Cursor) (p : Char → Bool) : Nat := (c.rest.takeWhile p).length

def skipWhile (c : Cursor) (p : Char → Bool) : Cursor := c.skip (c.count p)

/-- Go past blanks, but not beyond a column. -/
def skipToColumn (c : Cursor) (column : Nat) : Cursor :=
  c.skip (min (column - c.column) (c.count (· = ' ')))

/-- The break in front, as it counts, and the place behind it. -/
def lineBreak? (c : Cursor) : Option (Char × Cursor) :=
  let ch := c.peek
  if !isBreak ch then none
  else if ch = '\r' && c.peek 1 = '\n' then some ('\n', c.skip 2)
  else if ch = '\u2028' || ch = '\u2029' then some (ch, c.next)
  else some ('\n', c.next)

/-- The line begins with three such characters and a gap. -/
def atMark (c : Cursor) (mark : Char) : Bool :=
  c.rest.take 3 = [mark, mark, mark] && isGap (c.peek 3)

/-- A mark that begins or ends a document. -/
def atDocumentMark (c : Cursor) : Bool := c.atMark '-' || c.atMark '.'

/-- Go past blanks, a comment, and the break that ends the line. -/
def skipLineEnd (c : Cursor) : Cursor :=
  let c := c.skipWhile (· = ' ')
  if c.peek = '#' then c.skipWhile fun ch => !isBreakOrEnd ch else c

end Cursor

end CrudSchema.Yaml
