import CrudSchema.Text.Quoted
import CrudSchema.Yaml.Cursor
import CrudSchema.Yaml.Fault

/-!
# Scalars in a settings file

**Folding** (`fold`). Inside a scalar that runs over lines a single break is a blank; of several
the first is dropped and the others stay.

**Plain scalars** (`scanPlain`). They end at a colon or a number sign that stands apart, at an
outer column, and inside brackets at a bracket or a comma.

**Quoted scalars** (`scanQuoted`). Between single quotes a quote is written twice; between double
quotes a backslash begins an escape, and one at the end of a line joins it to the next.

**Block scalars** (`scanBlock`). The lines further in than what holds them, kept as they are or
folded; the header says so, and what becomes of the breaks at the end.
-/

namespace CrudSchema.Yaml

/-- A scalar, and the place behind it. `newLine` tells that a new line has begun since it ended. -/
structure Scanned where
  text : List Char
  cursor : Cursor
  newLine : Bool := false

/-! ## Lines inside scalars -/

/-- What a break and the breaks of the empty lines after it stand for. -/
def fold (first : Char) (more : List Char) : List Char :=
  if first ≠ '\n' then first :: more
  else if more.isEmpty then [' ']
  else more

/-- The breaks of empty lines, up to a line with text or with a document mark. -/
structure EmptyLines where
  breaks : List Char
  marked : Bool
  cursor : Cursor

/-- Go past the empty lines at the beginning of a line; `isPad` may stand in them. -/
def emptyLines (isPad : Char → Bool) (c : Cursor) : (limit : Nat) → EmptyLines
  | 0 => ⟨[], false, c⟩
  | limit + 1 =>
    if c.atDocumentMark then ⟨[], true, c⟩
    else
      let c := c.skipWhile isPad
      match c.lineBreak? with
      | some (ch, c) =>
        let more := emptyLines isPad c limit
        { more with breaks := ch :: more.breaks }
      | none => ⟨[], false, c⟩

/-! ## Plain scalars -/

def isFlowMark (c : Char) : Bool :=
  c = ',' || c = '[' || c = ']' || c = '\x7b' || c = '\x7d'

/-- The part of a plain scalar up to the next gap. -/
def plainChunk (flow : Bool) : List Char → List Char
  | [] => []
  | c :: rest =>
    let after := rest.headD endMark
    if isGap c || c = ':' && (isGap after || flow && isFlowMark after) ||
        flow && (isFlowMark c || c = '?') then []
    else c :: plainChunk flow rest

/-- The gap behind a chunk: the text it stands for, none if the scalar cannot go on. -/
def plainGap (c : Cursor) : Scanned :=
  let blanks := c.rest.takeWhile (· = ' ')
  let c := c.skip blanks.length
  match c.lineBreak? with
  | none => ⟨blanks, c, false⟩
  | some (first, c) =>
    let empty := emptyLines (· = ' ') c (c.rest.length + 1)
    ⟨if empty.marked then [] else fold first empty.breaks, empty.cursor, true⟩

/-- Chunks with the gaps before them, as long as the scalar goes on; it must stand at `margin` or
further in. -/
def plainChunks (flow : Bool) (margin : Nat) (gap : Scanned) : (limit : Nat) → Scanned
  | 0 => { gap with text := [] }
  | limit + 1 =>
    let c := gap.cursor
    let chunk := if c.peek = '#' then [] else plainChunk flow c.rest
    if chunk.isEmpty then { gap with text := [] }
    else
      let next := plainGap (c.skip chunk.length)
      let more :=
        if next.text.isEmpty || !flow && next.cursor.column < margin then { next with text := [] }
        else plainChunks flow margin next limit
      { more with text := gap.text ++ chunk ++ more.text }

def scanPlain (flow : Bool) (margin : Nat) (c : Cursor) : Scanned :=
  plainChunks flow margin ⟨[], c, false⟩ (c.rest.length + 1)

/-! ## Quoted scalars -/

def escapes : List (Char × Char) :=
  [('0', '\x00'), ('a', '\x07'), ('b', '\x08'), ('t', '\t'), ('\t', '\t'), ('n', '\n'),
    ('v', '\x0B'), ('f', '\x0C'), ('r', '\r'), ('e', '\x1B'), (' ', ' '), ('"', '"'),
    ('\\', '\\'), ('/', '/'), ('N', '\x85'), ('_', '\u00a0'), ('L', '\u2028'), ('P', '\u2029')]

/-- How many digits follow an escape by code point. -/
def escapeWidth? : Char → Option Nat
  | 'x' => some 2
  | 'u' => some 4
  | 'U' => some 8
  | _ => none

/-- What the escape behind a backslash stands for, and the place behind it. -/
def scanEscape (c : Cursor) : Except Fault Scanned :=
  match escapes.lookup c.peek with
  | some ch => .ok ⟨[ch], c.next, false⟩
  | none =>
    match escapeWidth? c.peek with
    | some width =>
      let digits := (c.rest.drop 1).take width
      match Text.hexNumber? 0 digits with
      | none => .error (.malformed .escape)
      | some n =>
        if digits.length < width then .error (.malformed .escape)
        else if 0x10FFFF < n then .error (.conversion .codePoint)
        else if h : n.isValidChar then .ok ⟨[Char.ofNatAux n h], c.skip (width + 1), false⟩
        else .error (.malformed .escape)
    | none =>
      match c.lineBreak? with
      | none => .error (.malformed .escape)
      | some (_, c) =>
        let empty := emptyLines (fun ch => ch = ' ' || ch = '\t') c (c.rest.length + 1)
        if empty.marked then .error (.malformed .markInQuotes)
        else .ok ⟨empty.breaks, empty.cursor, true⟩

/-- Blanks or breaks inside a quoted scalar, and what they stand for. -/
def quotedGap (c : Cursor) : Except Fault Scanned :=
  let isPad := fun ch => ch = ' ' || ch = '\t'
  let blanks := c.rest.takeWhile isPad
  let c := c.skip blanks.length
  match c.lineBreak? with
  | some (first, c) =>
    let empty := emptyLines isPad c (c.rest.length + 1)
    if empty.marked then .error (.malformed .markInQuotes)
    else .ok ⟨fold first empty.breaks, empty.cursor, true⟩
  | none =>
    if c.rest.isEmpty then .error (.malformed .unclosedQuote) else .ok ⟨blanks, c, false⟩

/-- The text up to the closing quote, and the place behind that. -/
def quotedFrom (quote : Char) (c : Cursor) : (limit : Nat) → Except Fault Scanned
  | 0 => .error (.malformed .unclosedQuote)
  | limit + 1 => do
    let ch := c.peek
    if isGap ch then
      let gap ← quotedGap c
      let more ← quotedFrom quote gap.cursor limit
      return { more with text := gap.text ++ more.text }
    else if ch = quote then
      if quote = '\'' && c.peek 1 = quote then
        let more ← quotedFrom quote (c.skip 2) limit
        return { more with text := quote :: more.text }
      else return ⟨[], c.next, false⟩
    else if quote = '"' && ch = '\\' then
      let escaped ← scanEscape c.next
      let more ← quotedFrom quote escaped.cursor limit
      return { more with text := escaped.text ++ more.text }
    else
      let more ← quotedFrom quote c.next limit
      return { more with text := ch :: more.text }

/-- The scalar that begins with the quote in front. -/
def scanQuoted (c : Cursor) : Except Fault Scanned :=
  quotedFrom c.peek c.next (c.rest.length + 1)

/-! ## Block scalars -/

/-- What becomes of the breaks at the end of a block scalar. -/
inductive Chomping where
  | strip
  | clip
  | keep
  deriving DecidableEq, Repr

def chomping? : Char → Option Chomping
  | '-' => some .strip
  | '+' => some .keep
  | _ => none

/-- The digit that gives the indentation of a block scalar; it may not be zero. -/
def increment? (c : Cursor) : Except Fault (Option Nat × Cursor) :=
  let ch := c.peek
  if ch = '0' then .error (.malformed .blockHeader)
  else if ch.isDigit then .ok (some (ch.toNat - 48), c.next)
  else .ok (none, c)

/-- The header of a block scalar: how to chomp and how far in, in either order, and the end of the
line. -/
def scanHeader (c : Cursor) : Except Fault (Chomping × Option Nat × Cursor) := do
  let (chomping, increment, c) ← match chomping? c.peek with
    | some chomping => do
      let (increment, c) ← increment? c.next
      pure (chomping, increment, c)
    | none => do
      let (increment, c) ← increment? c
      match increment.bind fun _ => chomping? c.peek with
      | some chomping => pure (chomping, increment, c.next)
      | none => pure (.clip, increment, c)
  if !(c.peek = ' ' || isBreakOrEnd c.peek) then throw (.malformed .blockHeader)
  let c := c.skipLineEnd
  match c.lineBreak? with
  | some (_, c) => return (chomping, increment, c)
  | none =>
    if c.rest.isEmpty then return (chomping, increment, c) else throw (.malformed .blockHeader)

/-- The empty lines before the text, and the furthest column reached in them and in its first
line. -/
def findMargin (c : Cursor) (furthest : Nat) : (limit : Nat) → List Char × Nat × Cursor
  | 0 => ([], furthest, c)
  | limit + 1 =>
    let c := c.skipWhile (· = ' ')
    let furthest := max furthest c.column
    match c.lineBreak? with
    | some (ch, c) =>
      let (breaks, furthest, c) := findMargin c furthest limit
      (ch :: breaks, furthest, c)
    | none => ([], furthest, c)

/-- The empty lines between lines of a block scalar with a given margin. -/
def blockBreaks (margin : Nat) (c : Cursor) : (limit : Nat) → List Char × Cursor
  | 0 => ([], c)
  | limit + 1 =>
    let c := c.skipToColumn margin
    match c.lineBreak? with
    | some (ch, c) =>
      let (breaks, c) := blockBreaks margin c limit
      (ch :: breaks, c)
    | none => ([], c)

def isIndented (c : Cursor) : Bool := c.peek = ' ' || c.peek = '\t'

/-- What stands between two lines of a block scalar, for the break that ends the first. Folding
leaves breaks next to indented lines alone. -/
def joint (folded indented : Bool) (lineBreak : List Char) (breaks : List Char) : List Char :=
  if folded && lineBreak = ['\n'] && !indented then (if breaks.isEmpty then [' '] else breaks)
  else lineBreak ++ breaks

/-- The breaks that stay at the end. -/
def chomp (chomping : Chomping) (lineBreak breaks : List Char) : List Char :=
  match chomping with
  | .strip => []
  | .clip => lineBreak
  | .keep => lineBreak ++ breaks

/-- The lines of a block scalar that stand at the margin. -/
def blockLines (folded : Bool) (chomping : Chomping) (margin : Nat) (c : Cursor) :
    (limit : Nat) → Scanned
  | 0 => ⟨[], c, true⟩
  | limit + 1 =>
    let line := c.rest.takeWhile fun ch => !isBreakOrEnd ch
    let behind := c.skip line.length
    let (lineBreak, behind) := match behind.lineBreak? with
      | some (ch, behind) => ([ch], behind)
      | none => ([], behind)
    let (breaks, behind) := blockBreaks margin behind (behind.rest.length + 1)
    if behind.column = margin && !behind.rest.isEmpty then
      let more := blockLines folded chomping margin behind limit
      let between := joint folded (isIndented c || isIndented behind) lineBreak breaks
      { more with text := line ++ between ++ more.text }
    else ⟨line ++ chomp chomping lineBreak breaks, behind, true⟩

/-- The block scalar whose mark is in front; what holds it has its margin at `outer`. -/
def scanBlock (outer : Int) (c : Cursor) : Except Fault Scanned := do
  let folded := c.peek = '>'
  let (chomping, increment, c) ← scanHeader c.next
  let least := max (outer + 1) 1 |>.toNat
  let limit := c.rest.length + 1
  let (margin, breaks, c) := match increment with
    | some n =>
      let margin := least + n - 1
      let (breaks, c) := blockBreaks margin c limit
      (margin, breaks, c)
    | none =>
      let (breaks, furthest, c) := findMargin c 0 limit
      (max least furthest, breaks, c)
  if c.column = margin && !c.rest.isEmpty then
    let lines := blockLines folded chomping margin c limit
    return { lines with text := breaks ++ lines.text }
  else return ⟨chomp chomping [] breaks, c, true⟩

end CrudSchema.Yaml
