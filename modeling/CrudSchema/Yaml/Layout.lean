import CrudSchema.Yaml.Token

/-!
# From layout to tokens

**Blocks.** A line that stands further in than what is open begins a block; one that stands further
out ends blocks. The columns of the open blocks are kept with the innermost first (`columns`); the
text as a whole stands at column -1. Inside brackets layout means nothing.

**Keys** (`Candidate`). Only the colon shows that what came before it was a key. So each place where
a key could begin is remembered with the number of tokens before it, and the tokens for a key are
put in there once the colon is met. A key stays on one line and is not long. In each bracket at
most one place is remembered; one that must begin a key, because a block of its column is open,
and does not, is a fault.

**Reading** (`tokens`). The tokens of a whole text, each step taking one word.
-/

namespace CrudSchema.Yaml

/-- A place where a key could begin. -/
structure Candidate where
  level : Nat
  position : Nat
  required : Bool
  index : Nat
  line : Nat
  column : Nat

/-- A reader in the middle of a text. -/
structure Layout where
  cursor : Cursor
  /-- How many brackets are open. -/
  level : Nat := 0
  columns : List Int := []
  keyAllowed : Bool := true
  candidates : List Candidate := []
  tokens : List Token := []

namespace Layout

/-- The column of the innermost block. -/
def column (l : Layout) : Int := l.columns.headD (-1)

def inFlow (l : Layout) : Bool := l.level ≠ 0

def push (l : Layout) (t : Token) : Layout := { l with tokens := l.tokens ++ [t] }

/-- Add a token that is so many characters long. -/
def pushPast (l : Layout) (t : Token) (length : Nat) : Layout :=
  { l.push t with cursor := l.cursor.skip length }

/-- Put a token in before the ones from a position on. -/
def insert (l : Layout) (position : Nat) (t : Token) : Layout :=
  { l with tokens := l.tokens.take position ++ t :: l.tokens.drop position }

/-! ## Blocks -/

/-- End the blocks that stand further in than a column. -/
def closeBlocks (l : Layout) (column : Int) : Layout :=
  if l.inFlow then l
  else
    let inner := l.columns.takeWhile fun c => column < c
    { l with
      columns := l.columns.drop inner.length
      tokens := l.tokens ++ List.replicate inner.length .blockEnd }

/-- Begin a block at a column, unless one stands there already. -/
def openBlock (l : Layout) (column : Nat) (position : Nat) (t : Token) : Layout :=
  if l.column < column then
    { l with columns := (column : Int) :: l.columns }.insert position t
  else l

/-! ## Keys -/

/-- How long a key may be. -/
def longestKey : Nat := 1024

def isStale (c : Cursor) (k : Candidate) : Bool :=
  k.line ≠ c.line || longestKey < c.index - k.index

/-- Forget candidates; one that must begin a key cannot be forgotten. -/
def forget (l : Layout) (which : Candidate → Bool) : Except Fault Layout :=
  if l.candidates.any fun k => which k && k.required then .error (.malformed .colonExpected)
  else .ok { l with candidates := l.candidates.filter fun k => !which k }

/-- Forget the candidate of the innermost bracket. -/
def forgetOwn (l : Layout) : Except Fault Layout := l.forget fun k => k.level = l.level

/-- Remember that a key could begin here, if one may. -/
def remember (l : Layout) : Except Fault Layout :=
  if !l.keyAllowed then .ok l
  else do
    let own ← l.forgetOwn
    let c := l.cursor
    return { own with candidates :=
      ⟨l.level, l.tokens.length, !l.inFlow && l.column = c.column, c.index, c.line, c.column⟩ ::
        own.candidates }

/-! ## Words -/

/-- Go past blanks, comments and line ends. Outside of brackets a key may begin on a new line. -/
def skipGaps (l : Layout) : (limit : Nat) → Layout
  | 0 => l
  | limit + 1 =>
    let c := l.cursor.skipLineEnd
    match c.lineBreak? with
    | some (_, c) =>
      skipGaps { l with cursor := c, keyAllowed := l.keyAllowed || !l.inFlow } limit
    | none => { l with cursor := c }

/-- Go past a byte order mark at the beginning of the text. -/
def skipMark (l : Layout) : Layout :=
  if l.cursor.index = 0 && l.cursor.peek = byteOrderMark then { l with cursor := l.cursor.next }
  else l

/-- A mark between documents: it ends all blocks. -/
def takeDocumentMark (l : Layout) (t : Token) : Except Fault Layout := do
  let l ← (l.closeBlocks (-1)).forgetOwn
  return { l.pushPast t 3 with keyAllowed := false }

def takeDirective (l : Layout) : Except Fault Layout := do
  let l ← (l.closeBlocks (-1)).forgetOwn
  let (d, c) ← scanDirective l.cursor
  return { l.push (.directive d) with cursor := c, keyAllowed := false }

def takeFlowStart (l : Layout) (t : Token) : Except Fault Layout := do
  let l ← l.remember
  return { l.pushPast t 1 with level := l.level + 1, keyAllowed := true }

def takeFlowEnd (l : Layout) (t : Token) : Except Fault Layout := do
  let l ← l.forgetOwn
  if !l.inFlow then throw (.malformed .unopened)
  return { l.pushPast t 1 with level := l.level - 1, keyAllowed := false }

def takeSeparator (l : Layout) : Except Fault Layout := do
  let l ← l.forgetOwn
  return { l.pushPast .separator 1 with keyAllowed := true }

/-- The mark of an item or of a written-out key, which may begin a block. -/
def takeBlockMark (l : Layout) (blocked : SyntaxError) (start t : Token) : Except Fault Layout := do
  if !l.inFlow && !l.keyAllowed then throw (.malformed blocked)
  let l := if l.inFlow then l else l.openBlock l.cursor.column l.tokens.length start
  let l ← l.forgetOwn
  return l.pushPast t 1

def takeItem (l : Layout) : Except Fault Layout := do
  let l ← l.takeBlockMark .itemNotAllowed .sequenceStart .item
  return { l with keyAllowed := true }

def takeKey (l : Layout) : Except Fault Layout := do
  let l ← l.takeBlockMark .keyNotAllowed .mappingStart .key
  return { l with keyAllowed := !l.inFlow }

/-- The colon: it makes a key of the candidate, if there is one. -/
def takeValue (l : Layout) : Except Fault Layout :=
  match l.candidates.find? fun k => k.level = l.level with
  | some k =>
    let l := { l with candidates := l.candidates.filter fun k => k.level ≠ l.level }
    let l := l.insert k.position .key
    let l := if l.inFlow then l else l.openBlock k.column k.position .mappingStart
    .ok { l.pushPast .value 1 with keyAllowed := false }
  | none => do
    let l ← l.takeBlockMark .valueNotAllowed .mappingStart .value
    return { l with keyAllowed := !l.inFlow }

def takeAlias (l : Layout) (token : String → Token) : Except Fault Layout := do
  let l ← l.remember
  let (name, c) ← scanAnchor l.cursor
  return { l.push (token name) with cursor := c, keyAllowed := false }

def takeTag (l : Layout) : Except Fault Layout := do
  let l ← l.remember
  let (t, c) ← scanTag l.cursor
  return { l.push t with cursor := c, keyAllowed := false }

def pushScalar (l : Layout) (s : Scanned) (plain keyAllowed : Bool) : Layout :=
  { l.push (.scalar (String.ofList s.text) plain) with cursor := s.cursor, keyAllowed }

def takeBlockScalar (l : Layout) : Except Fault Layout := do
  let l ← l.forgetOwn
  return l.pushScalar (← scanBlock l.column l.cursor) false true

def takeQuoted (l : Layout) : Except Fault Layout := do
  let l ← l.remember
  return l.pushScalar (← scanQuoted l.cursor) false false

def takePlain (l : Layout) : Except Fault Layout := do
  let l ← l.remember
  let s := scanPlain l.inFlow (l.column + 1).toNat l.cursor
  return l.pushScalar s true s.newLine

/-! ## Reading -/

/-- Characters that mean something where a token begins. -/
def isIndicator (c : Char) : Bool := "-?:,[]\x7b\x7d#&*!|>'\"%@\x60".toList.contains c

/-- A plain scalar can begin here. -/
def startsPlain (l : Layout) : Bool :=
  let ch := l.cursor.peek
  !isGap ch && !isIndicator ch ||
    !isGap (l.cursor.peek 1) && (ch = '-' || !l.inFlow && (ch = '?' || ch = ':'))

/-- Take the word in front. -/
def takeWord (l : Layout) : Except Fault Layout :=
  let c := l.cursor
  let apart := isGap (c.peek 1)
  match c.peek with
  | '[' => l.takeFlowStart .flowSequenceStart
  | '\x7b' => l.takeFlowStart .flowMappingStart
  | ']' => l.takeFlowEnd .flowSequenceEnd
  | '\x7d' => l.takeFlowEnd .flowMappingEnd
  | ',' => l.takeSeparator
  | '*' => l.takeAlias .alias
  | '&' => l.takeAlias .anchor
  | '!' => l.takeTag
  | '\'' => l.takeQuoted
  | '"' => l.takeQuoted
  | ch =>
    if c.column = 0 && ch = '%' then l.takeDirective
    else if c.column = 0 && c.atMark '-' then l.takeDocumentMark .documentStart
    else if c.column = 0 && c.atMark '.' then l.takeDocumentMark .documentEnd
    else if ch = '-' && apart then l.takeItem
    else if ch = '?' && (l.inFlow || apart) then l.takeKey
    else if ch = ':' && (l.inFlow || apart) then l.takeValue
    else if (ch = '|' || ch = '>') && !l.inFlow then l.takeBlockScalar
    else if l.startsPlain then l.takePlain
    else .error (.malformed (.noToken ch))

/-- The end of the text: it ends all blocks. -/
def finish (l : Layout) : Except Fault (List Token) := do
  let l ← (l.closeBlocks (-1)).forgetOwn
  return l.tokens ++ [.streamEnd]

/-- Take words up to the end. -/
def run (l : Layout) : (limit : Nat) → Except Fault (List Token)
  | 0 => l.finish
  | limit + 1 => do
    let l := l.skipGaps (l.cursor.rest.length + 1)
    let l ← l.forget (isStale l.cursor)
    let l := l.closeBlocks l.cursor.column
    if l.cursor.rest.isEmpty then l.finish
    else
      let l ← l.takeWord
      l.run limit

end Layout

/-- The tokens of a text. -/
def tokens (text : String) : Except Fault (List Token) :=
  let cs := text.toList
  if !cs.all isAllowed then .error (.malformed .unprintable)
  else (Layout.skipMark ⟨⟨cs, 0, 0, 0⟩, 0, [], true, [], []⟩).run (cs.length + 1)

end CrudSchema.Yaml
