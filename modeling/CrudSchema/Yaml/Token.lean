import CrudSchema.Yaml.Scalar

/-!
# The words of a settings file

**Tokens** (`Token`). Marks of documents, brackets, scalars, names for nodes and types, and the
tokens that stand for layout: where a block begins and ends, where a key begins, and where its
value does.

**Words with parts.** Names of nodes (`scanAnchor`), types of nodes (`scanTag`) and directives
(`scanDirective`) are read here.
-/

namespace CrudSchema.Yaml

inductive Directive where
  | version (major minor : Nat)
  | handle (name stem : String)
  | other
  deriving DecidableEq, Repr

inductive Token where
  | directive (d : Directive)
  | documentStart
  | documentEnd
  | streamEnd
  | sequenceStart
  | mappingStart
  | blockEnd
  | flowSequenceStart
  | flowSequenceEnd
  | flowMappingStart
  | flowMappingEnd
  | item
  | separator
  | key
  | value
  | alias (name : String)
  | anchor (name : String)
  /-- A type, with the handle that abbreviates it; without one it is written out. -/
  | tag (handle : Option String) (suffix : String)
  | scalar (text : String) (plain : Bool)
  deriving DecidableEq, Repr

/-! ## Names -/

def isWordChar (c : Char) : Bool := c.isAlphanum || c = '-' || c = '_'

/-- Blanks other than tabs, breaks, and the end. -/
def isSpaceOrBreak (c : Char) : Bool := c = ' ' || isBreakOrEnd c

/-- The name behind the mark in front. -/
def scanAnchor (c : Cursor) : Except Fault (String × Cursor) :=
  let c := c.next
  let name := c.rest.takeWhile isWordChar
  let behind := c.skip name.length
  let ends := isGap behind.peek || "?:,]\x7d%@\x60".toList.contains behind.peek
  if name.isEmpty || !ends then .error (.malformed .anchorName)
  else .ok (String.ofList name, behind)

/-! ## Types -/

def isUriChar (c : Char) : Bool :=
  c.isAlphanum || "-;/?:@&=+$,_.!~*'()[]%".toList.contains c

/-- The bytes that escapes in front give, and the place behind them. -/
def scanBytes (c : Cursor) : (limit : Nat) → Except Fault (List UInt8 × Cursor)
  | 0 => .ok ([], c)
  | limit + 1 =>
    if c.peek ≠ '%' then .ok ([], c)
    else
      match Text.hexValue? (c.peek 1), Text.hexValue? (c.peek 2) with
      | some high, some low => do
        let (bytes, c) ← scanBytes (c.skip 3) limit
        return ((16 * high + low).toUInt8 :: bytes, c)
      | _, _ => .error (.malformed .tagName)

/-- The text of a type, with its escapes read. -/
def scanUriFrom (c : Cursor) : (limit : Nat) → Except Fault (List Char × Cursor)
  | 0 => .ok ([], c)
  | limit + 1 =>
    if !isUriChar c.peek then .ok ([], c)
    else if c.peek = '%' then do
      let (bytes, c) ← scanBytes c limit
      match String.fromUTF8? ⟨bytes.toArray⟩ with
      | none => throw (.malformed .tagName)
      | some s =>
        let (more, c) ← scanUriFrom c limit
        return (s.toList ++ more, c)
    else do
      let (more, behind) ← scanUriFrom c.next limit
      return (c.peek :: more, behind)

def scanUri (c : Cursor) : Except Fault (String × Cursor) := do
  let (text, c) ← scanUriFrom c (c.rest.length + 1)
  if text.isEmpty then throw (.malformed .tagName)
  return (String.ofList text, c)

/-- A handle: an exclamation mark, or a word between two. -/
def scanHandle (c : Cursor) : Except Fault (String × Cursor) :=
  if c.peek ≠ '!' then .error (.malformed .tagName)
  else if c.peek 1 = ' ' then .ok ("!", c.next)
  else
    let word := (c.rest.drop 1).takeWhile isWordChar
    let behind := c.skip (word.length + 1)
    if behind.peek ≠ '!' then .error (.malformed .tagName)
    else .ok (String.ofList ('!' :: word ++ ['!']), behind.next)

/-- A type behind its handle, or in angle brackets. -/
def scanTag (c : Cursor) : Except Fault (Token × Cursor) := do
  let (token, behind) ←
    if c.peek 1 = '<' then do
      let (suffix, behind) ← scanUri (c.skip 2)
      if behind.peek ≠ '>' then throw (.malformed .tagName)
      pure (Token.tag none suffix, behind.next)
    else if isGap (c.peek 1) then pure (Token.tag none "!", c.next)
    else do
      let word := (c.rest.drop 1).takeWhile fun ch => !isSpaceOrBreak ch
      let (handle, behind) ← if word.contains '!' then scanHandle c else pure ("!", c.next)
      let (suffix, behind) ← scanUri behind
      pure (Token.tag (some handle) suffix, behind)
  if !isSpaceOrBreak behind.peek then throw (.malformed .tagName)
  return (token, behind)

/-! ## Directives -/

/-- A number and the place behind it. -/
def scanNumber (c : Cursor) : Except Fault (Nat × Cursor) :=
  let digits := c.rest.takeWhile Char.isDigit
  if digits.isEmpty then .error (.malformed .directive)
  else .ok (Text.decimalNumber digits, c.skip digits.length)

def scanVersion (c : Cursor) : Except Fault (Directive × Cursor) := do
  let (major, c) ← scanNumber (c.skipWhile (· = ' '))
  if c.peek ≠ '.' then throw (.malformed .directive)
  let (minor, c) ← scanNumber c.next
  if !isSpaceOrBreak c.peek then throw (.malformed .directive)
  return (.version major minor, c)

def scanHandleDirective (c : Cursor) : Except Fault (Directive × Cursor) := do
  let (name, c) ← scanHandle (c.skipWhile (· = ' '))
  if c.peek ≠ ' ' then throw (.malformed .directive)
  let (stem, c) ← scanUri (c.skipWhile (· = ' '))
  if !isSpaceOrBreak c.peek then throw (.malformed .directive)
  return (.handle name stem, c)

/-- The directive in front, up to the end of its line. -/
def scanDirective (c : Cursor) : Except Fault (Directive × Cursor) := do
  let c := c.next
  let name := c.rest.takeWhile isWordChar
  let c := c.skip name.length
  if name.isEmpty || !isSpaceOrBreak c.peek then throw (.malformed .directive)
  let (d, c) ← match String.ofList name with
    | "YAML" => scanVersion c
    | "TAG" => scanHandleDirective c
    | _ => pure (.other, c.skipWhile fun ch => !isBreakOrEnd ch)
  let c := c.skipLineEnd
  if !isBreakOrEnd c.peek then throw (.malformed .directive)
  return (d, match c.lineBreak? with | some (_, c) => c | none => c)

end CrudSchema.Yaml
