import CrudSchema.Text.Digit
import CrudSchema.Text.Quoted

/-!
# Reading words by switches

**Switches** (`Switch`). A switch goes by one or more names and takes no word, one, or one and all
that follow up to the next switch.

**Telling words apart** (`classify`). A word that begins with a dash is a switch, by its name or, if
the name begins with two dashes, by any beginning of it that no other name shares. What a switch
takes may be attached, behind an equals sign or right behind a name of one letter. A dash alone, a
negative number and a word with a space in it are plain words unless they name a switch, and so is
everything behind a word of two dashes (`mark`).

**Letters in a row** (`takeAttached`). What is attached to a switch of one letter that takes no word
is read as letters of further switches; the last of them may take the rest as its word. Two dashes
that are attached stand for no word at all.

**Reading** (`read`). All words are told apart before the first is acted on. A reading is the list
of what was found, in order: switches with what they take, and words that nothing takes
(`Event`). Where a command is awaited, the first plain word names it, and all that follows is the
command's. A reading that meets a fault ends there and keeps what it found before.
-/

namespace CrudSchema.CommandLine

/-! ## Switches -/

/-- How many words a switch takes. -/
inductive Arity where
  | none
  | one
  | oneOrMore
  deriving DecidableEq, Repr

structure Switch (κ : Type) where
  key : κ
  names : List String
  arity : Arity

/-- Why a command line cannot be read. -/
inductive UsageFault where
  | ambiguous (word : String) (names : List String)
  | wordExpected (names : List String) (arity : Arity)
  | wordRefused (names : List String) (word : String)
  | unknownCommand (word : String) (known : List String)
  | unrecognized (words : List String)
  deriving DecidableEq, Repr

def UsageFault.message : UsageFault → String
  | .ambiguous word names =>
    "ambiguous option: " ++ word ++ " could match " ++ ", ".intercalate names
  | .wordExpected names arity =>
    "argument " ++ "/".intercalate names ++
      (if arity = .one then ": expected one argument" else ": expected at least one argument")
  | .wordRefused names word =>
    "argument " ++ "/".intercalate names ++ ": ignored explicit argument " ++ Text.quoted word
  | .unknownCommand word known =>
    "argument command: invalid choice: " ++ Text.quoted word ++ " (choose from " ++
      ", ".intercalate (known.map Text.quoted) ++ ")"
  | .unrecognized words => "unrecognized arguments: " ++ " ".intercalate words

/-! ## Telling words apart -/

/-- A switch by one of its names, with the characters attached to it. -/
structure Named (κ : Type) where
  switch : Switch κ
  name : String
  attached : Option (List Char)

/-- What a word is. -/
inductive Mark (κ : Type) where
  | plain
  | divider
  | named (n : Named κ)
  | unknown

variable {κ : Type}

/-- All names, each with its switch. -/
def namesOf (switches : List (Switch κ)) : List (String × Switch κ) :=
  switches.flatMap fun s => s.names.map fun name => (name, s)

def find? (switches : List (Switch κ)) (name : String) : Option (Switch κ) :=
  (namesOf switches).lookup name

/-- A word cut at its first equals sign. -/
def cutAtEquals (cs : List Char) : List Char × Option (List Char) :=
  (cs.takeWhile (· ≠ '='),
    match cs.dropWhile (· ≠ '=') with
    | _ :: w => some w
    | [] => none)

/-- The switches a word may be short for. -/
def candidates (switches : List (Switch κ)) : List Char → List (Named κ)
  | '-' :: '-' :: cs =>
    let (start, attached) := cutAtEquals ('-' :: '-' :: cs)
    (namesOf switches).filterMap fun (name, s) =>
      if start.isPrefixOf name.toList then some ⟨s, name, attached⟩ else none
  | '-' :: c :: cs =>
    (namesOf switches).filterMap fun (name, s) =>
      if name = String.ofList ['-', c] then some ⟨s, name, some cs⟩
      else if ('-' :: c :: cs).isPrefixOf name.toList then some ⟨s, name, none⟩
      else none
  | _ => []

/-- A line end is passed over at the end of a number. -/
def dropLineEnd (cs : List Char) : List Char := if cs.getLast? = some '\n' then cs.dropLast else cs

/-- Digits, perhaps with a point before the last of them. -/
def isUnsigned (cs : List Char) : Bool :=
  match cs.dropWhile Text.isDecimalDigit with
  | [] => !cs.isEmpty
  | '.' :: digits => !digits.isEmpty && digits.all Text.isDecimalDigit
  | _ => false

def isNegativeNumber : List Char → Bool
  | '-' :: cs => isUnsigned (dropLineEnd cs)
  | _ => false

/-- The mark of a word that stands before any divider. -/
def classify (switches : List (Switch κ)) (word : String) : Except UsageFault (Mark κ) :=
  let cs := word.toList
  match cs with
  | '-' :: rest =>
    match find? switches word with
    | some s => .ok (.named ⟨s, word, none⟩)
    | none =>
      if rest.isEmpty then .ok .plain
      else
        let (name, attached) := cutAtEquals cs
        match attached, find? switches (String.ofList name) with
        | some w, some s => .ok (.named ⟨s, String.ofList name, some w⟩)
        | _, _ =>
          match candidates switches cs with
          | [n] => .ok (.named n)
          | [] => .ok (if isNegativeNumber cs || cs.contains ' ' then .plain else .unknown)
          | several => .error (.ambiguous word (several.map Named.name))
  | _ => .ok .plain

/-- A word with its mark. -/
abbrev Marked (κ : Type) := String × Mark κ

/-- Mark all words. -/
def mark (switches : List (Switch κ)) : List String → Except UsageFault (List (Marked κ))
  | [] => .ok []
  | word :: rest =>
    if word = "--" then .ok ((word, .divider) :: rest.map fun w => (w, .plain))
    else do
      let m ← classify switches word
      return (word, m) :: (← mark switches rest)

/-! ## Reading -/

inductive Event (κ : Type) where
  | given (key : κ) (words : List String)
  | extra (word : String)
  | command (name : String) (words : List String)

structure Reading (κ : Type) where
  events : List (Event κ) := []
  fault : Option UsageFault := none

namespace Reading

/-- A reading with something found before it. -/
def after (events : List (Event κ)) (r : Reading κ) : Reading κ :=
  { r with events := events ++ r.events }

end Reading

def Mark.isPlain : Mark κ → Bool
  | .plain => true
  | _ => false

/-- What a switch without anything attached takes of the plain words that follow. -/
def takeWords (s : Switch κ) (following : List String) : Except UsageFault (List String) :=
  match s.arity, following with
  | .none, _ => .ok []
  | .one, word :: _ => .ok [word]
  | .oneOrMore, word :: words => .ok (word :: words)
  | arity, [] => .error (.wordExpected s.names arity)

/-- What is found in a word and the plain words that follow it, and how many of these are taken. -/
abbrev Found (κ : Type) := Except UsageFault (List (Event κ) × Nat)

/-- A switch that takes what follows. -/
def takeFollowing (s : Switch κ) (following : List String) : Found κ :=
  (takeWords s following).map fun words => ([.given s.key words], words.length)

/-- The words that attached characters are. -/
def attachedWords (cs : List Char) : List String :=
  if cs = ['-', '-'] then [] else [String.ofList cs]

/-- A switch with characters attached to it. If it has a name of one letter and takes no word, they
are letters of further switches. -/
def takeAttached (switches : List (Switch κ)) (short : Bool) (s : Switch κ)
    (following : List String) (cs : List Char) : Found κ :=
  if s.arity ≠ .none then .ok ([.given s.key (attachedWords cs)], 0)
  else match short, cs with
    | true, c :: rest =>
      match find? switches (String.ofList ['-', c]) with
      | none => .error (.wordRefused s.names (String.ofList cs))
      | some next =>
        let found :=
          if rest.isEmpty then takeFollowing next following
          else takeAttached switches true next following rest
        found.map fun (events, taken) => (.given s.key [] :: events, taken)
    | _, _ => .error (.wordRefused s.names (String.ofList cs))

/-- The name has one letter behind one dash. -/
def Named.isShort (n : Named κ) : Bool := (n.name.toList.drop 1).head? ≠ some '-'

def take (switches : List (Switch κ)) (n : Named κ) (following : List String) : Found κ :=
  match n.attached with
  | none => takeFollowing n.switch following
  | some cs => takeAttached switches n.isShort n.switch following cs

/-- Read marked words. A plain word names a command if one is awaited. -/
def readMarked (switches : List (Switch κ)) (awaitsCommand : Bool) : List (Marked κ) → Reading κ
  | [] => {}
  | (word, m) :: rest =>
    match m with
    | .named n =>
      let following := (rest.takeWhile fun w => w.2.isPlain).map Prod.fst
      match take switches n following with
      | .error fault => { fault := some fault }
      | .ok (events, taken) => (readMarked switches awaitsCommand (rest.drop taken)).after events
    | .unknown => (readMarked switches awaitsCommand rest).after [.extra word]
    | .plain =>
      if awaitsCommand then { events := [.command word (rest.map Prod.fst)] }
      else (readMarked switches awaitsCommand rest).after [.extra word]
    | .divider =>
      if awaitsCommand && !rest.isEmpty then { events := [.command word (rest.map Prod.fst)] }
      else (readMarked switches awaitsCommand rest).after [.extra word]
termination_by words => words.length
decreasing_by all_goals simp; try omega

/-- Read the words of a command line. -/
def read (switches : List (Switch κ)) (awaitsCommand : Bool) (words : List String) : Reading κ :=
  match mark switches words with
  | .ok marked => readMarked switches awaitsCommand marked
  | .error fault => { fault := some fault }

end CrudSchema.CommandLine
