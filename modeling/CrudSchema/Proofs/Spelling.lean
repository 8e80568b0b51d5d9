import CrudSchema.Proofs.Classification
import CrudSchema.Proofs.DescriptionText
import CrudSchema.Proofs.Wrapping
import CrudSchema.Schema.Validity
import CrudSchema.Sdl.Grammar

/-!
# The tokens of a written schema

**Spelling** (`Spells`). A text spells certain tokens if it adds them in front of whatever follows,
as long as no name runs into what follows.

**Tokens of a schema** (`NamedType.tokens`). What is written for a type without the blanks, line
ends and commas, which mean nothing: the description, the keyword, the name and the members.

**Readable schemas** (`Schema.Readable`). All names are legal, every type has members, and no type
reference is deeper than a reader can follow.

Main result: `Schema.lexes_print`, the written text of a readable schema has the tokens of its
types, below the header of generated files or without one.
-/

namespace CrudSchema

open Schema Sdl Text

/-! ## Spelling -/

namespace Sdl

/-- The text adds the tokens in front of what follows. -/
def Spells (cs : List Char) (ts : List Token) : Prop :=
  ∀ rest us, Stops rest → Lexes rest us → Lexes (cs ++ rest) (ts ++ us)

theorem stops_nil : Stops [] := by
  intro c hc
  cases hc

namespace Spells

variable {c : Char} {cs cs' : List Char} {ts ts' : List Token}

theorem nil : Spells [] [] := fun _ _ _ h => h

theorem ignore (hc : isIgnored c = true) (h : Spells cs ts) : Spells (c :: cs) ts :=
  fun rest us hstops hlexes => (h rest us hstops hlexes).ignore hc

theorem ignoreAll {blanks : List Char} (hblanks : ∀ c ∈ blanks, isIgnored c = true)
    (h : Spells cs ts) : Spells (blanks ++ cs) ts := by
  intro rest us hstops hlexes
  rw [List.append_assoc]
  exact (h rest us hstops hlexes).ignoreAll hblanks

theorem punctuator (p : Punctuator) (hp : p.text = [c]) (h : Spells cs ts) :
    Spells (c :: cs) (.punctuator p :: ts) :=
  fun rest us hstops hlexes => (h rest us hstops hlexes).punctuator p hp

theorem append (h : Spells cs ts) (h' : Spells cs' ts') (hstops : Stops cs') :
    Spells (cs ++ cs') (ts ++ ts') := by
  intro rest us hrest hlexes
  have hmiddle : Stops (cs' ++ rest) := by
    by_cases hne : cs' = []
    · rwa [hne]
    · exact hstops.append hne rest
  rw [List.append_assoc, List.append_assoc]
  exact h _ _ hmiddle (h' rest us hrest hlexes)

theorem name {n : String} (hn : IsName n) : Spells n.toList [.name n] :=
  fun _ _ hstops hlexes => hlexes.name hn hstops

theorem named {n : String} (hn : IsName n) (h : Spells cs ts) (hstops : Stops cs) :
    Spells (n.toList ++ cs) (.name n :: ts) :=
  (name hn).append h hstops

/-- Pieces on lines of their own spell their tokens one after the other. -/
theorem join {pieces : List (List Char)} {tss : List (List Token)}
    (h : List.Forall₂ Spells pieces tss) : Spells (Text.join '\n' pieces) tss.flatten := by
  induction h with
  | nil => exact nil
  | @cons piece ts pieces tss hpiece hrest ih =>
    rw [List.flatten_cons]
    cases hrest with
    | nil =>
      rw [List.flatten_nil, List.append_nil]
      exact hpiece
    | cons =>
      rw [Text.join]
      · exact hpiece.append (ih.ignore (by decide)) (stops_cons (by decide) _)
      · intro heq
        cases heq

end Spells

end Sdl

/-! ## References -/

namespace TypeRef

/-- The reference leads to a legal name, and a reader can follow it. -/
structure Readable (type : TypeRef) : Prop where
  named : ∃ n, type.innermost? = some n ∧ IsName n
  depth : type.depth ≤ maximalDepth

end TypeRef

namespace WrappedType

/-- The type holds a readable reference. -/
def Readable (w : WrappedType) : Prop :=
  ∃ (type : TypeRef) (nullable : Bool), w = type.wrapped nullable ∧ type.Readable

theorem Readable.isName {w : WrappedType} (h : w.Readable) : IsName w.innermost := by
  obtain ⟨type, nullable, rfl, hreadable⟩ := h
  obtain ⟨n, hn, hname⟩ := hreadable.named
  rw [TypeRef.innermost_wrapped hn]
  exact hname

def tokens : WrappedType → List Token
  | .named n => [.name n]
  | .list item =>
    .punctuator .bracketLeft :: (item.tokens ++ [.punctuator .bracketRight])
  | .nonNull type => type.tokens ++ [.punctuator .bang]

def markTokens (nullable : Bool) : List Token := if nullable then [] else [.punctuator .bang]

theorem tokens_mark (nullable : Bool) (type : WrappedType) :
    (mark nullable type).tokens = type.tokens ++ markTokens nullable := by
  cases nullable with
  | true => exact (List.append_nil _).symm
  | false => rfl

end WrappedType

theorem TypeRef.tokens_wrapped_list (item : TypeRef) (itemNullable nullable : Bool)
    (us : List Token) : ((TypeRef.list item itemNullable).wrapped nullable).tokens ++ us =
      .punctuator .bracketLeft :: ((item.wrapped itemNullable).tokens ++
        .punctuator .bracketRight :: (WrappedType.markTokens nullable ++ us)) := by
  simp [wrapped, unmarked, WrappedType.tokens_mark, WrappedType.tokens]

def typedTokens (name : String) (type : WrappedType) : List Token :=
  .name name :: .punctuator .colon :: type.tokens

theorem spells_render {type : WrappedType} (h : IsName type.innermost) :
    Spells type.render.toList type.tokens := by
  induction type with
  | named n => exact .name h
  | list item ih =>
    have hclose : Spells [']'] [.punctuator .bracketRight] := .punctuator _ rfl .nil
    have hitem := (ih h).append hclose (stops_cons (by decide) _)
    have htext : (WrappedType.list item).render.toList = '[' :: (item.render.toList ++ [']']) := by
      simp [WrappedType.render]
    rw [htext]
    exact hitem.punctuator .bracketLeft rfl
  | nonNull type ih =>
    have hmark : Spells ['!'] [.punctuator .bang] := .punctuator _ rfl .nil
    rw [WrappedType.render, String.toList_append]
    exact (ih h).append hmark (stops_cons (by decide) _)

theorem spells_printTyped {name : String} {type : WrappedType} (hname : IsName name)
    (h : IsName type.innermost) :
    Spells (printTyped name type).toList (typedTokens name type) := by
  have htype := (spells_render h).ignore (c := ' ') (by decide)
  rw [printTyped, String.toList_append, String.toList_append, List.append_assoc]
  exact .named hname (htype.punctuator .colon rfl) (stops_cons (by decide) _)

/-! ## Members and types -/

def descriptionTokens (indentation : List Char) : Option String → List Token
  | none => []
  | some s => [descriptionToken indentation s]

/-- Items between punctuators, or nothing if there are none. -/
def groupTokens (opening close : Punctuator) (items : List (List Token)) : List Token :=
  if items.isEmpty then [] else .punctuator opening :: (items.flatten ++ [.punctuator close])

def argumentTokens (a : String × WrappedType) : List Token := typedTokens a.1 a.2

def fieldTokens (e : String × OutputField) : List Token :=
  descriptionTokens indent e.2.description ++ .name e.1 ::
    (groupTokens .parenLeft .parenRight (e.2.arguments.entries.map argumentTokens) ++
      .punctuator .colon :: e.2.type.tokens)

def inputFieldTokens (e : String × InputTypeField) : List Token :=
  descriptionTokens indent e.2.description ++ typedTokens e.1 e.2.type

/-- A description, a keyword and a name, with members in braces. -/
def definitionTokens (description : Option String) (keyword name : String)
    (members : List (List Token)) : List Token :=
  descriptionTokens [] description ++ .name keyword :: .name name ::
    groupTokens .braceLeft .braceRight members

/-- What is written for a type, but for what separates tokens. -/
def NamedType.tokens : NamedType → List Token
  | .scalar _ => []
  | .object o => definitionTokens o.description "type" o.name (o.fields.entries.map fieldTokens)
  | .enum e => definitionTokens e.description "enum" e.name (e.values.map fun v => [.name v])
  | .input i =>
    definitionTokens i.description "input" i.name (i.fields.entries.map inputFieldTokens)

variable {description : Option String} {indentation cs : List Char} {ts : List Token}

theorem spells_description (hblank : ∀ c ∈ indentation, c = ' ') (first : Bool)
    (h : Spells cs ts) : Spells (printDescription description indentation first ++ cs)
      (descriptionTokens indentation description ++ ts) := by
  cases description with
  | none => exact h
  | some s =>
    have hfeed : Spells ('\n' :: cs) ts := h.ignore (by decide)
    have htext : Spells (indentLines indentation (describedText s) ++ '\n' :: cs)
        (descriptionToken indentation s :: ts) := by
      intro rest us hstops hlexes
      rw [List.append_assoc]
      exact (hfeed rest us hstops hlexes).described hblank s
    have hindent : ∀ c ∈ indentation, isIgnored c = true := by
      intro c hc
      rw [hblank c hc]
      decide
    have hgap : ∀ c ∈ (if !indentation.isEmpty && !first then ['\n'] else []),
        isIgnored c = true := by
      split
      · exact List.forall_mem_singleton.2 (by decide)
      · exact fun c hc => absurd hc List.not_mem_nil
    have hlines : printDescription (some s) indentation first ++ cs =
        (if !indentation.isEmpty && !first then ['\n'] else []) ++
          (indentation ++ (indentLines indentation (describedText s) ++ '\n' :: cs)) := by
      simp [printDescription]
    rw [hlines]
    exact (htext.ignoreAll hindent).ignoreAll hgap

theorem spells_group (opening close : Punctuator) {o c : Char} (ho : opening.text = [o])
    (hc : close.text = [c]) {text : List Char} {items : List (List Token)} (hne : items ≠ [])
    (hstop : isNameChar c = false) (h : Spells text items.flatten) :
    Spells (o :: (text ++ [c])) (groupTokens opening close items) := by
  have hclose : Spells [c] [.punctuator close] := .punctuator close hc .nil
  rw [groupTokens, if_neg (by simpa using hne)]
  exact (h.append hclose (stops_cons hstop _)).punctuator opening ho

/-- Texts with something between them that separates tokens and ends names. -/
theorem spells_intercalate {separator : String} (hne : separator ≠ "")
    (hignored : separator.toList.all isIgnored = true) (hstops : Stops separator.toList)
    {texts : List String} {tss : List (List Token)}
    (h : List.Forall₂ (fun text ts => Spells text.toList ts) texts tss) :
    Spells (separator.intercalate texts).toList tss.flatten := by
  induction h with
  | nil => exact .nil
  | @cons text ts texts tss htext hrest ih =>
    rw [List.flatten_cons]
    cases hrest with
    | nil =>
      rw [String.intercalate_singleton, List.flatten_nil, List.append_nil]
      exact htext
    | cons =>
      rw [String.intercalate_cons_cons, String.toList_append, String.toList_append,
        List.append_assoc]
      have hrest := ih.ignoreAll (List.all_eq_true.1 hignored)
      exact htext.append hrest (hstops.append (by simpa using hne) _)

/-- The arguments of a field, each with a legal name and a readable type. -/
def ReadableArguments (arguments : NameMap WrappedType) : Prop :=
  ∀ a ∈ arguments.entries, IsName a.1 ∧ a.2.Readable

theorem spells_arguments {arguments : NameMap WrappedType} (h : ReadableArguments arguments) :
    Spells (printArguments arguments).toList
      (groupTokens .parenLeft .parenRight (arguments.entries.map argumentTokens)) := by
  have hitems : List.Forall₂ (fun text ts => Spells text.toList ts)
      (arguments.entries.map fun a => printTyped a.1 a.2)
      (arguments.entries.map argumentTokens) := by
    rw [List.forall₂_map_left_iff, List.forall₂_map_right_iff, List.forall₂_same]
    intro a ha
    exact spells_printTyped (h a ha).1 (h a ha).2.isName
  rw [printArguments, OrderedMap.isEmpty]
  by_cases hnone : arguments.entries = []
  · rw [hnone]
    exact .nil
  · have hsome : ¬ arguments.entries.isEmpty = true := by simpa using hnone
    have hstops : Stops ", ".toList := stops_cons (by decide) [' ']
    rw [if_neg hsome, String.toList_append, String.toList_append, List.append_assoc]
    exact spells_group _ _ rfl rfl (by simpa using hnone) (by decide)
      (spells_intercalate (by decide) (by decide) hstops hitems)

theorem stops_arguments (arguments : NameMap WrappedType) {cs : List Char} (h : Stops cs) :
    Stops ((printArguments arguments).toList ++ cs) := by
  rw [printArguments]
  split
  · exact h
  · rw [String.toList_append, String.toList_append, List.append_assoc, List.append_assoc]
    exact stops_cons (by decide) _

theorem blank_indent : ∀ c ∈ indent, c = ' ' := by
  intro c hc
  simpa [indent] using hc

theorem ignored_indent : ∀ c ∈ indent, isIgnored c = true := by
  intro c hc
  rw [blank_indent c hc]
  decide

theorem spells_field {e : String × OutputField} (hname : IsName e.1) (htype : e.2.type.Readable)
    (harguments : ReadableArguments e.2.arguments) (first : Bool) :
    Spells (printField first e) (fieldTokens e) := by
  have hresult := (spells_render htype.isName).ignore (c := ' ') (by decide)
  have hcolon := hresult.punctuator .colon (c := ':') rfl
  have hcall := (spells_arguments harguments).append hcolon (stops_cons (by decide) _)
  have hfield := Spells.named hname hcall (stops_arguments _ (stops_cons (by decide) _))
  have htext : printField first e = printDescription e.2.description indent first ++ (indent ++
      (e.1.toList ++ ((printArguments e.2.arguments).toList ++
        ':' :: ' ' :: e.2.type.render.toList))) := by
    simp [printField]
  rw [htext]
  exact spells_description blank_indent first (hfield.ignoreAll ignored_indent)

theorem spells_inputField {e : String × InputTypeField} (hname : IsName e.1)
    (htype : e.2.type.Readable) (first : Bool) :
    Spells (printInputField first e) (inputFieldTokens e) := by
  have hfield := spells_printTyped hname htype.isName
  rw [printInputField, List.append_assoc]
  exact spells_description blank_indent first (hfield.ignoreAll ignored_indent)

theorem spells_members {α : Type} (member : Bool → α → List Char) (tokens : α → List Token)
    {l : List α} (h : ∀ a ∈ l, ∀ first, Spells (member first a) (tokens a)) :
    List.Forall₂ Spells (printMembers member l) (l.map tokens) := by
  cases l with
  | nil => exact .nil
  | cons a rest =>
    obtain ⟨ha, hrest⟩ := List.forall_mem_cons.1 h
    refine .cons (ha true) ?_
    rw [List.forall₂_map_left_iff, List.forall₂_map_right_iff, List.forall₂_same]
    exact fun b hb => hrest b hb false

theorem spells_definition {keyword word name : String} {members : List (List Char)}
    {items : List (List Token)} (hword : word.toList = keyword.toList ++ [' '])
    (hkeyword : IsName keyword) (hname : IsName name) (hne : members ≠ [])
    (h : List.Forall₂ Spells members items) :
    Spells (printDescription description [] true ++ (word ++ name).toList ++ printBlock members)
      (definitionTokens description keyword name items) := by
  have hitems : items ≠ [] := by
    rintro rfl
    exact hne (List.forall₂_nil_right_iff.1 h)
  have hlines : Spells ('\n' :: (Text.join '\n' members ++ ['\n'])) items.flatten := by
    have hend : Spells ['\n'] [] := Spells.nil.ignore (by decide)
    have hjoin := (Spells.join h).append hend (stops_cons (by decide) _)
    rw [List.append_nil] at hjoin
    exact hjoin.ignore (by decide)
  have hbraces := spells_group .braceLeft .braceRight rfl rfl hitems (by decide) hlines
  rw [List.cons_append, List.append_assoc] at hbraces
  have hblock := hbraces.ignore (c := ' ') (by decide)
  have hnamed := Spells.named hname hblock (stops_cons (by decide) _)
  have hwhole := Spells.named hkeyword (hnamed.ignore (c := ' ') (by decide))
    (stops_cons (by decide) _)
  have htext : printDescription description [] true ++ (word ++ name).toList ++
      printBlock members = printDescription description [] true ++ (keyword.toList ++ ' ' ::
        (name.toList ++ ' ' :: '\x7b' :: '\n' :: (Text.join '\n' members ++ ['\n', '\x7d']))) := by
    simp [printBlock, hne, hword]
  rw [htext]
  exact spells_description (by simp) true hwhole

/-! ## Readable schemas -/

namespace NamedType

/-- All names are legal, there are members, and a reader can follow their types. -/
def Readable : NamedType → Prop
  | .scalar _ => True
  | .object o => IsName o.name ∧ o.fields.entries ≠ [] ∧ ∀ e ∈ o.fields.entries,
      IsName e.1 ∧ e.2.type.Readable ∧ ReadableArguments e.2.arguments
  | .enum e => IsName e.name ∧ e.values ≠ [] ∧
      ∀ v ∈ e.values, IsName v ∧ v ∉ ["true", "false", "null"]
  | .input i => IsName i.name ∧ i.fields.entries ≠ [] ∧ ∀ e ∈ i.fields.entries,
      IsName e.1 ∧ e.2.type.Readable

end NamedType

theorem printBlock_of_ne_nil {members : List (List Char)} (h : members ≠ []) :
    ∃ body, printBlock members = body ++ ['\x7d'] :=
  ⟨[' ', '\x7b', '\n'] ++ Text.join '\n' members ++ ['\n'], by simp [printBlock, h]⟩

theorem printMembers_ne_nil {α : Type} (member : Bool → α → List Char) {l : List α} (h : l ≠ []) :
    printMembers member l ≠ [] := by
  cases l with
  | nil => exact absurd rfl h
  | cons a rest => exact List.cons_ne_nil _ _

/-- **What is written for a type spells its tokens,** and ends in a brace. -/
theorem spells_type {t : NamedType} (h : t.Readable) {block : List Char}
    (hblock : printType t = some block) :
    Spells block t.tokens ∧ ∃ body, block = body ++ ['\x7d'] := by
  have hend : ∀ {members : List (List Char)} (front : List Char), members ≠ [] →
      ∃ body, front ++ printBlock members = body ++ ['\x7d'] := by
    intro members front hne
    obtain ⟨body, hbody⟩ := printBlock_of_ne_nil hne
    exact ⟨front ++ body, by rw [hbody, List.append_assoc]⟩
  cases t with
  | scalar kind => cases hblock
  | object o =>
    obtain ⟨hname, hne, hfields⟩ := h
    obtain rfl := Option.some.inj hblock
    have hmembers := spells_members printField fieldTokens fun e he =>
      spells_field (hfields e he).1 (hfields e he).2.1 (hfields e he).2.2
    have hsome := printMembers_ne_nil printField hne
    exact ⟨spells_definition (by decide) (by decide) hname hsome hmembers, hend _ hsome⟩
  | enum e =>
    obtain ⟨hname, hne, hvalues⟩ := h
    obtain rfl := Option.some.inj hblock
    have hmembers : List.Forall₂ Spells (e.values.map fun v => indent ++ v.toList)
        (e.values.map fun v => [.name v]) := by
      rw [List.forall₂_map_left_iff, List.forall₂_map_right_iff, List.forall₂_same]
      exact fun v hv => (Spells.name (hvalues v hv).1).ignoreAll ignored_indent
    have hsome : (e.values.map fun v => indent ++ v.toList) ≠ [] := by simpa using hne
    exact ⟨spells_definition (by decide) (by decide) hname hsome hmembers, hend _ hsome⟩
  | input i =>
    obtain ⟨hname, hne, hfields⟩ := h
    obtain rfl := Option.some.inj hblock
    have hmembers := spells_members printInputField inputFieldTokens fun e he =>
      spells_inputField (hfields e he).1 (hfields e he).2
    have hsome := printMembers_ne_nil printInputField hne
    exact ⟨spells_definition (by decide) (by decide) hname hsome hmembers, hend _ hsome⟩

theorem spells_blocks {blocks : List (List Char)} {tss : List (List Token)}
    (h : List.Forall₂ Spells blocks tss) : Spells (joinBlocks blocks) tss.flatten := by
  induction h with
  | nil => exact .nil
  | @cons block ts blocks tss hblock hrest ih =>
    rw [List.flatten_cons]
    cases hrest with
    | nil =>
      rw [List.flatten_nil, List.append_nil]
      exact hblock
    | cons =>
      rw [joinBlocks]
      · have hgap := ih.ignore (c := '\n') (by decide)
        exact hblock.append (hgap.ignore (c := '\n') (by decide)) (stops_cons (by decide) _)
      · intro heq
        cases heq

theorem joinBlocks_end {blocks : List (List Char)} (hne : blocks ≠ [])
    (h : ∀ block ∈ blocks, ∃ body, block = body ++ ['\x7d']) :
    ∃ body, joinBlocks blocks = body ++ ['\x7d'] := by
  induction blocks with
  | nil => exact absurd rfl hne
  | cons block more ih =>
    obtain ⟨hblock, hmore⟩ := List.forall_mem_cons.1 h
    by_cases hlast : more = []
    · rw [hlast]
      exact hblock
    · obtain ⟨body, hbody⟩ := ih hlast hmore
      refine ⟨block ++ '\n' :: '\n' :: body, ?_⟩
      rw [joinBlocks, hbody, List.append_assoc, List.cons_append, List.cons_append]
      exact hlast

namespace Schema

variable {s : Schema}

/-- The types that are written. -/
def written (s : Schema) : List NamedType := s.types.filter fun t => !isScalar t

structure Readable (s : Schema) : Prop where
  types : ∀ t ∈ s.types, t.Readable
  nonempty : s.written ≠ []

end Schema

theorem spells_types {l : List NamedType} (h : ∀ t ∈ l, t.Readable) :
    List.Forall₂ Spells (l.filterMap printType)
      ((l.filter fun t => !isScalar t).map NamedType.tokens) := by
  induction l with
  | nil => exact .nil
  | cons t rest ih =>
    obtain ⟨ht, hrest⟩ := List.forall_mem_cons.1 h
    cases t with
    | scalar kind => exact ih hrest
    | object o => exact .cons (spells_type ht rfl).1 (ih hrest)
    | enum e => exact .cons (spells_type ht rfl).1 (ih hrest)
    | input i => exact .cons (spells_type ht rfl).1 (ih hrest)

theorem blocks_end {l : List NamedType} (h : ∀ t ∈ l, t.Readable)
    (hne : (l.filter fun t => !isScalar t) ≠ []) :
    ∃ body, joinBlocks (l.filterMap printType) = body ++ ['\x7d'] := by
  refine joinBlocks_end ?_ fun block hblock => ?_
  · intro hnone
    have hlength := (spells_types h).length_eq
    rw [hnone, List.length_nil, List.length_map] at hlength
    exact hne (List.length_eq_zero_iff.1 hlength.symm)
  · obtain ⟨t, ht, hprint⟩ := List.mem_filterMap.1 hblock
    exact (spells_type (h t ht) hprint).2

/-- A header is empty or one line of comment. -/
def IsHeader (header : String) : Prop :=
  header = "" ∨ ∃ cs, header.toList = '#' :: cs ∧ ∀ c ∈ cs, c ≠ '\n' ∧ c ≠ '\r'

theorem isHeader_generatedHeader : IsHeader generatedHeader := by
  have hline : (generatedHeader.toList.drop 1).all (fun c => c ≠ '\n' && c ≠ '\r') = true := by
    decide +kernel
  refine .inr ⟨generatedHeader.toList.drop 1, by decide +kernel, fun c hc => ?_⟩
  simpa using List.all_eq_true.1 hline c hc

/-- No blanks are dropped behind a brace. -/
theorem dropEndWhile_brace (body : List Char) :
    dropEndWhile isBlank (body ++ ['\x7d']) = body ++ ['\x7d'] := by
  have hbrace : isBlank '\x7d' = false := by decide
  simp [dropEndWhile, hbrace]

/-- **The written text of a readable schema has the tokens of its types.** -/
theorem Schema.lexes_print {s : Schema} (h : s.Readable) {header : String}
    (hheader : IsHeader header) :
    Lexes (s.print header).toList (s.written.flatMap NamedType.tokens ++ [.ending]) := by
  have hblocks := spells_blocks (spells_types h.types)
  obtain ⟨body, hbody⟩ := blocks_end h.types h.nonempty
  have hend : Lexes ['\n'] [.ending] := Lexes.nil.ignore (by decide)
  have hlexes := hblocks _ _ (stops_cons (by decide) []) hend
  rw [← List.flatMap_def, hbody] at hlexes
  rw [print, String.toList_ofList, hbody]
  obtain rfl | ⟨cs, hcs, hline⟩ := hheader
  · rw [if_pos rfl, dropEndWhile_brace]
    exact hlexes
  · have hne : header ≠ "" := by
      rintro rfl
      cases hcs
    have hwhole : header.toList ++ '\n' :: '\n' :: (body ++ ['\x7d']) =
        ('#' :: (cs ++ '\n' :: '\n' :: body)) ++ ['\x7d'] := by
      simp [hcs]
    rw [if_neg hne, hwhole, dropEndWhile_brace]
    have hgap := hlexes.ignore (c := '\n') (by decide)
    have htext : ('#' :: (cs ++ '\n' :: '\n' :: body)) ++ ['\x7d'] ++ ['\n'] =
        '#' :: (cs ++ '\n' :: '\n' :: (body ++ ['\x7d'] ++ ['\n'])) := by
      simp
    rw [htext]
    exact hgap.comment hline

end CrudSchema
