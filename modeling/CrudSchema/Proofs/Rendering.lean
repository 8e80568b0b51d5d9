import CrudSchema.Proofs.Depth
import CrudSchema.Proofs.Parsing

/-!
# Rendered declarations are read back

**The text of a declaration** (`Declaration.text`). The fields as they are shown, one behind the
other, between braces.

**Legible declarations** (`Declaration.Legible`). Names that a reader takes for names, keywords
included, and one field at least. Fields may repeat a name, and nothing bounds how lists nest.

**Failing** (`Fails`). A step that fails on some tokens with a fault. A step fails where its first
part does, or where the rest does on what the first part leaves.

**Depth.** A reader follows lists up to a limit. A mark is read where it was written, one level
above the position it describes, so up to the limit a declaration is read back as it is
(`load_text`); beyond it the first list too many is the fault (`load_text_of_deep`). The limit
belongs to the reader and not to the notation, in which no two types are written alike
(`Field.render_injective`).

Main result: `Declaration.reads_back`.
-/

namespace CrudSchema

open Schema Sdl

/-! ## Legible declarations -/

structure Field.Legible (f : Field) : Prop where
  name : IsName f.name
  type : ∃ n, f.type.innermost? = some n ∧ IsName n

structure Declaration.Legible (d : Declaration) : Prop where
  name : IsName d.name
  undescribed : d.description = none
  nonempty : d.fields ≠ []
  fields : ∀ f ∈ d.fields, f.Legible

/-- A declaration written on one line. -/
def Declaration.text (d : Declaration) : String :=
  "type " ++ d.name ++ " \x7b " ++ " ".intercalate (d.fields.map Field.render) ++ " \x7d"

def Field.tokens (f : Field) : List Token := typedTokens f.name (f.type.wrapped f.nullable)

/-- A field as it is read. -/
def Field.node (f : Field) : FieldNode := ⟨f.name, (f.type.wrapped f.nullable).node⟩

/-- A declaration as it is read. -/
def Declaration.node (d : Declaration) : ObjectNode :=
  ⟨d.name, d.fields.map Field.node, d.description⟩

def Declaration.tokens (d : Declaration) : List Token :=
  definitionTokens none "type" d.name (d.fields.map Field.tokens)

/-! ## Spelling -/

theorem Field.spells_render {f : Field} (h : f.Legible) : Spells f.render.toList f.tokens := by
  obtain ⟨n, hn, hname⟩ := h.type
  rw [Field.render, ← printTyped_wrapped]
  exact spells_printTyped h.name (TypeRef.innermost_wrapped hn f.nullable ▸ hname)

theorem Declaration.lexes_text {d : Declaration} (h : d.Legible) :
    Lexes d.text.toList (d.tokens ++ [.ending]) := by
  have hfields : List.Forall₂ (fun text ts => Spells text.toList ts) (d.fields.map Field.render)
      (d.fields.map Field.tokens) := by
    rw [List.forall₂_map_left_iff, List.forall₂_map_right_iff, List.forall₂_same]
    exact fun f hf => Field.spells_render (h.fields f hf)
  have hblank : Stops " ".toList := stops_cons (by decide) []
  have hlist := spells_intercalate (by decide) (by decide) hblank hfields
  have hinner := (hlist.append (Spells.nil.ignore (c := ' ') (by decide)) hblank).ignore
    (c := ' ') (by decide)
  rw [List.append_nil] at hinner
  have hbody := spells_group .braceLeft .braceRight (o := '\x7b') (c := '\x7d') rfl rfl
    (by simpa using h.nonempty) (by decide) hinner
  have hname := Spells.named h.name (hbody.ignore (c := ' ') (by decide)) (stops_cons (by decide) _)
  have hkeyword := Spells.named (n := "type") (by decide)
    (hname.ignore (c := ' ') (by decide)) (stops_cons (by decide) _)
  have htext : d.text.toList = "type".toList ++ ' ' :: (d.name.toList ++ ' ' :: '\x7b' ::
      (' ' :: ((" ".intercalate (d.fields.map Field.render)).toList ++ [' ']) ++ ['\x7d'])) := by
    simp [Declaration.text]
  rw [htext, ← List.append_nil ("type".toList ++ _)]
  exact hkeyword [] [.ending] stops_nil .nil

namespace Sdl

/-! ## Failing steps -/

variable {α β : Type}

/-- The step fails on some tokens. -/
def Fails (p : Read α) (before : List Token) (e : SyntaxError) : Prop :=
  p.run (before.map .ok) = .error e

section Fails

variable {ts us : List Token} {a : α} {p : Read α} {f : α → Read β} {e : SyntaxError}

theorem Fails.bind (h : Fails p ts e) : Fails (p >>= f) ts e := by
  rw [Fails, StateT.run_bind, h]
  rfl

theorem Fails.throw (e : SyntaxError) (ts : List Token) : Fails (throw e : Read α) ts e := rfl

theorem Reads.fails (h : Reads p ts a us) (hf : Fails (f a) us e) : Fails (p >>= f) ts e := by
  rw [Fails, StateT.run_bind, h]
  exact hf

end Fails

section Repetition

variable {ι : Type} {item : Read α} {tokens : ι → List Token} {value : ι → α}
  {opening close : Punctuator} {e : SyntaxError}

/-- Items before the one that fails are read, and it fails whatever stands behind it. -/
structure FailsAt (item : Read α) (tokens : ι → List Token) (value : ι → α) (before : List ι)
    (x : ι) (e : SyntaxError) : Prop where
  reads : ReadsEach item tokens value before
  worded : Worded (tokens x)
  fails : ∀ us, Fails item (tokens x ++ us) e

theorem FailsAt.settled {before : List ι} {x : ι} (h : FailsAt item tokens value before x e)
    (us : List Token) : Settled (before.flatMap tokens ++ (tokens x ++ us)) := by
  cases before with
  | nil => exact h.worded.settled us
  | cons y rest =>
    rw [List.flatMap_cons, List.append_assoc]
    exact (h.reads y List.mem_cons_self).1.settled _

theorem FailsAt.tail {y : ι} {before : List ι} {x : ι}
    (h : FailsAt item tokens value (y :: before) x e) : FailsAt item tokens value before x e where
  reads z hz := h.reads z (List.mem_cons_of_mem _ hz)
  worded := h.worded
  fails := h.fails

theorem fails_itemsUntil {before : List ι} {x : ι} (h : FailsAt item tokens value before x e)
    (us : List Token) {limit : Nat} (hlimit : before.length < limit) :
    Fails (Read.itemsUntil close item limit) (before.flatMap tokens ++ (tokens x ++ us)) e := by
  induction before generalizing limit with
  | nil =>
    cases limit with
    | zero => cases hlimit
    | succ n => exact (Reads.refuse (h.worded.head_ne us close)).fails (h.fails us).bind
  | cons y rest ih =>
    cases limit with
    | zero => cases hlimit
    | succ n =>
      obtain ⟨hworded, hy⟩ := h.reads y List.mem_cons_self
      rw [List.flatMap_cons, List.append_assoc]
      have hmore := ih h.tail (Nat.lt_of_succ_lt_succ hlimit)
      have hitem := hy _ (h.tail.settled us)
      exact (Reads.refuse (hworded.head_ne _ close)).fails (hitem.fails hmore.bind)

theorem fails_many {before : List ι} {x : ι} (h : FailsAt item tokens value before x e)
    (us : List Token) :
    Fails (Read.many close item) (before.flatMap tokens ++ (tokens x ++ us)) e := by
  cases before with
  | nil => exact (h.fails us).bind
  | cons y rest =>
    have hlength := h.tail.reads.length_le
    have hmore : Fails (Read.any close item) (rest.flatMap tokens ++ (tokens x ++ us)) e := by
      refine fails_itemsUntil h.tail us ?_
      rw [List.length_map, List.length_append]
      omega
    rw [List.flatMap_cons, List.append_assoc]
    exact ((h.reads y List.mem_cons_self).2 _ (h.tail.settled us)).fails hmore.bind

/-- **A group fails at the first item that does.** -/
theorem fails_group {before after : List ι} {x : ι} (h : FailsAt item tokens value before x e)
    (us : List Token) :
    Fails (Read.optionalMany opening close item)
      (groupTokens opening close ((before ++ x :: after).map tokens) ++ us) e := by
  have htokens : groupTokens opening close ((before ++ x :: after).map tokens) ++ us =
      .punctuator opening :: (before.flatMap tokens ++ (tokens x ++
        (after.flatMap tokens ++ .punctuator close :: us))) := by
    simp [groupTokens, List.flatMap_def]
  rw [htokens]
  exact (Reads.accept opening _).fails (fails_many h _)

end Repetition

/-- **One list too many is a fault.** -/
theorem fails_typeReference {type : TypeRef} (hnamed : ∃ n, type.innermost? = some n) {levels : Nat}
    (hdepth : levels < type.depth) (nullable : Bool) (us : List Token) :
    Fails (typeReference levels) ((type.wrapped nullable).tokens ++ us) .tooDeep := by
  induction type generalizing levels nullable us with
  | named n => cases hdepth
  | list item itemNullable ih =>
    rw [TypeRef.tokens_wrapped_list]
    cases levels with
    | zero => exact (Reads.accept .bracketLeft _).fails (Fails.throw _ _).bind
    | succ levels =>
      have hitem := ih hnamed (Nat.lt_of_succ_lt_succ hdepth) itemNullable
      exact (Reads.accept .bracketLeft _).fails (hitem _).bind
  | missing =>
    obtain ⟨n, hn⟩ := hnamed
    cases hn

/-! ## Fields -/

variable {f : Field} {us : List Token}

/-- A field without arguments, as what an object type has of it. -/
def outputField (f : Field) : String × OutputField :=
  (f.name, { type := f.type.wrapped f.nullable })

theorem worded_field (f : Field) : Worded f.tokens := ⟨_, _, rfl, by simp⟩

theorem reads_field (h : f.Legible) (hdepth : f.type.depth ≤ maximalDepth) (hus : Settled us) :
    Reads fieldDefinition (f.tokens ++ us) f.node us :=
  reads_fieldDefinition (e := outputField f) ⟨f.type, f.nullable, rfl, h.type, hdepth⟩
    (fun _ ha => absurd ha List.not_mem_nil) hus

theorem fails_field (h : f.Legible) (hdepth : maximalDepth < f.type.depth) (us : List Token) :
    Fails fieldDefinition (f.tokens ++ us) .tooDeep := by
  obtain ⟨n, hn, -⟩ := h.type
  have htype := fails_typeReference ⟨n, hn⟩ hdepth f.nullable us
  have hcolon : (.punctuator .colon :: ((f.type.wrapped f.nullable).tokens ++ us) :
      List Token).head? ≠ some (.punctuator .parenLeft) :=
    head?_cons_ne (by simp) _
  have hcall : Reads (Read.optionalMany .parenLeft .parenRight inputValue) _ [] _ :=
    (Reads.refuse hcolon).bind (Reads.pure _ _)
  exact (reads_description [] none f.name _).fails ((Reads.expectName f.name _).fails
    (hcall.fails ((Reads.expect .colon _).fails htype.bind)))

/-! ## Definitions -/

variable {d : Declaration}

theorem reads_declaration (h : d.Legible) (hshallow : d.Shallow) (us : List Token) :
    Reads definition (d.tokens ++ us) (.object d.node) us := by
  have heach : ReadsEach fieldDefinition Field.tokens Field.node d.fields := fun f hf =>
    ⟨worded_field f, fun us hus => reads_field (h.fields f hf) (hshallow f hf) hus⟩
  have hhead := head?_group .braceLeft .braceRight Field.tokens h.nonempty us
  have hgroup : Reads fieldDefinitions _ _ us :=
    reads_group .braceLeft settled_braceRight heach fun hnil => absurd hnil h.nonempty
  have hobject : Reads (objectType none) (.name d.name :: (groupTokens .braceLeft .braceRight
      (d.fields.map Field.tokens) ++ us)) (.object d.node) us := by
    refine (Reads.expectName d.name _).bind ((reads_interfaces (by simp [hhead])).bind
      ((reads_directives (by simp [hhead])).bind (hgroup.bind ?_)))
    rw [Declaration.node, h.undescribed]
    exact Reads.pure _ _
  exact reads_definition rfl hobject

/-- The fields before the first that is too deep are read. -/
theorem exists_failsAt (h : d.Legible) (hdeep : ¬ d.Shallow) : ∃ before f after,
    d.fields = before ++ f :: after ∧
      FailsAt fieldDefinition Field.tokens Field.node before f .tooDeep := by
  obtain ⟨g, hg, hgdeep⟩ : ∃ g ∈ d.fields, maximalDepth < g.type.depth := by
    simpa [Declaration.Shallow] using hdeep
  obtain ⟨f, hfind⟩ : ∃ f, d.fields.find? (fun f => maximalDepth < f.type.depth) = some f := by
    rw [← Option.isSome_iff_exists, List.find?_isSome]
    exact ⟨g, hg, by simpa using hgdeep⟩
  obtain ⟨hfdeep, before, after, horder, hbefore⟩ := List.find?_eq_some_iff_append.1 hfind
  have hlegible : ∀ f' ∈ before ++ f :: after, f'.Legible := horder ▸ h.fields
  refine ⟨before, f, after, horder, fun f' hf' => ⟨worded_field f', fun us hus => ?_⟩,
    worded_field f, fun us => ?_⟩
  · refine reads_field (hlegible f' (List.mem_append_left _ hf')) ?_ hus
    simpa using hbefore f' hf'
  · exact fails_field (hlegible f (List.mem_append_right _ List.mem_cons_self))
      (by simpa using hfdeep) us

theorem fails_declaration (h : d.Legible) (hdeep : ¬ d.Shallow) (us : List Token) :
    Fails definition (d.tokens ++ us) .tooDeep := by
  obtain ⟨before, f, after, horder, hfails⟩ := exists_failsAt h hdeep
  have hhead := head?_group .braceLeft .braceRight Field.tokens h.nonempty us
  have hgroup : Fails fieldDefinitions (groupTokens .braceLeft .braceRight
      (d.fields.map Field.tokens) ++ us) .tooDeep := by
    rw [horder]
    exact fails_group hfails us
  have hobject : Fails (objectType none) (.name d.name :: (groupTokens .braceLeft .braceRight
      (d.fields.map Field.tokens) ++ us)) .tooDeep :=
    (Reads.expectName d.name _).fails ((reads_interfaces (by simp [hhead])).fails
      ((reads_directives (by simp [hhead])).fails hgroup.bind))
  exact (Reads.current (.name "type") _).fails ((Reads.advance (by simp) _).fails hobject)

end Sdl

/-! ## Texts -/

theorem reads_current (ts : List Token) : ∃ t, Reads Read.current ts t ts := by
  cases ts with
  | nil => exact ⟨.ending, rfl⟩
  | cons t ts => exact ⟨t, Reads.current t ts⟩

/-- A text of one definition is parsed as that definition. -/
theorem parse_of_reads {text : String} {ts : List Token} {x : Sdl.Definition}
    (hlex : Lexes text.toList (ts ++ [.ending]))
    (h : Reads definition (ts ++ [.ending]) x [.ending]) : parse text = .ok [x] := by
  obtain ⟨t, ht⟩ := reads_current (ts ++ [.ending])
  have hread : Reads (Read.current >>= fun _ =>
      definitionsAtMost ((ts ++ [Token.ending]).length + 1)) (ts ++ [.ending]) [x] [.ending] :=
    ht.bind (h.bind ((Reads.current .ending []).bind (Reads.pure _ _)))
  rw [Reads] at hread
  simp only [parse, hlex.lex_eq, List.length_map, hread]

theorem parse_of_fails {text : String} {ts : List Token} {e : SyntaxError}
    (hlex : Lexes text.toList (ts ++ [.ending])) (h : Fails definition (ts ++ [.ending]) e) :
    parse text = .error e := by
  obtain ⟨t, ht⟩ := reads_current (ts ++ [.ending])
  have hfails : Fails (Read.current >>= fun _ =>
      definitionsAtMost ((ts ++ [Token.ending]).length + 1)) (ts ++ [.ending]) e :=
    ht.fails h.bind
  rw [Fails] at hfails
  simp only [parse, hlex.lex_eq, List.length_map, hfails]

theorem Field.convert_node {f : Field} (h : f.Legible) : f.node.convert = f := by
  obtain ⟨n, hn, -⟩ := h.type
  rw [Field.node, FieldNode.convert, Sdl.convert_node ⟨n, hn⟩]

namespace Declaration

variable {d : Declaration}

/-- What a legible declaration is read as stands for it. -/
theorem convert_node (h : d.Legible) : d.node.convert = d := by
  have hfields : (d.fields.map Field.node).map FieldNode.convert = d.fields := by
    rw [List.map_map]
    exact (List.map_congr_left fun f hf => Field.convert_node (h.fields f hf)).trans
      (List.map_id d.fields)
  rw [node, ObjectNode.convert, hfields]

/-- **A declaration that is not too deep is read back as it is.** -/
theorem load_text (h : d.Legible) (hshallow : d.Shallow) (source : String) :
    Document.load source d.text = ⟨[], .ok ⟨source, [d]⟩⟩ := by
  rw [Document.load, parse_of_reads (lexes_text h) (reads_declaration h hshallow _)]
  simp only [Document.ofDefinitions, convert_node h]

theorem load_text_of_deep (h : d.Legible) (hdeep : ¬ d.Shallow) (source : String) :
    (Document.load source d.text).result = .error ⟨source, SyntaxError.tooDeep.message⟩ := by
  rw [Document.load, parse_of_fails (lexes_text h) (fails_declaration h hdeep _)]
  rfl

end Declaration

/-! ## Notation -/

theorem Field.lex_render {f : Field} (h : f.Legible) :
    lex f.render.toList = (f.tokens ++ [Token.ending]).map .ok := by
  have hlexes := Field.spells_render h [] [.ending] stops_nil .nil
  rw [List.append_nil] at hlexes
  exact hlexes.lex_eq

/-- **No two fields are written alike,** however deep their types are. -/
theorem Field.render_injective {f g : Field} (hf : f.Legible) (hg : g.Legible)
    (h : f.render = g.render) : f = g := by
  have hmap : ((f.tokens ++ [Token.ending]).map .ok : List Lexeme) =
      (g.tokens ++ [Token.ending]).map .ok := by
    rw [← Field.lex_render hf, ← Field.lex_render hg, h]
  have htokens : f.tokens = g.tokens :=
    List.append_cancel_right (List.map_injective_iff.2 (fun _ _ => Except.ok.inj) hmap)
  have hname : f.name = g.name := Token.name.inj (List.cons.inj htokens).1
  have htype : (f.type.wrapped f.nullable).tokens = (g.type.wrapped g.nullable).tokens :=
    (List.cons.inj (List.cons.inj htokens).2).2
  -- A reader with levels enough for both reads one type from the tokens of both.
  have hread : ∀ {f : Field}, f.Legible → ∀ levels, f.type.depth ≤ levels →
      Reads (typeReference levels) ((f.type.wrapped f.nullable).tokens ++ [])
        (f.type.wrapped f.nullable).node [] := by
    intro f hf levels hdepth
    obtain ⟨n, hn, -⟩ := hf.type
    exact reads_typeReference ⟨n, hn⟩ hdepth f.nullable (by simp)
  have hreadf := hread hf _ (Nat.le_max_left f.type.depth g.type.depth)
  have hreadg := hread hg _ (Nat.le_max_right f.type.depth g.type.depth)
  rw [htype, Reads] at hreadf
  have hnode : (f.type.wrapped f.nullable).node = (g.type.wrapped g.nullable).node :=
    (Prod.mk.inj (Except.ok.inj (hreadf.symm.trans hreadg))).1
  calc f = f.node.convert := (Field.convert_node hf).symm
    _ = g.node.convert := by rw [Field.node, Field.node, hname, hnode]
    _ = g := Field.convert_node hg

theorem fields_eq_of_render_eq {l l' : List Field} (hl : ∀ f ∈ l, f.Legible)
    (hl' : ∀ f ∈ l', f.Legible) (h : l.map Field.render = l'.map Field.render) : l = l' := by
  induction l generalizing l' with
  | nil => exact (List.map_eq_nil_iff.1 h.symm).symm
  | cons f rest ih =>
    cases l' with
    | nil => cases h
    | cons g rest' =>
      obtain ⟨hfirst, hrest⟩ := List.cons.inj h
      obtain ⟨hf, hl⟩ := List.forall_mem_cons.1 hl
      obtain ⟨hg, hl'⟩ := List.forall_mem_cons.1 hl'
      rw [Field.render_injective hf hg hfirst, ih hl hl' hrest]

/-! ## Round trip -/

/-- **Declarations are read back from their rendered fields.** A legible declaration whose lists
nest no deeper than a reader follows is loaded from its text, alone and as it is; one whose lists
nest deeper is refused for that. Declarations with the same rendered fields have the same shape,
whatever their depth. -/
theorem Declaration.reads_back {d : Declaration} (h : d.Legible) (source : String) :
    ((∀ f ∈ d.fields, f.type.depth ≤ maximalDepth) →
      Document.load source d.text = ⟨[], .ok ⟨source, [d]⟩⟩) ∧
    ((∃ f ∈ d.fields, maximalDepth < f.type.depth) →
      (Document.load source d.text).result =
        .error ⟨source, "Syntax Error: Document is nested too deeply. Parsing aborted."⟩) ∧
    ∀ d' : Declaration, d'.Legible → d'.fields.map Field.render = d.fields.map Field.render →
      d'.shape = d.shape := by
  refine ⟨fun hshallow => load_text h hshallow source, ?_, fun d' h' hfields => ?_⟩
  · rintro ⟨f, hf, hdeep⟩
    exact load_text_of_deep h (fun hshallow => Nat.not_lt.2 (hshallow f hf) hdeep) source
  · exact fields_eq_of_render_eq h'.fields h.fields hfields

/-- Every level of the lists has a mark of its own, and the names are keywords. -/
def keywordType : Declaration :=
  { name := "type",
    fields :=
      [⟨"input", .list (.list (.named "enum") false) true, false⟩, ⟨"on", .named "ID", true⟩] }

theorem legible_keywordType : keywordType.Legible := by
  refine ⟨by decide, rfl, by decide, ?_⟩
  rw [keywordType, List.forall_mem_cons, List.forall_mem_singleton]
  exact ⟨⟨by decide, "enum", rfl, by decide⟩,
    by decide, "ID", rfl, by decide⟩

/-- Lists nested so many levels deep. -/
def nestedLists : Nat → TypeRef
  | 0 => .named "X"
  | n + 1 => .list (nestedLists n) true

theorem innermost?_nestedLists (n : Nat) : (nestedLists n).innermost? = some "X" := by
  induction n with
  | zero => rfl
  | succ n ih => exact ih

theorem depth_nestedLists (n : Nat) : (nestedLists n).depth = n := by
  induction n with
  | zero => rfl
  | succ n ih => exact congrArg (· + 1) ih

/-- One list deeper than a reader follows. -/
def deepType : Declaration := { name := "Deep", fields := [⟨"field", nestedLists 201, true⟩] }

theorem legible_deepType : deepType.Legible := by
  refine ⟨by decide, rfl, List.cons_ne_nil _ _, ?_⟩
  rw [deepType, List.forall_mem_singleton]
  exact ⟨by decide, "X", innermost?_nestedLists 201, by decide⟩

theorem exists_deep_field : ∃ f ∈ deepType.fields, maximalDepth < f.type.depth := by
  refine ⟨_, List.mem_singleton_self _, ?_⟩
  rw [depth_nestedLists]
  decide

/-- Keywords are read back as names, and a list too many is refused. -/
theorem keywordType_reads_back :
    Document.load "a" keywordType.text = ⟨[], .ok ⟨"a", [keywordType]⟩⟩ ∧
    (Document.load "a" deepType.text).result =
      .error ⟨"a", "Syntax Error: Document is nested too deeply. Parsing aborted."⟩ :=
  ⟨(Declaration.reads_back legible_keywordType "a").1 (by decide),
    (Declaration.reads_back legible_deepType "a").2.1 exists_deep_field⟩

/-- Not every legible declaration is read back from its text. -/
theorem deepType_not_read_back :
    ¬ ∀ d : Declaration, d.Legible → ∀ source,
      Document.load source d.text = ⟨[], .ok ⟨source, [d]⟩⟩ := by
  intro h
  obtain ⟨f, hf, hdeep⟩ := exists_deep_field
  have herror := Declaration.load_text_of_deep legible_deepType
    (fun hshallow => Nat.not_lt.2 (hshallow f hf) hdeep) "a"
  rw [h deepType legible_deepType "a"] at herror
  cases herror

end CrudSchema
