import CrudSchema.Proofs.Spelling
import CrudSchema.Sdl.Document

/-!
# A written schema is read back

**Reading** (`Reads`). A step that succeeds on some tokens with a value, and leaves the tokens
behind those it has gone past. Such facts compose along the steps of the grammar (`Reads.bind`).

**What may follow** (`Settled`). A type, a field or an argument would go on with a mark, a default
value or a directive; anything else ends it.

**Conversion** (`convert_node`). The reference a type was written from, and its mark, are what the
type that is read stands for.

Main result: `Schema.parse_print`, the written text of a readable schema is read as the definitions
of its types, each object type with its name and its fields.
-/

namespace CrudSchema

open Schema Sdl

/-- The type as it is read. -/
def WrappedType.node : WrappedType → TypeNode
  | .named n => .named n
  | .list item => .list item.node
  | .nonNull type => .nonNull type.node

namespace Sdl

variable {α β : Type}

/-! ## Steps -/

/-- The step succeeds on some tokens, and leaves some of them. -/
def Reads (p : Read α) (before : List Token) (a : α) (after : List Token) : Prop :=
  p.run (before.map .ok) = .ok (a, after.map .ok)

namespace Reads

variable {ts us vs : List Token} {t : Token} {a : α} {b : β} {p : Read α} {f : α → Read β}

theorem bind (h : Reads p ts a us) (hf : Reads (f a) us b vs) : Reads (p >>= f) ts b vs := by
  rw [Reads, StateT.run_bind, h]
  exact hf

theorem pure (a : α) (ts : List Token) : Reads (Pure.pure a) ts a ts := rfl

theorem get (ts : List Token) : Reads MonadState.get ts (ts.map .ok) ts := rfl

theorem current (t : Token) (ts : List Token) : Reads Read.current (t :: ts) t (t :: ts) := rfl

theorem next (t u : Token) (ts : List Token) :
    Reads Read.next (t :: u :: ts) u (t :: u :: ts) := rfl

theorem advance (ht : t ≠ .ending) (ts : List Token) : Reads Read.advance (t :: ts) () ts := by
  cases t with
  | ending => exact absurd rfl ht
  | _ => cases ts <;> rfl

theorem expect (q : Punctuator) (ts : List Token) :
    Reads (Read.expect q) (.punctuator q :: ts) () ts := by
  refine (current _ _).bind ?_
  rw [if_pos rfl]
  exact advance (by simp) ts

theorem accept (q : Punctuator) (ts : List Token) :
    Reads (Read.accept q) (.punctuator q :: ts) true ts := by
  refine (current _ _).bind ?_
  rw [if_pos rfl]
  exact (advance (by simp) ts).bind (pure _ _)

/-- What does not begin with the punctuator stays as it is. -/
theorem refuse {q : Punctuator} (h : ts.head? ≠ some (.punctuator q)) :
    Reads (Read.accept q) ts false ts := by
  cases ts with
  | nil => rfl
  | cons t ts =>
    refine (current _ _).bind ?_
    rw [if_neg fun heq => h (congrArg some heq)]
    exact pure _ _

theorem expectName (n : String) (ts : List Token) : Reads Read.expectName (.name n :: ts) n ts :=
  (current _ _).bind ((advance (by simp) ts).bind (pure _ _))

theorem refuseKeyword {word : String} (h : ts.head? ≠ some (.name word)) :
    Reads (Read.acceptKeyword word) ts false ts := by
  cases ts with
  | nil => rfl
  | cons t ts =>
    refine (current _ _).bind ?_
    rw [if_neg fun heq => h (congrArg some heq)]
    exact pure _ _

end Reads

/-! ## What may follow -/

/-- A token in front is not another one. -/
theorem head?_cons_ne {t t' : Token} (h : t ≠ t') (ts : List Token) :
    (t :: ts).head? ≠ some t' :=
  fun heq => h (Option.some.inj heq)

/-- No punctuator is in front that a type, a field or an argument would go on with. -/
def Settled (ts : List Token) : Prop :=
  ∀ q ∈ [Punctuator.bang, .at, .equals], ts.head? ≠ some (.punctuator q)

/-- A token that is no punctuator is in front. -/
def Worded (ts : List Token) : Prop := ∃ t rest, ts = t :: rest ∧ ∀ q, t ≠ .punctuator q

theorem Worded.head_ne {ts : List Token} (h : Worded ts) (us : List Token) (q : Punctuator) :
    (ts ++ us).head? ≠ some (.punctuator q) := by
  obtain ⟨t, rest, rfl, ht⟩ := h
  exact head?_cons_ne (ht q) _

theorem Worded.settled {ts : List Token} (h : Worded ts) (us : List Token) : Settled (ts ++ us) :=
  fun q _ => h.head_ne us q

/-! ## Repetition -/

section Repetition

variable {ι : Type} {item : Read α} {tokens : ι → List Token} {value : ι → α}
  {opening close : Punctuator}

/-- The items of a list are each read from their tokens. -/
def ReadsEach (item : Read α) (tokens : ι → List Token) (value : ι → α) (l : List ι) : Prop :=
  ∀ x ∈ l, Worded (tokens x) ∧ ∀ us, Settled us → Reads item (tokens x ++ us) (value x) us

/-- What stands behind an item ends it: the next item or the closing punctuator. -/
theorem ReadsEach.settled {l : List ι} (h : ReadsEach item tokens value l)
    (hclose : ∀ us, Settled (.punctuator close :: us)) (us : List Token) :
    Settled (l.flatMap tokens ++ .punctuator close :: us) := by
  cases l with
  | nil => exact hclose us
  | cons x rest =>
    rw [List.flatMap_cons, List.append_assoc]
    exact (h x List.mem_cons_self).1.settled _

theorem reads_itemsUntil (hclose : ∀ us, Settled (.punctuator close :: us)) {l : List ι}
    (h : ReadsEach item tokens value l) (us : List Token) {limit : Nat}
    (hlimit : l.length < limit) :
    Reads (Read.itemsUntil close item limit) (l.flatMap tokens ++ .punctuator close :: us)
      (l.map value) us := by
  induction l generalizing limit with
  | nil =>
    cases limit with
    | zero => cases hlimit
    | succ n => exact (Reads.accept close us).bind (Reads.pure _ _)
  | cons x rest ih =>
    cases limit with
    | zero => cases hlimit
    | succ n =>
      obtain ⟨⟨hworded, hx⟩, hrest⟩ := List.forall_mem_cons.1 h
      rw [List.flatMap_cons, List.append_assoc]
      have hmore := ih hrest (Nat.lt_of_succ_lt_succ hlimit)
      have hitem := hx _ (ReadsEach.settled hrest hclose us)
      exact (Reads.refuse (hworded.head_ne _ close)).bind
        (hitem.bind (hmore.bind (Reads.pure _ _)))

theorem ReadsEach.length_le {l : List ι} (h : ReadsEach item tokens value l) :
    l.length ≤ (l.flatMap tokens).length := by
  induction l with
  | nil => exact Nat.zero_le _
  | cons x rest ih =>
    obtain ⟨⟨⟨t, ts, hx, -⟩, -⟩, hrest⟩ := List.forall_mem_cons.1 h
    have hrest := ih hrest
    rw [List.flatMap_cons, List.length_append, hx, List.length_cons, List.length_cons]
    omega

theorem reads_many (hclose : ∀ us, Settled (.punctuator close :: us)) {x : ι} {l : List ι}
    (h : ReadsEach item tokens value (x :: l)) (us : List Token) :
    Reads (Read.many close item) ((x :: l).flatMap tokens ++ .punctuator close :: us)
      ((x :: l).map value) us := by
  obtain ⟨⟨-, hx⟩, hrest⟩ := List.forall_mem_cons.1 h
  have hlength := ReadsEach.length_le hrest
  have hmore : Reads (Read.any close item) (l.flatMap tokens ++ .punctuator close :: us)
      (l.map value) us := by
    refine reads_itemsUntil hclose hrest us ?_
    rw [List.length_map, List.length_append]
    omega
  rw [List.flatMap_cons, List.append_assoc]
  exact (hx _ (ReadsEach.settled hrest hclose us)).bind (hmore.bind (Reads.pure _ _))

/-- **A group is read as its items,** and a group that is left out as none. -/
theorem reads_group (opening : Punctuator) (hclose : ∀ us, Settled (.punctuator close :: us))
    {l : List ι} (h : ReadsEach item tokens value l) {us : List Token}
    (hus : l = [] → us.head? ≠ some (.punctuator opening)) :
    Reads (Read.optionalMany opening close item) (groupTokens opening close (l.map tokens) ++ us)
      (l.map value) us := by
  cases l with
  | nil => exact (Reads.refuse (hus rfl)).bind (Reads.pure _ _)
  | cons x rest =>
    have hmany := reads_many hclose h us
    have htokens : groupTokens opening close ((x :: rest).map tokens) ++ us =
        .punctuator opening :: ((x :: rest).flatMap tokens ++ .punctuator close :: us) := by
      simp [groupTokens, List.flatMap_def]
    rw [htokens]
    exact (Reads.accept opening _).bind hmany

end Repetition

/-! ## Types -/

theorem Settled.head_ne {ts : List Token} (h : Settled ts) {q : Punctuator}
    (hq : q ∈ [Punctuator.bang, .at, .equals]) : ts.head? ≠ some (.punctuator q) := h q hq

theorem settled_cons {t : Token} (ht : ∀ q ∈ [Punctuator.bang, .at, .equals], t ≠ .punctuator q)
    (ts : List Token) : Settled (t :: ts) :=
  fun q hq => head?_cons_ne (ht q hq) ts

theorem reads_finish {us : List Token} (type : WrappedType) (nullable : Bool)
    (hus : us.head? ≠ some (.punctuator .bang)) :
    Reads (typeReference.finish type.node) (WrappedType.markTokens nullable ++ us)
      (WrappedType.mark nullable type).node us := by
  cases nullable with
  | true => exact (Reads.refuse hus).bind (Reads.pure _ _)
  | false => exact (Reads.accept .bang us).bind (Reads.pure _ _)

/-- **A type reference is read with the mark of every list level.** -/
theorem reads_typeReference {type : TypeRef} (hnamed : ∃ n, type.innermost? = some n) {levels : Nat}
    (hdepth : type.depth ≤ levels) (nullable : Bool) {us : List Token}
    (hus : us.head? ≠ some (.punctuator .bang)) :
    Reads (typeReference levels) ((type.wrapped nullable).tokens ++ us)
      (type.wrapped nullable).node us := by
  induction type generalizing levels nullable us with
  | named n =>
    have hmark := reads_finish (.named n) nullable hus
    rw [TypeRef.wrapped, WrappedType.tokens_mark, List.append_assoc]
    have hbracket : (.name n :: (WrappedType.markTokens nullable ++ us) : List Token).head? ≠
        some (.punctuator .bracketLeft) :=
      head?_cons_ne (by simp) _
    cases levels with
    | zero => exact (Reads.refuse hbracket).bind ((Reads.expectName n _).bind hmark)
    | succ levels => exact (Reads.refuse hbracket).bind ((Reads.expectName n _).bind hmark)
  | list item itemNullable ih =>
    cases levels with
    | zero => cases hdepth
    | succ levels =>
      have hbracket : (.punctuator .bracketRight :: (WrappedType.markTokens nullable ++ us) :
          List Token).head? ≠ some (.punctuator .bang) :=
        head?_cons_ne (by simp) _
      have hitem := ih hnamed (Nat.le_of_succ_le_succ hdepth) itemNullable hbracket
      have hmark := reads_finish (.list (item.wrapped itemNullable)) nullable hus
      rw [TypeRef.tokens_wrapped_list]
      exact (Reads.accept .bracketLeft _).bind
        (hitem.bind ((Reads.expect .bracketRight _).bind hmark))
  | missing =>
    obtain ⟨n, hn⟩ := hnamed
    cases hn

/-- A type with so many levels of lists can be read, whatever ends it. -/
theorem reads_readable {w : WrappedType} (h : w.Readable) {us : List Token} (hus : Settled us) :
    Reads (typeReference maximalDepth) (w.tokens ++ us) w.node us := by
  obtain ⟨type, nullable, rfl, hreadable⟩ := h
  obtain ⟨n, hn, -⟩ := hreadable.named
  exact reads_typeReference ⟨n, hn⟩ hreadable.depth nullable (hus.head_ne (by simp))

/-! ## Conversion -/

theorem convert_mark {w : WrappedType} {type : TypeRef} (h : w.node.convert = (type, true))
    (nullable : Bool) : (WrappedType.mark nullable w).node.convert = (type, nullable) := by
  cases nullable with
  | true => exact h
  | false =>
    show (w.node.convert.1, false) = _
    rw [h]

theorem convert_unmarked {type : TypeRef} (hnamed : ∃ n, type.innermost? = some n) :
    type.unmarked.node.convert = (type, true) := by
  induction type with
  | named n => rfl
  | list item itemNullable ih =>
    rw [TypeRef.unmarked, WrappedType.node, TypeNode.convert, convert_mark (ih hnamed)]
  | missing =>
    obtain ⟨n, hn⟩ := hnamed
    cases hn

/-- **What is read stands for the reference that was written, with its mark.** -/
theorem convert_node {type : TypeRef} (hnamed : ∃ n, type.innermost? = some n) (nullable : Bool) :
    (type.wrapped nullable).node.convert = (type, nullable) :=
  convert_mark (convert_unmarked hnamed) nullable

/-! ## What is left out -/

theorem reads_directives {us : List Token} (hus : us.head? ≠ some (.punctuator .at)) :
    Reads constantDirectives us false us := by
  have hnone : Reads (directivesAtMost true maximalDepth (us.length + 1)) us () us :=
    (Reads.refuse hus).bind (Reads.pure _ _)
  refine (Reads.get us).bind ?_
  rw [List.length_map]
  refine hnone.bind ((Reads.get us).bind ?_)
  rw [List.length_map, decide_eq_false (Nat.lt_irrefl _)]
  exact Reads.pure _ _

theorem reads_defaultValue {us : List Token} (hus : us.head? ≠ some (.punctuator .equals)) :
    Reads defaultValue us () us :=
  (Reads.refuse hus).bind (Reads.pure _ _)

theorem reads_interfaces {us : List Token} (hus : us.head? ≠ some (.name "implements")) :
    Reads interfaces us false us :=
  (Reads.refuseKeyword hus).bind (Reads.pure _ _)

theorem descriptionToken_cases (indentation : List Char) (s : String) :
    ∃ v, descriptionToken indentation s = .string v ∨
      descriptionToken indentation s = .blockString v := by
  unfold descriptionToken
  split
  · exact ⟨_, .inr rfl⟩
  · exact ⟨_, .inl rfl⟩

/-- What a reader takes the description to be. -/
def readDescription (indentation : List Char) (d : Option String) : Option String :=
  d.bind fun s => (descriptionToken indentation s).value?

theorem reads_description (indentation : List Char) (d : Option String) (n : String)
    (us : List Token) : Reads description (descriptionTokens indentation d ++ .name n :: us)
      (readDescription indentation d) (.name n :: us) := by
  cases d with
  | none => exact (Reads.current _ _).bind (Reads.pure _ _)
  | some s =>
    obtain ⟨v, hv | hv⟩ := descriptionToken_cases indentation s
    · rw [descriptionTokens, readDescription, Option.bind_some, hv]
      exact (Reads.current _ _).bind ((Reads.advance (by simp) _).bind (Reads.pure _ _))
    · rw [descriptionTokens, readDescription, Option.bind_some, hv]
      exact (Reads.current _ _).bind ((Reads.advance (by simp) _).bind (Reads.pure _ _))

/-- Members begin with their description or with their name. -/
theorem worded_description (indentation : List Char) (d : Option String) (n : String)
    (ts : List Token) : Worded (descriptionTokens indentation d ++ .name n :: ts) := by
  cases d with
  | none => exact ⟨_, _, rfl, by simp⟩
  | some s =>
    refine ⟨_, _, rfl, ?_⟩
    obtain ⟨v, hv | hv⟩ := descriptionToken_cases indentation s <;> simp [hv]

/-! ## Members -/

variable {us : List Token}

theorem reads_inputValue (indentation : List Char) (d : Option String) {name : String}
    {type : WrappedType} (htype : type.Readable) (hus : Settled us) :
    Reads inputValue (descriptionTokens indentation d ++ typedTokens name type ++ us) () us := by
  have hread := reads_readable htype hus
  have hend : Reads (do defaultValue; let _ ← constantDirectives) us () us :=
    (reads_defaultValue (hus.head_ne (by simp))).bind
      ((reads_directives (hus.head_ne (by simp))).bind (Reads.pure _ _))
  rw [List.append_assoc]
  exact (reads_description indentation d name _).bind ((Reads.expectName name _).bind
    ((Reads.expect .colon _).bind (hread.bind hend)))

theorem settled_parenRight (us : List Token) : Settled (.punctuator .parenRight :: us) :=
  settled_cons (by decide) us

theorem settled_braceRight (us : List Token) : Settled (.punctuator .braceRight :: us) :=
  settled_cons (by decide) us

theorem readsEach_arguments {arguments : NameMap WrappedType} (h : ReadableArguments arguments) :
    ReadsEach inputValue argumentTokens (fun _ => ()) arguments.entries := by
  intro a ha
  obtain ⟨-, htype⟩ := h a ha
  refine ⟨worded_description [] none a.1 _, fun us hus => ?_⟩
  exact reads_inputValue [] none htype hus

/-- A field of an object as it is written. -/
def fieldOf (e : String × OutputField) : FieldNode := ⟨e.1, e.2.type.node⟩

theorem reads_fieldDefinition {e : String × OutputField} (htype : e.2.type.Readable)
    (harguments : ReadableArguments e.2.arguments) (hus : Settled us) :
    Reads fieldDefinition (fieldTokens e ++ us) (fieldOf e) us := by
  have hread := reads_readable htype hus
  have hcolon : (.punctuator .colon :: (e.2.type.tokens ++ us) :
      List Token).head? ≠ some (.punctuator .parenLeft) :=
    head?_cons_ne (by simp) _
  have hcall := reads_group .parenLeft settled_parenRight (readsEach_arguments harguments)
    fun _ => hcolon
  have hdirectives := reads_directives (hus.head_ne (q := .at) (by simp))
  have htokens : fieldTokens e ++ us = descriptionTokens indent e.2.description ++ .name e.1 ::
      (groupTokens .parenLeft .parenRight (e.2.arguments.entries.map argumentTokens) ++
        .punctuator .colon :: (e.2.type.tokens ++ us)) := by
    simp [fieldTokens]
  rw [htokens]
  exact (reads_description indent _ e.1 _).bind ((Reads.expectName e.1 _).bind (hcall.bind
    ((Reads.expect .colon _).bind (hread.bind (hdirectives.bind (Reads.pure _ _))))))

theorem reads_enumValue {v : String} (hv : v ∉ ["true", "false", "null"]) (hus : Settled us) :
    Reads enumValue (.name v :: us) () us := by
  have hnone := reads_description [] none v us
  have hreserved : ¬ ((Token.name v).value?.any fun v => v = "true" || v = "false" || v = "null") =
      true := by
    simpa [Token.value?, and_assoc] using hv
  have hend : Reads (do let _ ← Read.expectName; let _ ← constantDirectives)
      (.name v :: us) () us :=
    (Reads.expectName v us).bind
      ((reads_directives (hus.head_ne (q := .at) (by simp))).bind (Reads.pure _ _))
  refine hnone.bind ((Reads.current _ _).bind ?_)
  rw [if_neg hreserved]
  exact hend

/-! ## Definitions -/

/-- The definition that the text of a type is read as. -/
def definitionOf : NamedType → Definition
  | .scalar kind => .other .scalarType (some kind.name)
  | .object o =>
    .object ⟨o.name, o.fields.entries.map fieldOf, readDescription [] o.description⟩
  | .enum e => .other .enumType (some e.name)
  | .input i => .other .inputObjectType (some i.name)

theorem head?_group (opening close : Punctuator) {ι : Type} (tokens : ι → List Token) {l : List ι}
    (hne : l ≠ []) (us : List Token) :
    (groupTokens opening close (l.map tokens) ++ us).head? = some (.punctuator opening) := by
  rw [groupTokens, if_neg (by simpa using hne)]
  rfl

theorem reads_objectType {o : ObjectType} (h : (NamedType.object o).Readable)
    (d : Option String) (us : List Token) :
    Reads (objectType d) (.name o.name :: (groupTokens .braceLeft .braceRight
      (o.fields.entries.map fieldTokens) ++ us)) (.object ⟨o.name, o.fields.entries.map fieldOf, d⟩)
      us := by
  obtain ⟨-, hne, hfields⟩ := h
  have heach : ReadsEach fieldDefinition fieldTokens fieldOf o.fields.entries := by
    intro e he
    obtain ⟨-, htype, harguments⟩ := hfields e he
    exact ⟨worded_description _ _ _ _, fun us hus => reads_fieldDefinition htype harguments hus⟩
  have hhead := head?_group .braceLeft .braceRight fieldTokens hne us
  have hgroup : Reads fieldDefinitions _ _ us :=
    reads_group .braceLeft settled_braceRight heach (fun hnil => absurd hnil hne)
  exact (Reads.expectName o.name _).bind ((reads_interfaces (by simp [hhead])).bind
    ((reads_directives (by simp [hhead])).bind (hgroup.bind (Reads.pure _ _))))

theorem reads_enumType {e : EnumType} (h : (NamedType.enum e).Readable) (us : List Token) :
    Reads enumType (.name e.name :: (groupTokens .braceLeft .braceRight
      (e.values.map fun v => [.name v]) ++ us)) (definitionOf (.enum e)) us := by
  obtain ⟨-, hne, hvalues⟩ := h
  have heach : ReadsEach enumValue (fun v => [.name v]) (fun _ => ()) e.values := by
    intro v hv
    exact ⟨⟨_, _, rfl, by simp⟩, fun us hus => reads_enumValue (hvalues v hv).2 hus⟩
  have hhead := head?_group .braceLeft .braceRight (fun v => [.name v]) hne us
  have hgroup : Reads enumValues _ _ us :=
    reads_group .braceLeft settled_braceRight heach (fun hnil => absurd hnil hne)
  exact (Reads.expectName e.name _).bind ((reads_directives (by simp [hhead])).bind
    (hgroup.bind (Reads.pure _ _)))

theorem reads_inputObjectType {i : InputType} (h : (NamedType.input i).Readable)
    (us : List Token) :
    Reads inputObjectType (.name i.name :: (groupTokens .braceLeft .braceRight
      (i.fields.entries.map inputFieldTokens) ++ us)) (definitionOf (.input i)) us := by
  obtain ⟨-, hne, hfields⟩ := h
  have heach : ReadsEach inputValue inputFieldTokens (fun _ => ()) i.fields.entries := by
    intro e he
    exact ⟨worded_description _ _ _ _, fun us hus => reads_inputValue _ _ (hfields e he).2 hus⟩
  have hhead := head?_group .braceLeft .braceRight inputFieldTokens hne us
  have hgroup : Reads inputValues _ _ us :=
    reads_group .braceLeft settled_braceRight heach (fun hnil => absurd hnil hne)
  exact (Reads.expectName i.name _).bind ((reads_directives (by simp [hhead])).bind
    (hgroup.bind (Reads.pure _ _)))

/-- The description and the keyword lead to the rest of the definition. -/
theorem reads_definition {d : Option String} {keyword name : String} {items : List (List Token)}
    {p : Read Definition} {x : Definition}
    (hp : definitionOf? (readDescription [] d) keyword = some p)
    (h : Reads p (.name name :: (groupTokens .braceLeft .braceRight items ++ us)) x us) :
    Reads definition (definitionTokens d keyword name items ++ us) x us := by
  have hkeyword := Reads.advance (t := .name keyword) (by simp)
    (.name name :: (groupTokens .braceLeft .braceRight items ++ us))
  cases d with
  | none =>
    have hp : definitionOf? none keyword = some p := hp
    refine (Reads.current (.name keyword) _).bind ?_
    simp only [hp]
    exact hkeyword.bind h
  | some s =>
    obtain ⟨v, hv | hv⟩ := descriptionToken_cases [] s
    · rw [readDescription, Option.bind_some, hv] at hp
      have hp : definitionOf? (some v) keyword = some p := hp
      rw [definitionTokens, descriptionTokens, hv]
      refine (Reads.current (.string v) _).bind ((Reads.next _ (.name keyword) _).bind ?_)
      simp only [hp]
      exact (Reads.advance (by simp) _).bind (hkeyword.bind h)
    · rw [readDescription, Option.bind_some, hv] at hp
      have hp : definitionOf? (some v) keyword = some p := hp
      rw [definitionTokens, descriptionTokens, hv]
      refine (Reads.current (.blockString v) _).bind ((Reads.next _ (.name keyword) _).bind ?_)
      simp only [hp]
      exact (Reads.advance (by simp) _).bind (hkeyword.bind h)

theorem reads_tokens {t : NamedType} (h : t.Readable) (hwritten : isScalar t = false)
    (us : List Token) : Reads definition (t.tokens ++ us) (definitionOf t) us := by
  cases t with
  | scalar kind => cases hwritten
  | object o => exact reads_definition rfl (reads_objectType h _ us)
  | enum e => exact reads_definition rfl (reads_enumType h us)
  | input i => exact reads_definition rfl (reads_inputObjectType h us)

/-! ## Texts -/

theorem exists_tokens_eq_cons {t : NamedType} (hwritten : isScalar t = false) :
    ∃ x rest, t.tokens = x :: rest ∧ x ≠ .ending := by
  have hdefinition : ∀ d keyword name items,
      ∃ x rest, definitionTokens d keyword name items = x :: rest ∧ x ≠ .ending := by
    intro d keyword name items
    cases d with
    | none => exact ⟨_, _, rfl, by simp⟩
    | some s =>
      refine ⟨_, _, rfl, ?_⟩
      obtain ⟨v, hv | hv⟩ := descriptionToken_cases [] s <;> simp [hv]
  cases t with
  | scalar kind => cases hwritten
  | object o => exact hdefinition _ _ _ _
  | enum e => exact hdefinition _ _ _ _
  | input i => exact hdefinition _ _ _ _

theorem length_le_tokens {l : List NamedType} (h : ∀ t ∈ l, isScalar t = false) :
    l.length ≤ (l.flatMap NamedType.tokens).length := by
  induction l with
  | nil => exact Nat.zero_le _
  | cons t rest ih =>
    obtain ⟨ht, hrest⟩ := List.forall_mem_cons.1 h
    obtain ⟨x, more, htokens, -⟩ := exists_tokens_eq_cons ht
    have hlength := ih hrest
    rw [List.flatMap_cons, List.length_append, htokens, List.length_cons, List.length_cons]
    omega

theorem reads_definitions {l : List NamedType} (hne : l ≠ []) (h : ∀ t ∈ l, t.Readable)
    (hwritten : ∀ t ∈ l, isScalar t = false) {limit : Nat} (hlimit : l.length ≤ limit) :
    Reads (definitionsAtMost limit) (l.flatMap NamedType.tokens ++ [.ending])
      (l.map definitionOf) [.ending] := by
  induction l generalizing limit with
  | nil => exact absurd rfl hne
  | cons t rest ih =>
    obtain ⟨ht, hrest⟩ := List.forall_mem_cons.1 h
    obtain ⟨hscalar, hothers⟩ := List.forall_mem_cons.1 hwritten
    cases limit with
    | zero => cases hlimit
    | succ n =>
      have hfirst := reads_tokens ht hscalar (rest.flatMap NamedType.tokens ++ [.ending])
      rw [List.flatMap_cons, List.append_assoc]
      cases rest with
      | nil => exact hfirst.bind ((Reads.current _ _).bind (Reads.pure _ _))
      | cons u more =>
        have hmore := ih (List.cons_ne_nil u more) hrest hothers (Nat.le_of_succ_le_succ hlimit)
        obtain ⟨x, us, hx, hending⟩ := exists_tokens_eq_cons (hothers u List.mem_cons_self)
        rw [List.flatMap_cons, hx] at hfirst hmore ⊢
        refine hfirst.bind ((Reads.current x _).bind ?_)
        rw [if_neg hending]
        exact hmore.bind (Reads.pure _ _)

/-- **The written text of a readable schema is read as the definitions of its types.** -/
theorem parse_print {s : Schema} (h : s.Readable) {header : String} (hheader : IsHeader header) :
    parse (s.print header) = .ok (s.written.map definitionOf) := by
  have htypes : ∀ t ∈ s.written, t.Readable := fun t ht => h.types t (List.mem_of_mem_filter ht)
  have hscalars : ∀ t ∈ s.written, isScalar t = false := by
    intro t ht
    simpa using (List.mem_filter.1 ht).2
  have hlex := (lexes_print h hheader).lex_eq
  have hlength := length_le_tokens hscalars
  have hread : Reads (Read.current >>= fun _ => definitionsAtMost
      ((s.written.flatMap NamedType.tokens ++ [Token.ending]).length + 1))
      (s.written.flatMap NamedType.tokens ++ [.ending]) (s.written.map definitionOf) [.ending] := by
    have hlimit : s.written.length ≤
        (s.written.flatMap NamedType.tokens ++ [Token.ending]).length + 1 := by
      rw [List.length_append]
      omega
    have hdefinitions := reads_definitions h.nonempty htypes hscalars hlimit
    generalize s.written.flatMap NamedType.tokens ++ [Token.ending] = ts at hdefinitions ⊢
    cases ts with
    | nil => exact hdefinitions
    | cons x ts => exact (Reads.current x ts).bind hdefinitions
  rw [Reads] at hread
  simp only [parse, hlex, List.length_map, hread]

end Sdl

end CrudSchema
