import CrudSchema.Generation
import CrudSchema.Proofs.Classification
import CrudSchema.Proofs.Registry

/-!
# How deep read types are

A reader follows lists only so far, and therefore never gives a type that another reader could not
follow. That holds of every field of every declaration of a text, and so of every merged map.

**Results** (`Yields`). What holds of every value a step can give, whatever it reads. Such facts
compose along the steps of the grammar.
-/

namespace CrudSchema

open Sdl

/-- No field has a type that is too deep for a reader. -/
def Declaration.Shallow (d : Declaration) : Prop := ∀ f ∈ d.fields, f.type.depth ≤ maximalDepth

namespace Sdl

variable {α β : Type}

/-! ## Results of steps -/

/-- Whatever the step reads, its value has the property. -/
def Yields (p : Read α) (P : α → Prop) : Prop :=
  ∀ before a after, p.run before = .ok (a, after) → P a

namespace Yields

variable {p : Read α} {f : α → Read β} {P : α → Prop} {Q : β → Prop}

theorem bind (hp : Yields p P) (hf : ∀ a, P a → Yields (f a) Q) : Yields (p >>= f) Q := by
  intro before b after h
  rw [StateT.run_bind] at h
  cases hrun : p.run before with
  | error e =>
    rw [hrun] at h
    cases h
  | ok result =>
    rw [hrun] at h
    exact hf result.1 (hp _ _ _ hrun) _ _ _ h

/-- The value of the first step does not matter. -/
theorem seq (hf : ∀ a, Yields (f a) Q) : Yields (p >>= f) Q :=
  bind (P := fun _ => True) (fun _ _ _ _ => trivial) fun a _ => hf a

theorem pure {a : α} (h : P a) : Yields (Pure.pure a) P := by
  intro before b after hrun
  cases hrun
  exact h

theorem throw (e : SyntaxError) : Yields (throw e : Read α) P := by
  intro before b after hrun
  cases hrun

theorem unexpected : Yields (Read.unexpected : Read α) P := seq fun _ => throw _

theorem ite {c : Prop} [Decidable c] {q : Read α} (hp : Yields p P) (hq : Yields q P) :
    Yields (if c then p else q) P := by
  split
  · exact hp
  · exact hq

theorem itemsUntil (close : Punctuator) (hp : Yields p P) (limit : Nat) :
    Yields (Read.itemsUntil close p limit) (fun l => ∀ a ∈ l, P a) := by
  induction limit with
  | zero => exact unexpected
  | succ n ih =>
    refine seq fun closed => ite (pure (by simp)) (hp.bind fun a ha => ih.bind fun l hl => pure ?_)
    exact List.forall_mem_cons.2 ⟨ha, hl⟩

theorem many (close : Punctuator) (hp : Yields p P) :
    Yields (Read.many close p) (fun l => ∀ a ∈ l, P a) := by
  refine hp.bind fun a ha => bind (P := fun l => ∀ a ∈ l, P a) ?_ fun l hl => pure ?_
  · exact seq fun before => hp.itemsUntil close _
  · exact List.forall_mem_cons.2 ⟨ha, hl⟩

theorem optionalMany (opening close : Punctuator) (hp : Yields p P) :
    Yields (Read.optionalMany opening close p) (fun l => ∀ a ∈ l, P a) :=
  seq fun _ => ite (hp.many close) (pure (by simp))

end Yields

/-! ## Types -/

/-- How deep the reference is that a written type stands for. -/
def TypeNode.depth (node : TypeNode) : Nat := node.convert.1.depth

theorem yields_finish {node : TypeNode} {levels : Nat} (h : node.depth ≤ levels) :
    Yields (typeReference.finish node) (fun node => node.depth ≤ levels) :=
  Yields.seq fun _ => Yields.ite (Yields.pure h) (Yields.pure h)

theorem yields_typeReference (levels : Nat) :
    Yields (typeReference levels) (fun node => node.depth ≤ levels) := by
  have hnamed : ∀ levels, Yields (do typeReference.finish (.named (← Read.expectName)))
      (fun node => node.depth ≤ levels) :=
    fun levels => Yields.seq fun _ => yields_finish (Nat.zero_le levels)
  induction levels with
  | zero => exact Yields.seq fun _ => Yields.ite (Yields.seq fun _ => hnamed 0) (hnamed 0)
  | succ levels ih =>
    refine Yields.seq fun _ => Yields.ite (ih.bind fun item hitem => ?_) (hnamed _)
    exact Yields.seq fun _ => yields_finish (Nat.succ_le_succ hitem)

/-! ## Definitions -/

def Definition.Shallow : Definition → Prop
  | .object node => node.convert.Shallow
  | .other _ _ => True

theorem yields_fieldDefinition :
    Yields fieldDefinition (fun node => node.convert.type.depth ≤ maximalDepth) := by
  refine Yields.seq fun _ => Yields.seq fun _ => Yields.seq fun _ => Yields.seq fun _ => ?_
  refine (yields_typeReference _).bind fun type htype => ?_
  exact Yields.seq fun _ => Yields.pure htype

theorem yields_objectType (d : Option String) : Yields (objectType d) Definition.Shallow := by
  refine Yields.seq fun _ => Yields.seq fun _ => Yields.seq fun _ => ?_
  refine (yields_fieldDefinition.optionalMany _ _).bind fun fields hfields => Yields.pure ?_
  exact List.forall_mem_map.2 hfields

theorem yields_operationDefinition : Yields operationDefinition Definition.Shallow := by
  refine Yields.seq fun t => ?_
  dsimp only
  split
  · refine Yields.seq fun _ => Yields.seq fun _ => Yields.seq fun _ => Yields.seq fun _ => ?_
    exact Yields.seq fun _ => Yields.pure trivial
  · refine Yields.seq fun _ => Yields.seq fun _ => Yields.seq fun _ => Yields.seq fun _ => ?_
    exact Yields.pure trivial

theorem yields_definitionOf {d : Option String} {word : String} {p : Read Definition}
    (h : definitionOf? d word = some p) : Yields p Definition.Shallow := by
  unfold definitionOf? at h
  split at h
  all_goals cases h
  case h_3 => exact yields_objectType d
  case h_9 => exact yields_operationDefinition
  case h_10 => exact yields_operationDefinition
  case h_11 => exact yields_operationDefinition
  -- the others end in their kind and their name
  all_goals repeat' first | exact Yields.pure trivial | refine Yields.seq fun _ => ?_

theorem yields_extensionOf {word : String} {p : Read Definition}
    (h : extensionOf? word = some p) : Yields p Definition.Shallow := by
  unfold extensionOf? at h
  split at h
  all_goals cases h
  all_goals repeat' first | exact Yields.pure trivial | refine Yields.seq fun _ => ?_

theorem yields_extension : Yields extension Definition.Shallow := by
  refine Yields.seq fun t => ?_
  split
  next word =>
    split
    next rest hrest => exact Yields.seq fun _ => Yields.seq fun _ => yields_extensionOf hrest
    next => exact Yields.throw _
  next => exact Yields.throw _

theorem yields_definition : Yields definition Definition.Shallow := by
  refine Yields.seq fun first => ?_
  split
  case h_1 => exact Yields.seq fun _ => Yields.pure trivial
  case h_2 | h_3 =>
    refine Yields.seq fun t => ?_
    split
    next => exact Yields.throw _
    next word =>
      split
      next rest hrest => exact Yields.seq fun _ => Yields.seq fun _ => yields_definitionOf hrest
      next => exact Yields.throw _
    next => exact Yields.throw _
  next word =>
    split
    next rest hrest => exact Yields.seq fun _ => yields_definitionOf hrest
    next => exact Yields.ite yields_extension (Yields.throw _)
  next => exact Yields.throw _

theorem yields_definitionsAtMost (limit : Nat) :
    Yields (definitionsAtMost limit) (fun l => ∀ d ∈ l, d.Shallow) := by
  induction limit with
  | zero => exact Yields.unexpected
  | succ n ih =>
    refine yields_definition.bind fun d hd => Yields.seq fun _ => Yields.ite ?_ ?_
    · exact Yields.pure (by simpa using hd)
    · exact ih.bind fun more hmore => Yields.pure (List.forall_mem_cons.2 ⟨hd, hmore⟩)

/-- **No definition of a text that can be read has a type that is too deep.** -/
theorem shallow_of_parse {text : String} {definitions : List Definition}
    (h : parse text = .ok definitions) : ∀ d ∈ definitions, d.Shallow := by
  have hread : Yields (Read.current >>= fun _ =>
      definitionsAtMost ((lex text.toList).length + 1)) (fun l => ∀ d ∈ l, d.Shallow) :=
    Yields.seq fun _ => yields_definitionsAtMost _
  unfold parse at h
  dsimp only at h
  split at h
  next after hrun =>
    cases h
    exact hread _ _ _ hrun
  next => cases h

end Sdl

/-! ## Documents -/

/-- The declaration of a definition, if it is an object type. -/
def Sdl.Definition.declaration? : Definition → Option Declaration
  | .object node => some node.convert
  | .other _ _ => none

theorem types_ofDefinitions (source : String) (definitions : List Definition) :
    (Document.ofDefinitions source definitions).1.types =
      definitions.filterMap Definition.declaration? := by
  induction definitions with
  | nil => rfl
  | cons x rest ih =>
    cases x with
    | object node => exact congrArg (node.convert :: ·) ih
    | other kind name => exact ih

theorem Document.load_of_parse (source : String) {text : String} {definitions : List Definition}
    (h : parse text = .ok definitions) :
    (load source text).result = .ok (ofDefinitions source definitions).1 := by
  rw [load, h]

theorem Document.exists_parse_of_load {source text : String} {document : Document}
    (h : (load source text).result = .ok document) : ∃ definitions,
      parse text = .ok definitions ∧ document = (ofDefinitions source definitions).1 := by
  rw [load] at h
  split at h
  next e he => cases h
  next definitions hparse =>
    cases h
    exact ⟨definitions, hparse, rfl⟩

theorem Document.shallow_of_load {source text : String} {document : Document}
    (h : (load source text).result = .ok document) : ∀ d ∈ document.types, d.Shallow := by
  obtain ⟨definitions, hparse, rfl⟩ := exists_parse_of_load h
  intro d hd
  rw [types_ofDefinitions] at hd
  obtain ⟨x, hx, hxd⟩ := List.mem_filterMap.1 hd
  have hshallow := shallow_of_parse hparse x hx
  cases x with
  | object node =>
    obtain rfl := Option.some.inj hxd
    exact hshallow
  | other kind name => cases hxd

theorem Logged.exists_of_bind {ε α β : Type} {x : Logged ε α} {f : α → Logged ε β} {b : β}
    (h : (x >>= f).result = .ok b) : ∃ a, x.result = .ok a ∧ (f a).result = .ok b := by
  change (x.bind f).result = .ok b at h
  rw [Logged.bind] at h
  split at h
  next a ha => exact ⟨a, ha, h⟩
  next e he => cases h

theorem shallow_of_loadTexts {texts : List (String × String)} {documents : List Document}
    (h : (loadTexts texts).result = .ok documents) :
    ∀ document ∈ documents, ∀ d ∈ document.types, d.Shallow := by
  induction texts generalizing documents with
  | nil =>
    cases h
    simp
  | cons e rest ih =>
    obtain ⟨document, hdocument, h⟩ := Logged.exists_of_bind h
    obtain ⟨more, hmore, h⟩ := Logged.exists_of_bind h
    cases h
    exact List.forall_mem_cons.2 ⟨Document.shallow_of_load hdocument, ih hmore⟩

/-- **No merged map of texts has a type that is too deep.** -/
theorem shallow_of_merge {texts : List (String × String)} {documents : List Document}
    {types : TypeMap} (hload : (loadTexts texts).result = .ok documents)
    (hmerge : (merge documents).result = .ok types) : ∀ d ∈ types.values, d.Shallow := by
  intro d hd
  obtain ⟨document, hdocument, hmem⟩ := mem_documents_of_merge hmerge hd
  exact shallow_of_loadTexts hload document hdocument d hmem

end CrudSchema
