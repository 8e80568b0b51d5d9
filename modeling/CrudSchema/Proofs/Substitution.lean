import CrudSchema.Proofs.Inputs

/-!
# How declared types are given as input

**Lists** (`TypeRef.inLists`). A type expression is a name inside some lists. The mark of an item
belongs to the list around it and the outermost mark to the field, so an expression with its mark is
a marked name put into marked lists.

**Substitution** (`TypeRef.GivenAs`). A scalar is given as itself. An object is given by its
identifier, which is required, whatever the declaration says about that place. All that is around
the name stays (`inputType_of_classifyRef`).

Main result: `inputs_substitute_references`.
-/

namespace CrudSchema

namespace TypeRef

/-- A marked type inside lists with these marks, the outermost first. -/
def inLists (marks : List Bool) (inner : TypeRef × Bool) : TypeRef × Bool :=
  marks.foldr (fun mark item => (.list item.1 item.2, mark)) inner

/-- What is given for a marked name, where some types are known. -/
inductive GivenAs (known : List String) (name : String) (mark : Bool) : TypeRef × Bool → Prop
  | scalar {kind : ScalarKind} (isScalar : name = kind.name) :
      GivenAs known name mark (.named name, mark)
  | object (isKnown : name ∈ known) (noScalar : ∀ kind : ScalarKind, name ≠ kind.name) :
      GivenAs known name mark (.named "ID", false)

theorem exists_inLists {type : TypeRef} {n : String} (h : type.innermost? = some n)
    (nullable : Bool) : ∃ marks mark, (type, nullable) = inLists marks (.named n, mark) := by
  induction type generalizing nullable with
  | named m =>
    cases h
    exact ⟨[], nullable, rfl⟩
  | list item itemNullable ih =>
    obtain ⟨marks, mark, hitem⟩ := ih h itemNullable
    refine ⟨nullable :: marks, mark, ?_⟩
    rw [inLists, List.foldr_cons, ← inLists, ← hitem]
  | missing => cases h

end TypeRef

variable {known : List String} {top nullable : Bool} {type : TypeRef} {c : FieldClass}

/-- The class of a name is given as the name is. -/
theorem givenAs_of_classifyRef {n : String}
    (h : classifyRef known top (.named n) nullable = .ok c) :
    TypeRef.GivenAs known n nullable c.inputType := by
  rw [classifyRef] at h
  split at h
  next kind hkind =>
    obtain rfl := ScalarKind.ofName?_eq_some_iff.1 hkind
    cases h
    split
    next hid =>
      -- An identifier is a scalar whose mark has been checked.
      simp only [Bool.and_eq_true, decide_eq_true_eq, Bool.not_eq_true'] at hid
      obtain ⟨⟨rfl, -⟩, rfl⟩ := hid
      exact .scalar rfl
    next => exact .scalar rfl
  next hnone =>
    split at h
    next hn =>
      cases h
      exact .object hn (ScalarKind.ofName?_eq_none_iff.1 hnone)
    next => cases h

/-- **Only the innermost name is given otherwise than it is declared**, at every depth. -/
theorem inputType_of_classifyRef (h : classifyRef known top type nullable = .ok c)
    {marks : List Bool} {n : String} {mark : Bool}
    (hlists : (type, nullable) = TypeRef.inLists marks (.named n, mark)) :
    ∃ given, TypeRef.GivenAs known n mark given ∧ c.inputType = TypeRef.inLists marks given := by
  induction marks generalizing top type nullable c with
  | nil =>
    cases hlists
    exact ⟨_, givenAs_of_classifyRef h, rfl⟩
  | cons outer inner ih =>
    cases hlists
    obtain ⟨i, hitem, rfl⟩ := classifyRef_list_eq_ok_iff.1 h
    obtain ⟨given, hgiven, hi⟩ := ih hitem rfl
    refine ⟨given, hgiven, ?_⟩
    rw [FieldClass.inputType, hi]
    rfl

namespace ClassifiedType.Sound

variable {t : ClassifiedType}

/-- A field that is no identifier has its class in both inputs, under its own name. -/
theorem get?_of_mem_otherFields (h : Sound known t) {f : Field}
    (hf : f ∈ t.declaration.otherFields) : ∃ c,
      classifyRef known true f.type f.nullable = .ok c ∧
      t.createInput.fields.get? f.name = some ⟨c.inputType.1, c.inputType.2, none⟩ ∧
      t.updateInput.fields.get? f.name = some ⟨c.inputType.1, true, none⟩ := by
  rw [← h.map_fst_nonIdentifierFields] at hf
  obtain ⟨x, hx, rfl⟩ := List.mem_map.1 hf
  refine ⟨x.2, h.class_eq (List.mem_filter.1 hx).1, ?_, ?_⟩
  · rw [OrderedMap.get?_eq_some_iff, h.entries_createInput]
    exact List.mem_map.2 ⟨x, hx, rfl⟩
  · rw [OrderedMap.get?_eq_some_iff, h.entries_updateInput]
    exact List.mem_cons_of_mem _ (List.mem_map.2 ⟨x, hx, rfl⟩)

end ClassifiedType.Sound

/-- **References are replaced where they stand.** A field that is no identifier is a marked name in
marked lists. Its create input has the same lists with the same marks around what is given for the
name; its update input differs from that in the outermost mark alone, which is optional. -/
theorem inputs_substitute_references {d : Declaration} {t : ClassifiedType}
    (hdistinct : d.fieldNames.Nodup) (hclassified : classifyType known d = .ok t) {f : Field}
    (hf : f ∈ d.otherFields) :
    (∃ marks name mark, (f.type, f.nullable) = TypeRef.inLists marks (.named name, mark)) ∧
    ∀ marks name mark, (f.type, f.nullable) = TypeRef.inLists marks (.named name, mark) →
      ∃ given, TypeRef.GivenAs known name mark given ∧
        t.createInput.fields.get? f.name =
          some ⟨(TypeRef.inLists marks given).1, (TypeRef.inLists marks given).2, none⟩ ∧
        t.updateInput.fields.get? f.name = some ⟨(TypeRef.inLists marks given).1, true, none⟩ := by
  obtain rfl := (classifyType_eq_ok_iff.1 hclassified).1
  have hsound : t.Sound known := ⟨hclassified, hdistinct⟩
  obtain ⟨c, hclass, hcreate, hupdate⟩ := hsound.get?_of_mem_otherFields hf
  constructor
  · obtain ⟨n, hn, -⟩ := (classifyRef_succeeds_iff true f.nullable).1 ⟨c, hclass⟩
    obtain ⟨marks, mark, hlists⟩ := TypeRef.exists_inLists hn f.nullable
    exact ⟨marks, n, mark, hlists⟩
  · intro marks name mark hlists
    obtain ⟨given, hgiven, hinput⟩ := inputType_of_classifyRef hclass hlists
    rw [hinput] at hcreate hupdate
    exact ⟨given, hgiven, hcreate, hupdate⟩

/-- Rows of seats that may be empty, and rows of scores that may be missing. -/
def board : Declaration where
  name := "Board"
  fields := [⟨"id", .named "ID", false⟩,
    ⟨"seats", .list (.list (.named "User") true) false, false⟩,
    ⟨"scores", .list (.list (.named "Int") true) false, true⟩]

/-- Seats have to be taken when they are given, but scores may still be missing. -/
theorem board_substitutes : ∃ t, board.fieldNames.Nodup ∧
    classifyType ["Board", "User"] board = .ok t ∧
    t.createInput.fields.get? "seats" =
      some ⟨.list (.list (.named "ID") false) false, false, none⟩ ∧
    t.updateInput.fields.get? "seats" =
      some ⟨.list (.list (.named "ID") false) false, true, none⟩ ∧
    t.createInput.fields.get? "scores" =
      some ⟨.list (.list (.named "Int") true) false, true, none⟩ := by
  have hdistinct : board.fieldNames.Nodup := by decide
  obtain ⟨t, ht⟩ : ∃ t, classifyType ["Board", "User"] board = .ok t := ⟨_, rfl⟩
  obtain ⟨-, hseats⟩ := inputs_substitute_references hdistinct ht
    (f := ⟨"seats", .list (.list (.named "User") true) false, false⟩) (by decide)
  obtain ⟨-, hscores⟩ := inputs_substitute_references hdistinct ht
    (f := ⟨"scores", .list (.list (.named "Int") true) false, true⟩) (by decide)
  obtain ⟨given, hgiven, hcreate, hupdate⟩ := hseats [false, false] "User" true rfl
  obtain ⟨given', hgiven', hcreate', -⟩ := hscores [true, false] "Int" true rfl
  cases hgiven with
  | @scalar kind hkind => exact absurd hkind (by cases kind <;> decide)
  | object =>
    cases hgiven' with
    | object _ hscalar => exact absurd rfl (hscalar .int)
    | scalar => exact ⟨t, hdistinct, ht, hcreate, hupdate, hcreate'⟩

end CrudSchema
