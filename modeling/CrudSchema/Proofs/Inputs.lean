import CrudSchema.Derivation.Inputs
import CrudSchema.Proofs.Classification
import CrudSchema.Proofs.Naming
import CrudSchema.Proofs.OrderedMap

/-!
# The fields of derived inputs

**Closed forms** (`filterEntries`, `sortEntries`, `createEntries`, `updateEntries`). The inputs of a
type are built field by field; each is the map of a list that can be read off the classified fields.

**Types that stand for declarations** (`ClassifiedType.Sound`). In a type that was classified from a
declaration with distinct field names, no two entries meet, so the lists are the fields themselves.

**Families.** The inputs of a scalar kind have the names `Naming.familyNames`.
-/

namespace CrudSchema

/-! ## Adding fields -/

namespace InputObject

/-- Add fields one after the other. -/
def addAll (i : InputObject) (l : List (String × InputField)) : InputObject :=
  { i with fields := i.fields.setAll l }

theorem addAll_append (i : InputObject) (l m : List (String × InputField)) :
    i.addAll (l ++ m) = (i.addAll l).addAll m := by
  simp [addAll, OrderedMap.setAll]

theorem foldl_eq_addAll {γ : Type} {f : InputObject → γ → InputObject}
    (entries : γ → List (String × InputField)) (h : ∀ i x, f i x = i.addAll (entries x))
    (l : List γ) (i : InputObject) : l.foldl f i = i.addAll (l.flatMap entries) := by
  induction l generalizing i with
  | nil => rfl
  | cons x rest ih => rw [List.foldl_cons, h, ih, List.flatMap_cons, addAll_append]

end InputObject

/-! ## Families -/

namespace FilterShape

theorem name_filterInput (s : FilterShape) : s.filterInput.name = Naming.scalarFilter s.kind := by
  have h := InputObject.foldl_eq_addAll (fun p => [(p, { type := .scalar s.kind })])
    (fun i p => (rfl : i.addField p (.scalar s.kind) = _)) s.substring
  exact congrArg InputObject.name (h _)

theorem kind_of (kind : ScalarKind) : (of kind).kind = kind := by cases kind <;> rfl

theorem map_name_family (kind : ScalarKind) :
    (of kind).family.map InputObject.name = Naming.familyNames kind := by
  cases kind <;> decide

end FilterShape

/-! ## The inputs of a type -/

namespace ClassifiedType

variable (t : ClassifiedType)

/-- One optional field per field that can be filtered. -/
def filterEntries : List (String × InputField) :=
  t.fields.filterMap fun x =>
    x.2.kind?.map fun kind => (x.1.name, { type := .named (Naming.scalarFilter kind) })

/-- The lists of the filter itself. -/
def combinatorEntries : List (String × InputField) :=
  [("and", ⟨.requiredListOf (Naming.filterInput t.name), true, some "All filters must match."⟩),
    ("or", ⟨.requiredListOf (Naming.filterInput t.name), true,
      some "At least one filter must match."⟩)]

def sortEntries : List (String × InputField) :=
  t.nonIdentifierFields.map fun x => (x.1.name, { type := .named Naming.sortDirection })

def createEntries : List (String × InputField) :=
  t.nonIdentifierFields.map fun x => (x.1.name, ⟨x.2.inputType.1, x.2.inputType.2, none⟩)

def updateEntries : List (String × InputField) :=
  (t.identifier, ⟨.scalar .id, false, none⟩) ::
    t.nonIdentifierFields.map fun x => (x.1.name, { type := x.2.inputType.1 })

theorem plainFilterInput_eq :
    t.plainFilterInput =
      { name := Naming.filterInput t.name, fields := .ofList t.filterEntries } := by
  rw [filterEntries, List.filterMap_eq_flatMap_toList]
  refine InputObject.foldl_eq_addAll _ (fun i x => ?_) t.fields _
  obtain ⟨f, c⟩ := x
  rcases hkind : c.kind? with _ | kind
  · simp only [FilterShape.ofClass?, hkind]
    rfl
  · simp only [FilterShape.ofClass?, hkind, Option.map_some, FilterShape.name_filterInput,
      FilterShape.kind_of]
    rfl

theorem logicalFilterInput_eq :
    t.logicalFilterInput =
      { name := Naming.filterInput t.name
        fields := .ofList (t.filterEntries ++ t.combinatorEntries) } := by
  rw [logicalFilterInput, plainFilterInput_eq]
  simp only [InputObject.addField, OrderedMap.ofList_eq_setAll, OrderedMap.setAll,
    combinatorEntries, List.foldl_append, List.foldl_cons, List.foldl_nil]

theorem sortInput_eq :
    t.sortInput = { name := Naming.sortInput t.name, fields := .ofList t.sortEntries } := by
  rw [sortEntries, List.map_eq_flatMap]
  refine InputObject.foldl_eq_addAll _ (fun i x => ?_) t.nonIdentifierFields _
  rfl

theorem createInput_eq :
    t.createInput = { name := Naming.createInput t.name, fields := .ofList t.createEntries } := by
  rw [createEntries, List.map_eq_flatMap]
  refine InputObject.foldl_eq_addAll _ (fun i x => ?_) t.nonIdentifierFields _
  rfl

theorem updateInput_eq :
    t.updateInput = { name := Naming.updateInput t.name, fields := .ofList t.updateEntries } := by
  rw [updateEntries, List.map_eq_flatMap]
  refine InputObject.foldl_eq_addAll _ (fun i x => ?_) t.nonIdentifierFields _
  rfl

/-- The fields of the filter input, with or without the combinators. -/
def allFilterEntries (logical : Bool) : List (String × InputField) :=
  t.filterEntries ++ if logical then t.combinatorEntries else []

/-- The filter input that is registered. -/
def filterInput (logical : Bool) : InputObject :=
  if logical then t.logicalFilterInput else t.plainFilterInput

/-- The four inputs, in the order in which they are registered. -/
def inputs (logical : Bool) : List InputObject :=
  [t.filterInput logical, t.sortInput, t.createInput, t.updateInput]

theorem filterInput_eq (logical : Bool) :
    t.filterInput logical =
      { name := Naming.filterInput t.name, fields := .ofList (t.allFilterEntries logical) } := by
  cases logical with
  | false =>
    rw [allFilterEntries, if_neg Bool.false_ne_true, List.append_nil]
    exact t.plainFilterInput_eq
  | true => exact t.logicalFilterInput_eq

theorem name_filterInput (logical : Bool) :
    (t.filterInput logical).name = Naming.filterInput t.name := by
  rw [filterInput_eq]

theorem map_name_inputs (logical : Bool) :
    (t.inputs logical).map InputObject.name = Naming.inputNames t.name := by
  simp only [inputs, filterInput_eq, sortInput_eq, createInput_eq, updateInput_eq, List.map_cons,
    List.map_nil, Naming.inputNames]

theorem map_fst_filterEntries :
    t.filterEntries.map Prod.fst =
      (t.fields.filter fun x => x.2.kind?.isSome).map fun x => x.1.name := by
  rw [filterEntries]
  induction t.fields with
  | nil => rfl
  | cons x rest ih =>
    rcases hkind : x.2.kind? with _ | kind
    · rw [List.filterMap_cons_none (by rw [hkind]; rfl),
        List.filter_cons_of_neg (by simp [hkind]), ih]
    · rw [List.filterMap_cons_some (b := (x.1.name, { type := .named (Naming.scalarFilter kind) }))
        (by rw [hkind]; rfl), List.filter_cons_of_pos (by simp [hkind]), List.map_cons, ih,
        List.map_cons]

theorem identifier_not_mem :
    t.identifier ∉ t.nonIdentifierFields.map fun x => x.1.name := by
  intro hmem
  obtain ⟨x, hx, hname⟩ := List.mem_map.1 hmem
  simpa [hname] using (List.mem_filter.1 hx).2

/-- A combinator clashes with nothing exactly when no filterable field has its name. -/
theorem clash?_eq_none_iff :
    t.clash? = none ↔
      "and" ∉ t.filterEntries.map Prod.fst ∧ "or" ∉ t.filterEntries.map Prod.fst := by
  rw [clash?, List.find?_eq_none, plainFilterInput_eq]
  simp only [List.forall_mem_cons, OrderedMap.contains_eq_true_iff, OrderedMap.mem_keys_ofList]
  simp

end ClassifiedType

/-! ## Types that stand for declarations -/

namespace ClassifiedType

/-- The type was classified from its declaration, whose fields have distinct names. -/
structure Sound (known : List String) (t : ClassifiedType) : Prop where
  classified : classifyType known t.declaration = .ok t
  distinct : t.declaration.fieldNames.Nodup

namespace Sound

variable {known : List String} {t : ClassifiedType}

theorem fields_eq (h : Sound known t) : t.fields.map Prod.fst = t.declaration.fields :=
  (classifyType_eq_ok_iff.1 h.classified).2.1

theorem class_eq (h : Sound known t) {x : Field × FieldClass} (hx : x ∈ t.fields) :
    classifyRef known true x.1.type x.1.nullable = .ok x.2 :=
  (classifyType_eq_ok_iff.1 h.classified).2.2.1 x hx

theorem field_mem (h : Sound known t) {x : Field × FieldClass} (hx : x ∈ t.fields) :
    x.1 ∈ t.declaration.fields :=
  h.fields_eq ▸ List.mem_map_of_mem hx

theorem map_name_fields (h : Sound known t) :
    t.fields.map (fun x => x.1.name) = t.declaration.fieldNames := by
  rw [Declaration.fieldNames, ← h.fields_eq, List.map_map]
  rfl

theorem nodup_fields (h : Sound known t) : (t.fields.map fun x => x.1.name).Nodup :=
  h.map_name_fields ▸ h.distinct

theorem nodup_nonIdentifierFields (h : Sound known t) :
    (t.nonIdentifierFields.map fun x => x.1.name).Nodup :=
  h.nodup_fields.sublist (List.filter_sublist.map _)

/-- The field that is the identifier. -/
theorem exists_identifier (h : Sound known t) :
    ∃ f ∈ t.declaration.fields, f.name = t.identifier ∧ f.type = .scalar .id ∧
      f.nullable = false := by
  have hid := (classifyType_eq_ok_iff.1 h.classified).2.2.2
  have hmem : t.identifier ∈ identifierCandidates t.declaration := by rw [hid]; simp
  obtain ⟨f, hf, hname⟩ := List.mem_map.1 hmem
  obtain ⟨hf, hcand⟩ := List.mem_filter.1 hf
  simp only [Bool.and_eq_true, decide_eq_true_eq, Bool.not_eq_true'] at hcand
  exact ⟨f, hf, hname, hcand.1, hcand.2⟩

/-- The identifier is the only field that looks like one. -/
theorem exists_filter_isIdentifier (h : Sound known t) :
    ∃ f, t.declaration.fields.filter Field.isIdentifier = [f] ∧ f.name = t.identifier := by
  have hid := (classifyType_eq_ok_iff.1 h.classified).2.2.2
  exact List.map_eq_singleton_iff.1 hid

/-- The identifier can be told by its name as well as by its type and mark. -/
theorem isIdentifier_iff (h : Sound known t) {f : Field} (hf : f ∈ t.declaration.fields) :
    f.isIdentifier = true ↔ f.name = t.identifier := by
  obtain ⟨g, hg, hname⟩ := h.exists_filter_isIdentifier
  have hmem : g ∈ t.declaration.fields ∧ g.isIdentifier = true :=
    List.mem_filter.1 (hg ▸ List.mem_singleton_self g)
  constructor
  · intro hf'
    have hsame : f ∈ [g] := hg ▸ List.mem_filter.2 ⟨hf, hf'⟩
    rw [List.mem_singleton.1 hsame, hname]
  · intro hf'
    have hsame : f = g := List.inj_on_of_nodup_map h.distinct hf hmem.1 (hf'.trans hname.symm)
    rw [hsame, hmem.2]

theorem map_fst_nonIdentifierFields (h : Sound known t) :
    t.nonIdentifierFields.map Prod.fst = t.declaration.otherFields := by
  rw [nonIdentifierFields, Declaration.otherFields, ← h.fields_eq, List.filter_map]
  refine congrArg (List.map Prod.fst) (List.filter_congr fun x hx => ?_)
  rw [Function.comp_apply, Bool.eq_iff_iff, Bool.not_eq_true', ← Bool.not_eq_true,
    h.isIdentifier_iff (h.field_mem hx), decide_eq_true_iff]

theorem nodup_filterEntries (h : Sound known t) : (t.filterEntries.map Prod.fst).Nodup := by
  rw [map_fst_filterEntries]
  exact h.nodup_fields.sublist (List.filter_sublist.map _)

theorem nodup_allFilterEntries (h : Sound known t) {logical : Bool}
    (hclash : logical = true → t.clash? = none) :
    ((t.allFilterEntries logical).map Prod.fst).Nodup := by
  cases logical with
  | false => simpa [allFilterEntries] using h.nodup_filterEntries
  | true =>
    obtain ⟨hand, hor⟩ := t.clash?_eq_none_iff.1 (hclash rfl)
    rw [allFilterEntries, if_pos rfl, List.map_append, List.nodup_append]
    refine ⟨h.nodup_filterEntries, by simp [combinatorEntries], fun n hn m hm => ?_⟩
    simp only [combinatorEntries, List.map_cons, List.map_nil, List.mem_cons, List.not_mem_nil,
      or_false] at hm
    rcases hm with rfl | rfl
    · exact fun e => hand (e ▸ hn)
    · exact fun e => hor (e ▸ hn)

theorem entries_filterInput (h : Sound known t) {logical : Bool}
    (hclash : logical = true → t.clash? = none) :
    (t.filterInput logical).fields.entries = t.allFilterEntries logical := by
  rw [filterInput_eq]
  exact OrderedMap.entries_ofList (h.nodup_allFilterEntries hclash)

theorem entries_sortInput (h : Sound known t) : t.sortInput.fields.entries = t.sortEntries := by
  rw [sortInput_eq]
  refine OrderedMap.entries_ofList ?_
  rw [sortEntries, List.map_map]
  exact h.nodup_nonIdentifierFields

theorem entries_createInput (h : Sound known t) :
    t.createInput.fields.entries = t.createEntries := by
  rw [createInput_eq]
  refine OrderedMap.entries_ofList ?_
  rw [createEntries, List.map_map]
  exact h.nodup_nonIdentifierFields

theorem entries_updateInput (h : Sound known t) :
    t.updateInput.fields.entries = t.updateEntries := by
  rw [updateInput_eq]
  refine OrderedMap.entries_ofList ?_
  rw [updateEntries, List.map_cons, List.map_map, List.nodup_cons]
  exact ⟨t.identifier_not_mem, h.nodup_nonIdentifierFields⟩

/-- Filterable fields in terms of the declaration. -/
theorem mem_filterEntries_iff (h : Sound known t) {n : String} :
    n ∈ t.filterEntries.map Prod.fst ↔
      ∃ f ∈ t.declaration.fields, f.name = n ∧ f.type.scalar?.isSome := by
  rw [map_fst_filterEntries, List.mem_map, ← h.fields_eq]
  constructor
  · rintro ⟨x, hx, rfl⟩
    obtain ⟨hx, hkind⟩ := List.mem_filter.1 hx
    exact ⟨x.1, List.mem_map_of_mem hx, rfl, kind?_of_classifyRef (h.class_eq hx) ▸ hkind⟩
  · rintro ⟨f, hf, rfl, hscalar⟩
    obtain ⟨x, hx, rfl⟩ := List.mem_map.1 hf
    refine ⟨x, List.mem_filter.2 ⟨hx, ?_⟩, rfl⟩
    rwa [kind?_of_classifyRef (h.class_eq hx)]

/-- A type can be filtered by its identifier, if by nothing else. -/
theorem filterEntries_ne_nil (h : Sound known t) : t.filterEntries ≠ [] := by
  obtain ⟨f, hf, hname, htype, -⟩ := h.exists_identifier
  have hscalar : f.type.scalar? = some .id := TypeRef.scalar?_eq_some_iff.2 htype
  have hid : t.identifier ∈ t.filterEntries.map Prod.fst :=
    h.mem_filterEntries_iff.2 ⟨f, hf, hname, by rw [hscalar]; rfl⟩
  intro hnil
  rw [hnil] at hid
  cases hid

/-- The kinds a type filters by are those of its top-level fields. -/
theorem mem_filterKinds_iff (h : Sound known t) {kind : ScalarKind} :
    kind ∈ t.filterKinds ↔ ∃ f ∈ t.declaration.fields, f.type = .scalar kind := by
  rw [filterKinds, List.mem_filterMap, ← h.fields_eq]
  constructor
  · rintro ⟨x, hx, hkind⟩
    have hscalar : x.1.type.scalar? = some kind := kind?_of_classifyRef (h.class_eq hx) ▸ hkind
    exact ⟨x.1, List.mem_map_of_mem hx, TypeRef.scalar?_eq_some_iff.1 hscalar⟩
  · rintro ⟨f, hf, htype⟩
    obtain ⟨x, hx, rfl⟩ := List.mem_map.1 hf
    refine ⟨x, hx, (kind?_of_classifyRef (h.class_eq hx)).trans ?_⟩
    exact TypeRef.scalar?_eq_some_iff.2 htype

end Sound

end ClassifiedType

end CrudSchema
