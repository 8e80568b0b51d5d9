import CrudSchema.Proofs.Derivation

/-!
# How four inputs cover a declaration

**Two selections.** What can be created and what can be sorted by are the fields that are no
identifier (`Declaration.otherFields`); what can be filtered are the fields of a scalar type
(`Declaration.scalarFields`), the identifier among them. References can be created and sorted by,
but not filtered, and so can lists.

**Three ways to tell the identifier.** Resolving it reads types and marks, classifying gives it a
class of its own, and deriving goes by its name. In a declaration with distinct field names the
three pick the same field (`ClassifiedType.Sound.isIdentifier_iff`), so all four inputs speak of one
partition of the fields (`Declaration.Covered`).

Main result: `covered_of_derived`.
-/

namespace CrudSchema

/-- The inputs hold the fields of a declaration that they are for, in its order. -/
structure Declaration.Covered (d : Declaration) (identifier : Field)
    (filter sort create update : InputObject) : Prop where
  identified : d.fields.filter Field.isIdentifier = [identifier]
  createFields : create.fields.keys = d.otherFields.map Field.name
  sortFields : sort.fields.keys = d.otherFields.map Field.name
  updateFields : update.fields.keys = identifier.name :: d.otherFields.map Field.name
  filterFields : filter.fields.keys = d.scalarFields.map Field.name
  filterOptional : ∀ e ∈ filter.fields.entries, e.2.nullable = true
  sortOptional : ∀ e ∈ sort.fields.entries, e.2.nullable = true
  updateRequired : ∀ e ∈ update.fields.entries, e.2.nullable = false ↔ e.1 = identifier.name
  createEmpty : create.fields.entries = [] ↔ d.fields = [identifier]
  sortEmpty : sort.fields.entries = [] ↔ d.fields = [identifier]
  filterFilled : filter.fields.entries ≠ []
  updateFilled : update.fields.entries ≠ []

/-- Besides the identifier there is nothing exactly if it is the only field. -/
theorem Declaration.otherFields_eq_nil_iff {d : Declaration} {identifier : Field}
    (h : d.fields.filter Field.isIdentifier = [identifier]) :
    d.otherFields = [] ↔ d.fields = [identifier] := by
  constructor
  · intro hnone
    have hall : d.fields.filter Field.isIdentifier = d.fields := by
      rw [List.filter_eq_self]
      intro f hf
      by_contra hid
      have hmem : f ∈ d.otherFields := List.mem_filter.2 ⟨hf, by simpa using hid⟩
      rw [hnone] at hmem
      cases hmem
    rw [← hall, h]
  · intro hfields
    have hid : identifier.isIdentifier = true :=
      (List.mem_filter.1 (h ▸ List.mem_singleton_self identifier)).2
    rw [Declaration.otherFields, hfields, List.filter_cons_of_neg (by simp [hid]),
      List.filter_nil]

/-! ## The fields of each input -/

/-- Only the identifier has to be given in an update. -/
theorem ClassifiedType.nullable_updateEntries (t : ClassifiedType) {e : String × InputField}
    (he : e ∈ t.updateEntries) : e.2.nullable = false ↔ e.1 = t.identifier := by
  rcases List.mem_cons.1 he with rfl | he
  · simp
  · obtain ⟨x, hx, rfl⟩ := List.mem_map.1 he
    have hne : x.1.name ≠ t.identifier := by
      intro hname
      exact t.identifier_not_mem (List.mem_map.2 ⟨x, hx, hname⟩)
    simp [hne]

namespace ClassifiedType.Sound

variable {known : List String} {t : ClassifiedType}

theorem map_name_nonIdentifierFields (h : Sound known t) :
    t.nonIdentifierFields.map (fun x => x.1.name) =
      t.declaration.otherFields.map Field.name := by
  rw [← h.map_fst_nonIdentifierFields, List.map_map]
  rfl

theorem keys_sortInput (h : Sound known t) :
    t.sortInput.fields.keys = t.declaration.otherFields.map Field.name := by
  rw [OrderedMap.keys, h.entries_sortInput, sortEntries, List.map_map]
  exact h.map_name_nonIdentifierFields

theorem keys_createInput (h : Sound known t) :
    t.createInput.fields.keys = t.declaration.otherFields.map Field.name := by
  rw [OrderedMap.keys, h.entries_createInput, createEntries, List.map_map]
  exact h.map_name_nonIdentifierFields

theorem keys_updateInput (h : Sound known t) :
    t.updateInput.fields.keys = t.identifier :: t.declaration.otherFields.map Field.name := by
  rw [OrderedMap.keys, h.entries_updateInput, updateEntries, List.map_cons, List.map_map]
  exact congrArg (t.identifier :: ·) h.map_name_nonIdentifierFields

/-- Without the combinators a filter has the entries of the filterable fields only. -/
theorem entries_plain (h : Sound known t) :
    (t.filterInput false).fields.entries = t.filterEntries := by
  have hplain : false = true → t.clash? = none := nofun
  rw [h.entries_filterInput hplain, allFilterEntries, if_neg Bool.false_ne_true, List.append_nil]

theorem keys_filterInput (h : Sound known t) :
    (t.filterInput false).fields.keys = t.declaration.scalarFields.map Field.name := by
  have hscalar : t.fields.filter (fun x => x.2.kind?.isSome) =
      t.fields.filter ((fun f : Field => f.type.scalar?.isSome) ∘ Prod.fst) := by
    refine List.filter_congr fun x hx => ?_
    rw [Function.comp_apply, kind?_of_classifyRef (h.class_eq hx)]
  rw [OrderedMap.keys, h.entries_plain, map_fst_filterEntries, hscalar, Declaration.scalarFields,
    ← h.fields_eq, List.filter_map, List.map_map]
  rfl

/-- The inputs of a type that stands for a declaration cover it. -/
theorem covered (h : Sound known t) :
    ∃ identifier, t.declaration.Covered identifier (t.filterInput false) t.sortInput
      t.createInput t.updateInput := by
  obtain ⟨identifier, hid, hname⟩ := h.exists_filter_isIdentifier
  have hempty : t.nonIdentifierFields = [] ↔ t.declaration.fields = [identifier] := by
    rw [← Declaration.otherFields_eq_nil_iff hid, ← h.map_fst_nonIdentifierFields,
      List.map_eq_nil_iff]
  refine ⟨identifier, ?_⟩
  constructor
  case identified => exact hid
  case createFields => exact h.keys_createInput
  case sortFields => exact h.keys_sortInput
  case updateFields => rw [hname, h.keys_updateInput]
  case filterFields => exact h.keys_filterInput
  case filterOptional =>
    intro e he
    rw [h.entries_plain] at he
    obtain ⟨x, -, hx⟩ := List.mem_filterMap.1 he
    obtain ⟨kind, -, rfl⟩ := Option.map_eq_some_iff.1 hx
    rfl
  case sortOptional =>
    intro e he
    rw [h.entries_sortInput] at he
    obtain ⟨x, -, rfl⟩ := List.mem_map.1 he
    rfl
  case updateRequired =>
    intro e he
    rw [h.entries_updateInput] at he
    rw [hname]
    exact t.nullable_updateEntries he
  case createEmpty => rw [h.entries_createInput, createEntries, List.map_eq_nil_iff, hempty]
  case sortEmpty => rw [h.entries_sortInput, sortEntries, List.map_eq_nil_iff, hempty]
  case filterFilled =>
    rw [h.entries_plain]
    exact h.filterEntries_ne_nil
  case updateFilled =>
    rw [h.entries_updateInput]
    exact List.cons_ne_nil _ _

end ClassifiedType.Sound

/-! ## Deriving them -/

/-- **The derived inputs share out the fields of a declaration.** Whatever the drafts are in which
its filter and its sort input are derived, what can be created and sorted by is everything but the
identifier, an update names the identifier first, and a filter has the fields of scalar types. -/
theorem covered_of_derived {known : List String} {d : Declaration} {t : ClassifiedType}
    (hdistinct : d.fieldNames.Nodup) (hclassified : classifyType known d = .ok t) :
    ∃ identifier, ∀ (atFilter atSort : Draft) (filter sort : InputObject),
      (atFilter.take (Derive.filterInput t false)).1 = .ok filter →
      (atSort.take (Derive.sortInput t)).1 = .ok sort →
      d.Covered identifier filter sort t.createInput t.updateInput := by
  obtain rfl := (classifyType_eq_ok_iff.1 hclassified).1
  obtain ⟨identifier, hcovered⟩ := ClassifiedType.Sound.covered ⟨hclassified, hdistinct⟩
  refine ⟨identifier, fun atFilter atSort filter sort hfilter hsort => ?_⟩
  have hplain : false = true → t.clash? = none := nofun
  obtain ⟨-, rfl, -⟩ := (Derive.adds_filterInput hplain).grows_of_ok (Prod.ext hfilter rfl)
  obtain ⟨-, rfl, -⟩ := Derive.adds_sortInput.grows_of_ok (Prod.ext hsort rfl)
  exact hcovered

/-- A declaration with a required scalar before its identifier, an optional `ID`, a reference and
nested lists. -/
def article : Declaration where
  name := "Article"
  fields := [⟨"title", .named "String", false⟩, ⟨"id", .named "ID", false⟩,
    ⟨"origin", .named "ID", true⟩, ⟨"author", .named "User", false⟩,
    ⟨"links", .list (.named "ID") false, false⟩,
    ⟨"grid", .list (.list (.named "Int") true) false, true⟩]

/-- An article can be filtered by three fields and created from five. -/
theorem article_covered : ∃ t identifier filter sort,
    classifyType ["Article", "User"] article = .ok t ∧
    ((Draft.start ["Article"]).take (Derive.filterInput t false)).1 = .ok filter ∧
    ((Draft.start ["Article"]).take (Derive.sortInput t)).1 = .ok sort ∧
    article.Covered identifier filter sort t.createInput t.updateInput ∧
    filter.fields.keys = ["title", "id", "origin"] ∧
    t.createInput.fields.keys = ["title", "origin", "author", "links", "grid"] := by
  obtain ⟨t, ht⟩ : ∃ t, classifyType ["Article", "User"] article = .ok t := ⟨_, rfl⟩
  obtain ⟨filter, hfilter⟩ : ∃ filter,
      ((Draft.start ["Article"]).take (Derive.filterInput t false)).1 = .ok filter := by
    cases ht
    exact ⟨_, rfl⟩
  obtain ⟨sort, hsort⟩ : ∃ sort,
      ((Draft.start ["Article"]).take (Derive.sortInput t)).1 = .ok sort := by
    cases ht
    exact ⟨_, rfl⟩
  obtain ⟨identifier, hcovered⟩ := covered_of_derived (by decide) ht
  have h := hcovered _ _ filter sort hfilter hsort
  refine ⟨t, identifier, filter, sort, ht, hfilter, hsort, h, ?_, ?_⟩
  · rw [h.filterFields]
    decide
  · rw [h.createFields]
    decide

end CrudSchema
