import CrudSchema.Proofs.Acceptance
import CrudSchema.Proofs.Validity

/-!
# What a compiled API holds

**Content** (`Compiled`). The API of a map has the declared objects, the inputs of the scalar kinds
in use, the four inputs of every type (`Compiled.mem_inputs`), one enum, and five operations for
every type.

**Empty inputs** (`Compiled.filled_iff`). Of all inputs only the sort and the create input of a type
can be empty, and they are if the type has nothing but its identifier.

**Bindings** (`Compiled.closed`, `Compiled.proper`). If the declared names are legal, the API is
closed; if they are public too, it is proper.
-/

namespace CrudSchema

open Schema Naming

/-! ## Content -/

/-- What compiling a map to an API has added to an empty draft. -/
structure Compiled (logical : Bool) (types : TypeMap) (ts : List ClassifiedType) (api : Api) :
    Prop where
  merged : Merged types
  nonempty : types.keys ≠ []
  usable : List.Forall₂ (Derive.Usable types.keys logical) types.values ts
  fits : (Draft.start types.keys).Fits (Derive.additions logical [] [Derive.sortDirections] ts)
  objects : api.objects = types
  inputs : api.inputs.entries =
    (Derive.additions logical [] [Derive.sortDirections] ts).inputs.map fun i => (i.name, i)
  enums : api.enums.entries = [(sortDirection, Derive.sortDirections)]
  query : api.query.entries = (ts.flatMap ClassifiedType.queries).map fun o => (o.name, o)
  mutation : api.mutation.entries = (ts.flatMap ClassifiedType.mutations).map fun o => (o.name, o)
  derived : api.derived.entries =
    (ts.map ClassifiedType.derivedTypes).map fun d => (d.typeName, d)

theorem exists_compiled {options : SynthesisOptions} {types : TypeMap} {api : Api}
    (hm : Merged types) (h : (compile options types).result = .ok api) :
    ∃ ts, Compiled options.logicalFilters types ts api := by
  by_cases hne : types.keys = []
  · rw [compile_empty hne] at h
    cases h
  · rw [compile_result hne] at h
    rcases hrun : draftOf options types with ⟨e | ⟨⟩, d⟩
    · rw [hrun] at h
      cases h
    · rw [hrun] at h
      cases h
      obtain ⟨ts, hts, hfits, hgrows⟩ := Derive.grows_of_ok hrun
      have hts' : ts ≠ [] := by
        rintro rfl
        exact hne (by rw [← hm.map_name_eq hts]; rfl)
      refine ⟨ts, hm, hne, hts, hfits, rfl, hgrows.inputs, ?_, ?_, ?_, ?_⟩
      · show d.enums.entries = _
        rw [hgrows.enums, Draft.missingEnum_start, Derive.additions_enums hts']
        rfl
      · show d.query.entries = _
        rw [hgrows.query, Derive.additions_query]
        rfl
      · show d.mutation.entries = _
        rw [hgrows.mutation, Derive.additions_mutation]
        rfl
      · have hnames : ((ts.map ClassifiedType.derivedTypes).map
            fun t => (t.typeName, t)).map Prod.fst = types.keys := by
          rw [List.map_map, List.map_map, ← hm.map_name_eq hts]
          rfl
        show d.derived.entries = _
        rw [hgrows.derived, Derive.additions_derived]
        exact OrderedMap.entries_setAll (hnames ▸ types.nodup_keys)

/-- Some declared type has a field of the name. -/
def TypeMap.HasField (types : TypeMap) (n : String) : Prop :=
  ∃ d ∈ types.values, ∃ f ∈ d.fields, f.name = n

/-- Some declared type has a field of a type that is so deep. -/
def TypeMap.HasDepth (types : TypeMap) (depth : Nat) : Prop :=
  ∃ d ∈ types.values, ∃ f ∈ d.fields, f.type.depth = depth

namespace FilterShape

/-- The inputs of a kind hold the scalar or another of these inputs. -/
theorem family_sound (kind : ScalarKind) : ∀ i ∈ (of kind).family, i.fields.entries ≠ [] ∧
    ∀ e ∈ i.fields.entries, IsPublic e.1 ∧ (e.2.type = .scalar kind ∨
      e.2.nullable = true ∧ ∃ j ∈ (of kind).family, e.2.type = .named j.name) := by
  cases kind <;> decide

theorem exists_scalarFilter (kind : ScalarKind) :
    ∃ i ∈ (of kind).family, i.name = scalarFilter kind := by
  refine ⟨(of kind).filterInput, by simp [family], ?_⟩
  rw [name_filterInput, kind_of]

end FilterShape

namespace Compiled

variable {logical : Bool} {types : TypeMap} {ts : List ClassifiedType} {api : Api}

theorem sound (h : Compiled logical types ts api) {t : ClassifiedType} (ht : t ∈ ts) :
    t.Sound types.keys ∧ t.declaration ∈ types.values :=
  h.merged.sound (fun _ => id) h.usable ht

theorem clash?_eq_none (h : Compiled logical types ts api) {t : ClassifiedType} (ht : t ∈ ts) :
    logical = true → t.clash? = none := by
  obtain ⟨d, -, hu⟩ := exists_declaration_of_usable h.usable ht
  exact hu.2

theorem name_mem_keys (h : Compiled logical types ts api) {t : ClassifiedType} (ht : t ∈ ts) :
    t.name ∈ types.keys :=
  h.merged.name_mem_keys (h.sound ht).2

theorem values_inputs (h : Compiled logical types ts api) :
    api.inputs.values = (Derive.additions logical [] [Derive.sortDirections] ts).inputs := by
  rw [OrderedMap.values, h.inputs, List.map_map]
  exact List.map_id _

/-- **The inputs of an API** are those of the scalar kinds in use and those of its types. -/
theorem mem_inputs (h : Compiled logical types ts api) {i : InputObject} :
    i ∈ api.inputs.values ↔ (∃ kind, types.Uses kind ∧ i ∈ (FilterShape.of kind).family) ∨
      ∃ t ∈ ts, i ∈ t.inputs logical := by
  rw [h.values_inputs, (Derive.additions_inputs_perm logical [] _ ts).mem_iff, List.mem_append,
    Derive.families, List.mem_flatMap, List.mem_flatMap]
  simp only [h.merged.uses_iff h.usable]

theorem values_query (h : Compiled logical types ts api) :
    api.query.values = ts.flatMap ClassifiedType.queries := by
  rw [OrderedMap.values, h.query, List.map_map]
  exact List.map_id _

theorem values_mutation (h : Compiled logical types ts api) :
    api.mutation.values = ts.flatMap ClassifiedType.mutations := by
  rw [OrderedMap.values, h.mutation, List.map_map]
  exact List.map_id _

theorem exists_type (h : Compiled logical types ts api) : ∃ t, t ∈ ts := by
  obtain ⟨n, hn⟩ := List.exists_mem_of_ne_nil _ h.nonempty
  rw [← h.merged.map_name_eq h.usable] at hn
  obtain ⟨t, ht, -⟩ := List.mem_map.1 hn
  exact ⟨t, ht⟩

theorem query_ne_nil (h : Compiled logical types ts api) : api.query.values ≠ [] := by
  obtain ⟨t, ht⟩ := h.exists_type
  rw [h.values_query]
  exact List.ne_nil_of_mem (List.mem_flatMap.2 ⟨t, ht, List.mem_cons_self ..⟩)

theorem mutation_ne_nil (h : Compiled logical types ts api) : api.mutation.values ≠ [] := by
  obtain ⟨t, ht⟩ := h.exists_type
  rw [h.values_mutation]
  exact List.ne_nil_of_mem (List.mem_flatMap.2 ⟨t, ht, List.mem_cons_self ..⟩)

theorem roots_eq (h : Compiled logical types ts api) :
    api.roots = [api.root "Query" api.query, api.root "Mutation" api.mutation] := by
  have hfilled : ¬ api.mutation.isEmpty = true := fun hempty => h.mutation_ne_nil
    (List.map_eq_nil_iff.2 (OrderedMap.isEmpty_eq_true_iff.1 hempty))
  rw [Api.roots, if_neg hfilled]

theorem values_enums (h : Compiled logical types ts api) :
    api.enums.values = [Derive.sortDirections] := by
  rw [OrderedMap.values, h.enums]
  rfl

theorem eq_sortDirections (h : Compiled logical types ts api) {e : EnumType}
    (he : e ∈ api.enums.values) : e = Derive.sortDirections := by
  rw [h.values_enums] at he
  exact List.mem_singleton.1 he

theorem keys_enums (h : Compiled logical types ts api) : api.enums.keys = [sortDirection] := by
  rw [OrderedMap.keys, h.enums]
  rfl

theorem inputsNamed (h : Compiled logical types ts api) :
    ∀ e ∈ api.inputs.entries, e.1 = e.2.name := by
  intro e he
  rw [h.inputs] at he
  obtain ⟨i, -, rfl⟩ := List.mem_map.1 he
  rfl

theorem queryNamed (h : Compiled logical types ts api) :
    ∀ e ∈ api.query.entries, e.1 = e.2.name := by
  intro e he
  rw [h.query] at he
  obtain ⟨o, -, rfl⟩ := List.mem_map.1 he
  rfl

theorem mutationNamed (h : Compiled logical types ts api) :
    ∀ e ∈ api.mutation.entries, e.1 = e.2.name := by
  intro e he
  rw [h.mutation] at he
  obtain ⟨o, -, rfl⟩ := List.mem_map.1 he
  rfl

/-- An input is named for a scalar kind or for a declared type. -/
theorem name_of_mem_inputs (h : Compiled logical types ts api) {i : InputObject}
    (hi : i ∈ api.inputs.values) :
    (∃ kind, i.name ∈ familyNames kind) ∨ ∃ n ∈ types.keys, i.name ∈ inputNames n := by
  rcases h.mem_inputs.1 hi with ⟨kind, -, hi⟩ | ⟨t, ht, hi⟩
  · refine .inl ⟨kind, ?_⟩
    rw [← FilterShape.map_name_family]
    exact List.mem_map_of_mem hi
  · refine .inr ⟨t.name, h.name_mem_keys ht, ?_⟩
    rw [← t.map_name_inputs logical]
    exact List.mem_map_of_mem hi

/-! ## Empty inputs -/

theorem entries_filterInput_ne_nil (h : Compiled logical types ts api) {t : ClassifiedType}
    (ht : t ∈ ts) : (t.filterInput logical).fields.entries ≠ [] := by
  have hsound := (h.sound ht).1
  rw [hsound.entries_filterInput (h.clash?_eq_none ht)]
  exact List.append_ne_nil_of_left_ne_nil hsound.filterEntries_ne_nil _

theorem entries_updateInput_ne_nil (h : Compiled logical types ts api) {t : ClassifiedType}
    (ht : t ∈ ts) : t.updateInput.fields.entries ≠ [] := by
  rw [(h.sound ht).1.entries_updateInput]
  exact List.cons_ne_nil _ _

theorem entries_sortInput_eq_nil_iff (h : Compiled logical types ts api) {t : ClassifiedType}
    (ht : t ∈ ts) : t.sortInput.fields.entries = [] ↔ t.nonIdentifierFields = [] := by
  rw [(h.sound ht).1.entries_sortInput, ClassifiedType.sortEntries, List.map_eq_nil_iff]

theorem entries_createInput_eq_nil_iff (h : Compiled logical types ts api) {t : ClassifiedType}
    (ht : t ∈ ts) : t.createInput.fields.entries = [] ↔ t.nonIdentifierFields = [] := by
  rw [(h.sound ht).1.entries_createInput, ClassifiedType.createEntries, List.map_eq_nil_iff]

theorem mem_filledInputs {i : InputObject} :
    i ∈ api.filledInputs ↔ i ∈ api.inputs.values ∧ i.fields.entries ≠ [] := by
  rw [Api.filledInputs, List.mem_filter, Bool.not_eq_true', OrderedMap.isEmpty_eq_false_iff]

theorem family_filled (h : Compiled logical types ts api) {kind : ScalarKind}
    (hkind : types.Uses kind) {i : InputObject} (hi : i ∈ (FilterShape.of kind).family) :
    i ∈ api.filledInputs :=
  mem_filledInputs.2
    ⟨h.mem_inputs.2 (.inl ⟨kind, hkind, hi⟩), (FilterShape.family_sound kind i hi).1⟩

theorem mem_inputs_of_type (h : Compiled logical types ts api) {t : ClassifiedType} (ht : t ∈ ts)
    {i : InputObject} (hi : i ∈ t.inputs logical) : i ∈ api.inputs.values :=
  h.mem_inputs.2 (.inr ⟨t, ht, hi⟩)

theorem filterInput_filled (h : Compiled logical types ts api) {t : ClassifiedType} (ht : t ∈ ts) :
    t.filterInput logical ∈ api.filledInputs :=
  mem_filledInputs.2 ⟨h.mem_inputs_of_type ht (by simp [ClassifiedType.inputs]),
    h.entries_filterInput_ne_nil ht⟩

/-! ## Fields of inputs -/

theorem exists_kind_inputType (c : FieldClass) :
    ∃ kind : ScalarKind, c.inputType.1.innermost? = some kind.name := by
  induction c with
  | identifier => exact ⟨.id, rfl⟩
  | scalar kind nullable => exact ⟨kind, rfl⟩
  | reference typeName nullable => exact ⟨.id, rfl⟩
  | list item nullable ih => exact ih

theorem depth_inputType (c : FieldClass) : c.inputType.1.depth = c.typeRef.depth := by
  induction c with
  | list item nullable ih => exact congrArg (· + 1) ih
  | _ => rfl

/-- A field of an input is named by the library or by a declaration, and what it holds is bound and
no deeper than a list or a declared type. If it is required, it holds a scalar or a list. -/
structure SoundField (types : TypeMap) (api : Api) (e : String × InputField) : Prop where
  name : IsPublic e.1 ∨ types.HasField e.1
  bound : api.IsInput e.2.type
  depth : e.2.type.depth ≤ 1 ∨ types.HasDepth e.2.type.depth
  required : ∀ n, e.2.type = .named n → e.2.nullable = true ∨ ∃ kind : ScalarKind, n = kind.name

theorem SoundField.of_scalar {e : String × InputField} {kind : ScalarKind}
    (hname : IsPublic e.1 ∨ types.HasField e.1) (htype : e.2.type.innermost? = some kind.name)
    (hdepth : e.2.type.depth ≤ 1 ∨ types.HasDepth e.2.type.depth) : SoundField types api e where
  name := hname
  bound := ⟨kind.name, htype, .inl ⟨kind, rfl⟩⟩
  depth := hdepth
  required n hn := by
    rw [hn] at htype
    exact .inr ⟨kind, Option.some.inj htype⟩

theorem uses_of_mem_filterKinds (h : Compiled logical types ts api) {t : ClassifiedType}
    (ht : t ∈ ts) {kind : ScalarKind} (hkind : kind ∈ t.filterKinds) : types.Uses kind :=
  ⟨_, (h.sound ht).2, (h.sound ht).1.mem_filterKinds_iff.1 hkind⟩

theorem hasField_of_mem_fields (h : Compiled logical types ts api) {t : ClassifiedType}
    (ht : t ∈ ts) {x : Field × FieldClass} (hx : x ∈ t.fields) : types.HasField x.1.name :=
  ⟨_, (h.sound ht).2, x.1, (h.sound ht).1.field_mem hx, rfl⟩

theorem hasDepth_inputType (h : Compiled logical types ts api) {t : ClassifiedType} (ht : t ∈ ts)
    {x : Field × FieldClass} (hx : x ∈ t.fields) : types.HasDepth x.2.inputType.1.depth := by
  have hclass := (h.sound ht).1.class_eq hx
  refine ⟨_, (h.sound ht).2, x.1, (h.sound ht).1.field_mem hx, ?_⟩
  rw [depth_inputType, (typeRef_of_classifyRef hclass).1]

theorem hasField_identifier (h : Compiled logical types ts api) {t : ClassifiedType} (ht : t ∈ ts) :
    types.HasField t.identifier := by
  obtain ⟨f, hf, hname, -⟩ := (h.sound ht).1.exists_identifier
  exact ⟨_, (h.sound ht).2, f, hf, hname⟩

theorem soundField_filterInput (h : Compiled logical types ts api) {t : ClassifiedType}
    (ht : t ∈ ts) {e : String × InputField} (he : e ∈ t.allFilterEntries logical) :
    SoundField types api e := by
  rcases List.mem_append.1 he with he | he
  · obtain ⟨x, hx, hentry⟩ := List.mem_filterMap.1 he
    obtain ⟨kind, hkind, rfl⟩ := Option.map_eq_some_iff.1 hentry
    have huses := h.uses_of_mem_filterKinds ht (List.mem_filterMap.2 ⟨x, hx, hkind⟩)
    obtain ⟨i, hi, hname⟩ := FilterShape.exists_scalarFilter kind
    refine ⟨.inr (h.hasField_of_mem_fields ht hx), ⟨_, rfl, .inr (.inr ⟨i, ?_, hname.symm⟩)⟩,
      .inl (Nat.zero_le 1), fun _ _ => .inl rfl⟩
    exact h.family_filled huses hi
  · have hnames : e.2.type = .requiredListOf (filterInput t.name) ∧ IsPublic e.1 := by
      cases logical with
      | false => cases he
      | true =>
        simp only [ClassifiedType.combinatorEntries, if_true, List.mem_cons, List.not_mem_nil,
          or_false] at he
        rcases he with rfl | rfl
        · exact ⟨rfl, show IsPublic "and" by decide⟩
        · exact ⟨rfl, show IsPublic "or" by decide⟩
    obtain ⟨htype, hname⟩ := hnames
    refine ⟨.inl hname, ?_, .inl (htype ▸ Nat.le_refl 1), fun n hn => by rw [htype] at hn; cases hn⟩
    refine ⟨filterInput t.name, by rw [htype]; rfl, .inr (.inr ⟨_, h.filterInput_filled ht, ?_⟩)⟩
    rw [t.filterInput_eq]

/-- **Every field of an input is sound.** -/
theorem soundField (h : Compiled logical types ts api) {i : InputObject}
    (hi : i ∈ api.inputs.values) {e : String × InputField} (he : e ∈ i.fields.entries) :
    SoundField types api e := by
  rcases h.mem_inputs.1 hi with ⟨kind, huses, hi⟩ | ⟨t, ht, hi⟩
  · obtain ⟨hname, htype | ⟨hnullable, j, hj, htype⟩⟩ := (FilterShape.family_sound kind i hi).2 e he
    · exact .of_scalar (.inl hname) (by rw [htype]; rfl) (.inl (htype ▸ Nat.zero_le 1))
    · refine ⟨.inl hname, ⟨j.name, by rw [htype]; rfl, .inr (.inr ⟨j, ?_, rfl⟩)⟩,
        .inl (htype ▸ Nat.zero_le 1), fun _ _ => .inl hnullable⟩
      exact h.family_filled huses hj
  · have hsound := (h.sound ht).1
    have hfield : ∀ x ∈ t.nonIdentifierFields, types.HasField x.1.name := fun x hx =>
      h.hasField_of_mem_fields ht (List.mem_filter.1 hx).1
    have hdepth : ∀ x ∈ t.nonIdentifierFields, types.HasDepth x.2.inputType.1.depth := fun x hx =>
      h.hasDepth_inputType ht (List.mem_filter.1 hx).1
    simp only [ClassifiedType.inputs, List.mem_cons, List.not_mem_nil, or_false] at hi
    rcases hi with rfl | rfl | rfl | rfl
    · rw [hsound.entries_filterInput (h.clash?_eq_none ht)] at he
      exact h.soundField_filterInput ht he
    · rw [hsound.entries_sortInput] at he
      obtain ⟨x, hx, rfl⟩ := List.mem_map.1 he
      refine ⟨.inr (hfield x hx), ⟨sortDirection, rfl, .inr (.inl ?_)⟩, .inl (Nat.zero_le 1),
        fun _ _ => .inl rfl⟩
      rw [h.keys_enums]
      exact List.mem_singleton.2 rfl
    · rw [hsound.entries_createInput] at he
      obtain ⟨x, hx, rfl⟩ := List.mem_map.1 he
      obtain ⟨kind, hkind⟩ := exists_kind_inputType x.2
      exact .of_scalar (.inr (hfield x hx)) hkind (.inr (hdepth x hx))
    · rw [hsound.entries_updateInput] at he
      rcases List.mem_cons.1 he with rfl | he
      · have hid : (TypeRef.scalar .id).innermost? = some ScalarKind.id.name := rfl
        exact .of_scalar (.inr (h.hasField_identifier ht)) hid (.inl (Nat.zero_le 1))
      · obtain ⟨x, hx, rfl⟩ := List.mem_map.1 he
        obtain ⟨kind, hkind⟩ := exists_kind_inputType x.2
        exact .of_scalar (.inr (hfield x hx)) hkind (.inr (hdepth x hx))

/-! ## Operations -/

/-- An argument is named by the library or by a declaration, is in no list, and is bound or left
out. -/
structure SoundArgument (types : TypeMap) (api : Api) (a : Argument) : Prop where
  name : IsPublic a.name ∨ types.HasField a.name
  depth : a.type.depth = 0
  bound : api.leavesOut a.type = true ∨ api.IsInput a.type

/-- An input that is there is bound if it has fields, and else left out. -/
theorem leavesOut_named (h : Compiled logical types ts api) {i : InputObject}
    (hi : i ∈ api.inputs.values) : api.leavesOut (.named i.name) = i.fields.isEmpty := by
  rw [Api.leavesOut, TypeRef.innermost?, Option.any_some,
    OrderedMap.get?_of_mem_values h.inputsNamed hi, Option.any_some]

theorem bound_named (h : Compiled logical types ts api) {i : InputObject}
    (hi : i ∈ api.inputs.values) :
    api.leavesOut (.named i.name) = true ∨ api.IsInput (.named i.name) := by
  by_cases hempty : i.fields.isEmpty = true
  · left
    rw [h.leavesOut_named hi, hempty]
  · right
    have hfilled : i ∈ api.filledInputs := List.mem_filter.2 ⟨hi, by simpa using hempty⟩
    exact ⟨i.name, rfl, .inr (.inr ⟨i, hfilled, rfl⟩)⟩

theorem bound_inputName (h : Compiled logical types ts api) {t : ClassifiedType} (ht : t ∈ ts)
    {n : String} (hn : n ∈ inputNames t.name) :
    api.leavesOut (.named n) = true ∨ api.IsInput (.named n) := by
  rw [← t.map_name_inputs logical] at hn
  obtain ⟨i, hi, rfl⟩ := List.mem_map.1 hn
  exact h.bound_named (h.mem_inputs_of_type ht hi)

/-- What the operations of a type take: scalars and inputs of the type. -/
theorem argument_cases {t : ClassifiedType} {o : Operation} (ho : o ∈ t.queries ++ t.mutations)
    {a : Argument} (ha : a ∈ o.arguments) : (IsPublic a.name ∨ a.name = t.identifier) ∧
      ((∃ kind, a.type = .scalar kind) ∨ ∃ n ∈ inputNames t.name, a.type = .named n) := by
  have hid : ∀ a ∈ [t.identifierArgument], (IsPublic a.name ∨ a.name = t.identifier) ∧
      ((∃ kind, a.type = .scalar kind) ∨ ∃ n ∈ inputNames t.name, a.type = .named n) :=
    List.forall_mem_singleton.2 ⟨.inr rfl, .inl ⟨.id, rfl⟩⟩
  have hlibrary : ∀ n ∈ ["limit", "offset", "filter", "sort", "input"], IsPublic n := by
    decide
  have hinput : ∀ n ∈ ["limit", "offset", "filter", "sort", "input"], ∀ m ∈ inputNames t.name,
      ∀ nullable, ∀ a : Argument, a = ⟨n, .named m, nullable⟩ →
      (IsPublic a.name ∨ a.name = t.identifier) ∧
      ((∃ kind, a.type = .scalar kind) ∨ ∃ n ∈ inputNames t.name, a.type = .named n) := by
    rintro n hn m hm nullable a rfl
    exact ⟨.inl (hlibrary n hn), .inr ⟨m, hm, rfl⟩⟩
  simp only [ClassifiedType.queries, ClassifiedType.mutations, List.mem_append, List.mem_cons,
    List.not_mem_nil, or_false] at ho
  rcases ho with (rfl | rfl) | rfl | rfl | rfl
  · exact hid a ha
  · simp only [ClassifiedType.listQuery, List.mem_cons, List.not_mem_nil, or_false] at ha
    rcases ha with rfl | rfl | rfl | rfl
    · exact ⟨.inl (hlibrary _ (by simp)), .inl ⟨.int, rfl⟩⟩
    · exact ⟨.inl (hlibrary _ (by simp)), .inl ⟨.int, rfl⟩⟩
    · exact hinput _ (by simp) _ (by simp [inputNames]) _ _ rfl
    · exact hinput _ (by simp) _ (by simp [inputNames]) _ _ rfl
  · exact hinput "input" (by simp) _ (by simp [inputNames]) _ a (List.mem_singleton.1 ha)
  · exact hinput "input" (by simp) _ (by simp [inputNames]) _ a (List.mem_singleton.1 ha)
  · exact hid a ha

theorem innermost?_returnType {t : ClassifiedType} {o : Operation}
    (ho : o ∈ t.queries ++ t.mutations) : o.returnType.innermost? = some t.name := by
  simp only [ClassifiedType.queries, ClassifiedType.mutations, List.mem_append, List.mem_cons,
    List.not_mem_nil, or_false] at ho
  rcases ho with (rfl | rfl) | rfl | rfl | rfl <;> rfl

theorem depth_returnType {t : ClassifiedType} {o : Operation}
    (ho : o ∈ t.queries ++ t.mutations) : o.returnType.depth ≤ 1 := by
  simp only [ClassifiedType.queries, ClassifiedType.mutations, List.mem_append, List.mem_cons,
    List.not_mem_nil, or_false] at ho
  rcases ho with (rfl | rfl) | rfl | rfl | rfl
  · exact Nat.zero_le 1
  · exact Nat.le_refl 1
  · exact Nat.zero_le 1
  · exact Nat.zero_le 1
  · exact Nat.zero_le 1

/-- **Every argument of an operation is sound.** -/
theorem soundArgument (h : Compiled logical types ts api) {t : ClassifiedType} (ht : t ∈ ts)
    {o : Operation} (ho : o ∈ t.queries ++ t.mutations) {a : Argument} (ha : a ∈ o.arguments) :
    SoundArgument types api a := by
  obtain ⟨hname, htype⟩ := argument_cases ho ha
  constructor
  · refine hname.imp_right fun hid => ?_
    rw [hid]
    exact h.hasField_identifier ht
  · rcases htype with ⟨kind, htype⟩ | ⟨n, hn, htype⟩ <;> rw [htype] <;> rfl
  · rcases htype with ⟨kind, htype⟩ | ⟨n, hn, htype⟩
    · exact .inr ⟨kind.name, by rw [htype]; rfl, .inl ⟨kind, rfl⟩⟩
    · rw [htype]
      exact h.bound_inputName ht hn

/-- Every operation is one of a type, and named for it. -/
theorem exists_type_of_operation (h : Compiled logical types ts api) {o : Operation}
    (ho : o ∈ api.query.values ++ api.mutation.values) :
    ∃ t ∈ ts, o ∈ t.queries ++ t.mutations ∧
      (o.name ∈ queryNames t.name ∨ o.name ∈ mutationNames t.name) := by
  rw [h.values_query, h.values_mutation] at ho
  rcases List.mem_append.1 ho with ho | ho
  · obtain ⟨t, ht, ho⟩ := List.mem_flatMap.1 ho
    exact ⟨t, ht, List.mem_append_left _ ho, .inl (List.mem_map_of_mem (f := Operation.name) ho)⟩
  · obtain ⟨t, ht, ho⟩ := List.mem_flatMap.1 ho
    exact ⟨t, ht, List.mem_append_right _ ho, .inr (List.mem_map_of_mem (f := Operation.name) ho)⟩

/-! ## Bindings -/

theorem typeNames_eq (h : Compiled logical types ts api) :
    api.typeNames = types.keys ++ [sortDirection] ++ api.inputs.keys := by
  rw [Api.typeNames, h.objects, h.keys_enums]

theorem keys_inputs (h : Compiled logical types ts api) :
    api.inputs.keys = api.inputs.values.map InputObject.name :=
  OrderedMap.keys_eq_map_values h.inputsNamed

theorem endsInInput (h : Compiled logical types ts api) {i : InputObject}
    (hi : i ∈ api.inputs.values) : EndsInInput i.name := by
  rcases h.name_of_mem_inputs hi with ⟨kind, hn⟩ | ⟨n, -, hn⟩
  · exact endsInInput_of_mem_familyNames hn
  · exact endsInInput_of_mem_inputNames hn

/-- Types are declared ones, the sort directions and the derived inputs. -/
theorem typeNames_cases (h : Compiled logical types ts api) {n : String}
    (hn : n ∈ api.typeNames) :
    n ∈ types.keys ∨ n = sortDirection ∨ ∃ i ∈ api.inputs.values, i.name = n := by
  rw [h.typeNames_eq, h.keys_inputs, List.append_assoc] at hn
  rcases List.mem_append.1 hn with hkey | hn
  · exact .inl hkey
  · rcases List.mem_append.1 hn with hsort | hinput
    · exact .inr (.inl (List.mem_singleton.1 hsort))
    · exact .inr (.inr (List.mem_map.1 hinput))

/-- Declared and derived types have distinct names, and none that of a scalar. -/
theorem nodup_typeNames (h : Compiled logical types ts api) :
    (ScalarKind.all.map ScalarKind.name ++ api.typeNames).Nodup := by
  have hts : ts ≠ [] := by
    rintro rfl
    exact h.nonempty (by rw [← h.merged.map_name_eq h.usable]; rfl)
  have hfree := h.fits.free
  have hdistinct := h.fits.distinct
  simp only [Addition.typeNames, Draft.taken_start, ← h.values_inputs, ← h.keys_inputs,
    Derive.additions_enums hts, List.map_cons, List.map_nil] at hfree hdistinct
  have hderived : ([sortDirection] ++ api.inputs.keys).Nodup :=
    List.perm_append_comm.nodup_iff.1 hdistinct
  rw [h.typeNames_eq, List.append_assoc, List.nodup_append, List.nodup_append]
  refine ⟨by decide, ⟨types.nodup_keys, hderived, ?_⟩, ?_⟩
  · intro n hn m hm hnm
    subst hnm
    exact hfree n (List.mem_append.2 (List.mem_append.1 hm).symm) hn
  · intro n hn m hm hnm
    subst hnm
    obtain ⟨kind, -, rfl⟩ := List.mem_map.1 hn
    rcases List.mem_append.1 hm with hm | hm
    · exact h.merged.ne_scalar hm kind rfl
    · rcases List.mem_append.1 hm with hm | hm
      · revert hm
        cases kind <;> decide
      · rw [h.keys_inputs] at hm
        obtain ⟨i, hi, hname⟩ := List.mem_map.1 hm
        exact not_endsInInput_scalar kind (hname ▸ h.endsInInput hi)

end Compiled

/-- The declared names can be used in a schema. -/
structure TypeMap.Legal (types : TypeMap) : Prop where
  names : ∀ n ∈ types.keys, Catalogue.checkTypeName n = .ok ()
  fields : ∀ n, types.HasField n → IsName n

/-- The declared names are public. -/
structure TypeMap.Public (types : TypeMap) : Prop where
  names : ∀ n ∈ types.keys, IsPublic n
  fields : ∀ n, types.HasField n → IsPublic n

theorem TypeMap.public_of_names {types : TypeMap} (hnames : ∀ n ∈ types.keys, IsPublic n)
    (hfields : ∀ d ∈ types.values, ∀ f ∈ d.fields, IsPublic f.name) : types.Public where
  names := hnames
  fields := by
    rintro n ⟨d, hd, f, hf, rfl⟩
    exact hfields d hd f hf

theorem checkTypeName_eq_ok_iff {n : String} :
    Catalogue.checkTypeName n = .ok () ↔ n ∉ Catalogue.reservedTypes ∧ IsName n := by
  rw [Catalogue.checkTypeName, ← checkName_eq_ok_iff]
  by_cases hn : n ∈ Catalogue.reservedTypes
  · simp [hn]
  · rcases checkName n with e | ⟨⟩ <;> simp [hn, Except.mapError]

theorem Merged.legal_of_public {types : TypeMap} (hm : Merged types) (h : types.Public) :
    types.Legal where
  names n hn := by
    refine checkTypeName_eq_ok_iff.2 ⟨fun hreserved => ?_, (h.names n hn).isName⟩
    rcases List.mem_append.1 hreserved with hscalar | hintrospection
    · obtain ⟨kind, -, rfl⟩ := List.mem_map.1 hscalar
      exact hm.ne_scalar hn kind rfl
    · exact (h.names n hn).not_mem_introspectionTypes hintrospection
  fields n hn := (h.fields n hn).isName

namespace Compiled

variable {logical : Bool} {types : TypeMap} {ts : List ClassifiedType} {api : Api}

/-- A derived input has a legal name. -/
theorem legal_input (h : Compiled logical types ts api)
    (hlegal : ∀ n ∈ types.keys, Catalogue.checkTypeName n = .ok ()) {i : InputObject}
    (hi : i ∈ api.inputs.values) : Catalogue.checkTypeName i.name = .ok () := by
  have hreserved : ∀ n ∈ Catalogue.reservedTypes, ¬ EndsInInput n := by
    unfold EndsInInput
    decide
  refine checkTypeName_eq_ok_iff.2 ⟨fun hmem => hreserved _ hmem (h.endsInInput hi), ?_⟩
  rcases h.name_of_mem_inputs hi with ⟨kind, hn⟩ | ⟨n, hkey, hn⟩
  · exact (isPublic_of_mem_familyNames hn).isName
  · exact isName_of_mem_inputNames (checkTypeName_eq_ok_iff.1 (hlegal n hkey)).2 hn

/-- **The names of the API stand for one thing each.** -/
theorem catalogued (h : Compiled logical types ts api)
    (hlegal : ∀ n ∈ types.keys, Catalogue.checkTypeName n = .ok ()) : api.Catalogued where
  objectsNamed := h.objects ▸ h.merged.named
  enumsNamed := by
    rw [h.enums]
    simp [Derive.sortDirections]
  inputsNamed := h.inputsNamed
  distinct := h.nodup_typeNames
  legal n hn := by
    rcases h.typeNames_cases hn with hkey | rfl | ⟨i, hi, rfl⟩
    · exact hlegal n hkey
    · decide
    · exact h.legal_input hlegal hi
  enums e he := by
    obtain rfl := h.eq_sortDirections he
    decide

/-- **The API of a map with legal names is closed.** -/
theorem closed (h : Compiled logical types ts api) (hlegal : types.Legal) : api.Closed where
  toCatalogued := h.catalogued hlegal.names
  queryNamed := h.queryNamed
  mutationNamed := h.mutationNamed
  objects d hd f hf := by
    rw [h.objects] at hd ⊢
    obtain ⟨t, ht, rfl⟩ := exists_type_of_usable h.usable hd
    have hsupported := (classifyType_succeeds_iff.1 ⟨t, (h.sound ht).1.classified⟩).2
    exact ⟨hlegal.fields _ ⟨_, hd, f, hf, rfl⟩, hsupported f hf⟩
  inputs i hi e he := by
    have hsound := h.soundField hi he
    exact ⟨hsound.name.elim IsPublic.isName (hlegal.fields _), hsound.bound⟩
  operations o ho := by
    obtain ⟨t, ht, hot, hname⟩ := h.exists_type_of_operation ho
    have hkey := h.name_mem_keys ht
    have hlegalName := (checkTypeName_eq_ok_iff.1 (hlegal.names _ hkey)).2
    refine ⟨?_, ⟨t.name, innermost?_returnType hot, .inr (by rwa [h.objects])⟩, fun a ha => ?_⟩
    · rcases hname with hname | hname
      · exact isName_of_mem_queryNames hlegalName hname
      · exact (isPublic_of_mem_mutationNames hlegalName hname).isName
    · have hsound := h.soundArgument ht hot ha
      exact ⟨hsound.name.elim IsPublic.isName (hlegal.fields _), hsound.bound⟩

/-- **The API of a map with public names is proper.** -/
theorem proper (h : Compiled logical types ts api) (hpublic : types.Public) : api.Proper where
  toClosed := h.closed (h.merged.legal_of_public hpublic)
  rootsFree := by
    have hother : ∀ n ∈ ["Query", "Mutation"],
        n ∈ reservedNames ∧ n ≠ sortDirection ∧ ¬ EndsInInput n := by
      unfold EndsInInput
      decide
    have hfree : ∀ n ∈ ["Query", "Mutation"], n ∉ api.typeNames := by
      intro n hn hmem
      obtain ⟨hreserved, hsort, hends⟩ := hother n hn
      rcases h.typeNames_cases hmem with hkey | rfl | ⟨i, hi, rfl⟩
      · exact h.merged.not_mem_reservedNames hkey hreserved
      · exact hsort rfl
      · exact hends (h.endsInInput hi)
    exact ⟨hfree _ (by simp), hfree _ (by simp)⟩
  typesPublic n hn := by
    rcases h.typeNames_cases hn with hkey | rfl | ⟨i, hi, rfl⟩
    · exact hpublic.names n hkey
    · exact isPublic_sortDirection
    · rcases h.name_of_mem_inputs hi with ⟨kind, hn⟩ | ⟨n, hkey, hn⟩
      · exact isPublic_of_mem_familyNames hn
      · exact isPublic_of_mem_inputNames (hpublic.names n hkey) hn
  objectsFilled d hd := by
    rw [h.objects] at hd
    obtain ⟨t, ht, rfl⟩ := exists_type_of_usable h.usable hd
    obtain ⟨f, hf, -⟩ := (h.sound ht).1.exists_identifier
    exact List.ne_nil_of_mem hf
  objectsPublic d hd f hf := by
    rw [h.objects] at hd
    exact hpublic.fields _ ⟨d, hd, f, hf, rfl⟩
  enumsFilled e he := by
    obtain rfl := h.eq_sortDirections he
    decide
  enumsPublic e he := by
    obtain rfl := h.eq_sortDirections he
    decide
  inputsPublic i hi e he := (h.soundField hi he).name.elim id (hpublic.fields _)
  required i hi e he := (h.soundField hi he).required
  queryFilled := h.query_ne_nil
  operationsPublic o ho := by
    obtain ⟨t, ht, hot, hname⟩ := h.exists_type_of_operation ho
    have hkey := hpublic.names _ (h.name_mem_keys ht)
    refine ⟨?_, fun a ha => (h.soundArgument ht hot ha).name.elim id (hpublic.fields _)⟩
    rcases hname with hname | hname
    · exact isPublic_of_mem_queryNames hkey hname
    · exact isPublic_of_mem_mutationNames hkey.isName hname

end Compiled

end CrudSchema
