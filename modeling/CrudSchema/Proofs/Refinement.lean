import CrudSchema.Proofs.Content
import CrudSchema.Schema.Printer

/-!
# A schema is its API without the empty inputs

**Bare types** (`TypeMap.isBare`). A type that has nothing but its identifier gives nothing to sort
by or to create from. Its sort and its create input are empty, and so the list query has no `sort`
and the create mutation no `input` (`leavesOut_sortInput`, `leavesOut_createInput`). Nothing else is
left out.

**Reachability** (`Compiled.input_mem`, `Compiled.enum_mem_iff`). Every input with fields is
reached: those of a type from the roots, those of a scalar kind from the filter input of a type that
uses it. The enum of sort directions is reached exactly if there is something to sort by.

Main results: `assemble_succeeds`, and `assemble_exact` with all that the schema holds.
-/

namespace CrudSchema

open Schema Naming

/-! ## Bare types -/

/-- The declaration has nothing but its identifier. -/
def Declaration.isBare (d : Declaration) : Bool := d.fields.all Field.isIdentifier

/-- The named type has nothing but its identifier. -/
def TypeMap.isBare (types : TypeMap) (n : String) : Bool := (types.get? n).any Declaration.isBare

/-- An operation without the argument that a bare type has no input for. -/
def Operation.without (types : TypeMap) (operation argument : String) (o : Operation) : Operation :=
  if types.isBare o.typeName && o.name = operation then
    { o with arguments := o.arguments.filter fun a => a.name ≠ argument }
  else o

namespace Compiled

variable {logical : Bool} {types : TypeMap} {ts : List ClassifiedType} {api : Api} {s : Schema}

theorem nonIdentifierFields_eq_nil_iff (h : Compiled logical types ts api) {t : ClassifiedType}
    (ht : t ∈ ts) : t.nonIdentifierFields = [] ↔ t.declaration.isBare = true := by
  have hsound := (h.sound ht).1
  rw [← List.map_eq_nil_iff (f := Prod.fst), hsound.map_fst_nonIdentifierFields,
    Declaration.otherFields, List.filter_eq_nil_iff, Declaration.isBare, List.all_eq_true]
  simp

theorem isBare_iff (h : Compiled logical types ts api) {t : ClassifiedType} (ht : t ∈ ts) :
    types.isBare t.name = true ↔ t.nonIdentifierFields = [] := by
  have hget : types.get? t.name = some t.declaration :=
    OrderedMap.get?_of_mem_values h.merged.named (h.sound ht).2
  rw [h.nonIdentifierFields_eq_nil_iff ht, TypeMap.isBare, hget, Option.any_some]

/-! ## What is left out -/

theorem leavesOut_of_inputs (h : Compiled logical types ts api) {t : ClassifiedType} (ht : t ∈ ts)
    {i : InputObject} (hi : i ∈ t.inputs logical) {n : String} (hn : i.name = n) :
    api.leavesOut (.named n) = i.fields.isEmpty :=
  hn ▸ h.leavesOut_named (h.mem_inputs_of_type ht hi)

theorem leavesOut_filterInput (h : Compiled logical types ts api) {t : ClassifiedType}
    (ht : t ∈ ts) : api.leavesOut (.named (filterInput t.name)) = false := by
  rw [h.leavesOut_of_inputs ht (i := t.filterInput logical) (by simp [ClassifiedType.inputs])
    (by rw [t.filterInput_eq])]
  exact OrderedMap.isEmpty_eq_false_iff.2 (h.entries_filterInput_ne_nil ht)

theorem leavesOut_updateInput (h : Compiled logical types ts api) {t : ClassifiedType}
    (ht : t ∈ ts) : api.leavesOut (.named (updateInput t.name)) = false := by
  rw [h.leavesOut_of_inputs ht (i := t.updateInput) (by simp [ClassifiedType.inputs])
    (by rw [t.updateInput_eq])]
  exact OrderedMap.isEmpty_eq_false_iff.2 (h.entries_updateInput_ne_nil ht)

theorem leavesOut_sortInput (h : Compiled logical types ts api) {t : ClassifiedType}
    (ht : t ∈ ts) : api.leavesOut (.named (sortInput t.name)) = types.isBare t.name := by
  rw [h.leavesOut_of_inputs ht (i := t.sortInput) (by simp [ClassifiedType.inputs])
    (by rw [t.sortInput_eq]), Bool.eq_iff_iff, OrderedMap.isEmpty_eq_true_iff,
    h.entries_sortInput_eq_nil_iff ht, h.isBare_iff ht]

theorem leavesOut_createInput (h : Compiled logical types ts api) {t : ClassifiedType}
    (ht : t ∈ ts) : api.leavesOut (.named (createInput t.name)) = types.isBare t.name := by
  rw [h.leavesOut_of_inputs ht (i := t.createInput) (by simp [ClassifiedType.inputs])
    (by rw [t.createInput_eq]), Bool.eq_iff_iff, OrderedMap.isEmpty_eq_true_iff,
    h.entries_createInput_eq_nil_iff ht, h.isBare_iff ht]

theorem leavesOut_scalar (hc : api.Closed) (kind : ScalarKind) :
    api.leavesOut (.scalar kind) = false :=
  Api.leavesOut_eq_false hc.toCatalogued ⟨kind.name, rfl, .inl ⟨kind, rfl⟩⟩

/-- Of the queries of a type only the list query can lose an argument. -/
theorem kept_query (h : Compiled logical types ts api) (hc : api.Closed) {t : ClassifiedType}
    (ht : t ∈ ts) {o : Operation} (ho : o ∈ t.queries) :
    { o with arguments := o.arguments.filter fun a => !api.leavesOut a.type } =
      o.without types (listQuery o.typeName) "sort" := by
  have hid := leavesOut_scalar hc .id
  have hint := leavesOut_scalar hc .int
  have hfilter := h.leavesOut_filterInput ht
  have hsort := h.leavesOut_sortInput ht
  have hname : singleQuery t.name ≠ listQuery t.name := (append_s_ne _).symm
  simp only [ClassifiedType.queries, List.mem_cons, List.not_mem_nil, or_false] at ho
  rcases ho with rfl | rfl
  · simp [Operation.without, ClassifiedType.singleQuery, ClassifiedType.identifierArgument, hid,
      hname]
  · cases hbare : types.isBare t.name <;> rw [hbare] at hsort
    · simp [Operation.without, ClassifiedType.listQuery, hint, hfilter, hsort, hbare]
    · simp [Operation.without, ClassifiedType.listQuery, hint, hfilter, hsort, hbare]

/-- Of the mutations of a type only the create mutation can lose an argument. -/
theorem kept_mutation (h : Compiled logical types ts api) (hc : api.Closed) {t : ClassifiedType}
    (ht : t ∈ ts) {o : Operation} (ho : o ∈ t.mutations) :
    { o with arguments := o.arguments.filter fun a => !api.leavesOut a.type } =
      o.without types (createMutation o.typeName) "input" := by
  have hid := leavesOut_scalar hc .id
  have hcreate := h.leavesOut_createInput ht
  have hupdate := h.leavesOut_updateInput ht
  have hdistinct := mutationNames_nodup t.name
  simp only [mutationNames, List.nodup_cons, List.mem_cons, List.not_mem_nil, or_false,
    not_or] at hdistinct
  obtain ⟨⟨hcu, hcd⟩, -⟩ := hdistinct
  simp only [ClassifiedType.mutations, List.mem_cons, List.not_mem_nil, or_false] at ho
  rcases ho with rfl | rfl | rfl
  · cases hbare : types.isBare t.name <;> rw [hbare] at hcreate
    · simp [Operation.without, ClassifiedType.createMutation, hcreate, hbare]
    · simp [Operation.without, ClassifiedType.createMutation, hcreate, hbare]
  · simp [Operation.without, ClassifiedType.updateMutation, hupdate, Ne.symm hcu]
  · simp [Operation.without, ClassifiedType.deleteMutation, ClassifiedType.identifierArgument, hid,
      Ne.symm hcd]

/-! ## Fields of the roots -/

theorem nodup_arguments {t : ClassifiedType} {o : Operation} (ho : o ∈ t.queries ++ t.mutations) :
    (o.arguments.map Argument.name).Nodup := by
  simp only [ClassifiedType.queries, ClassifiedType.mutations, List.mem_append, List.mem_cons,
    List.not_mem_nil, or_false] at ho
  rcases ho with (rfl | rfl) | rfl | rfl | rfl
  · exact List.nodup_singleton _
  · show ["limit", "offset", "filter", "sort"].Nodup
    decide
  · exact List.nodup_singleton _
  · exact List.nodup_singleton _
  · exact List.nodup_singleton _

theorem entries_arguments {o : Operation} (h : (o.arguments.map Argument.name).Nodup) :
    (api.toField o).arguments.entries =
      (o.arguments.filter fun a => !api.leavesOut a.type).map
        fun a => (a.name, a.type.wrapped a.nullable) := by
  refine OrderedMap.entries_ofList ?_
  rw [List.map_map]
  exact h.sublist (List.filter_sublist.map _)

theorem entries_root {operations : NameMap Operation}
    (hnamed : ∀ e ∈ operations.entries, e.1 = e.2.name) (name : String) :
    (api.root name operations).fields.entries =
      operations.values.map fun o => (o.name, api.toField o) := by
  refine OrderedMap.entries_ofList ?_
  rw [List.map_map]
  exact OrderedMap.keys_eq_map_values hnamed ▸ operations.nodup_keys

end Compiled

/-! ## Written types -/

/-- The fields with their written types. -/
def ObjectType.fieldTypes (o : ObjectType) : List (String × String) :=
  o.fields.entries.map fun (name, f) => (name, f.type.render)

/-- The fields with their written types. -/
def InputType.fieldTypes (i : InputType) : List (String × String) :=
  i.fields.entries.map fun (name, f) => (name, f.type.render)

theorem Declaration.fieldTypes_toObject {d : Declaration} (h : d.fieldNames.Nodup) :
    d.toObject.fieldTypes = d.fields.map fun f => (f.name, renderType f.type f.nullable) := by
  rw [ObjectType.fieldTypes, Declaration.entries_toObject h, List.map_map]
  exact List.map_congr_left fun f _ => congrArg (f.name, ·) (f.type.render_wrapped f.nullable)

theorem InputObject.fieldTypes_toInput (i : InputObject) : i.toInput.fieldTypes = i.fieldTypes := by
  have hentries : i.toInput.fields.entries = i.fields.entries.map fun e => (e.1, e.2.wrapped) := rfl
  rw [InputType.fieldTypes, hentries, List.map_map]
  exact List.map_congr_left fun e _ => congrArg (e.1, ·) (e.2.type.render_wrapped e.2.nullable)

/-- The field is written as the signature of the operation, below its description. -/
def PrintsAs (field : String × OutputField) (o : Operation) : Prop :=
  field.1 = o.name ∧ ∀ first, printField first field =
    printDescription o.description indent first ++ indent ++ o.signature.toList

namespace Compiled

variable {logical : Bool} {types : TypeMap} {ts : List ClassifiedType} {api : Api} {s : Schema}

theorem printsAs_toField {o : Operation} (h : (o.arguments.map Argument.name).Nodup) :
    PrintsAs (o.name, api.toField o)
      { o with arguments := o.arguments.filter fun a => !api.leavesOut a.type } := by
  refine ⟨rfl, fun first => ?_⟩
  have hempty : (api.toField o).arguments.isEmpty =
      (o.arguments.filter fun a => !api.leavesOut a.type).isEmpty := by
    rw [OrderedMap.isEmpty, entries_arguments h, List.isEmpty_map]
  have harguments : printArguments (api.toField o).arguments =
      if (o.arguments.filter fun a => !api.leavesOut a.type).isEmpty then ""
      else "(" ++ ", ".intercalate
        ((o.arguments.filter fun a => !api.leavesOut a.type).map Argument.render) ++ ")" := by
    rw [printArguments, hempty, entries_arguments h, List.map_map]
    congr 4
    exact List.map_congr_left fun a _ => printTyped_wrapped a.name a.type a.nullable
  show printDescription _ indent first ++ indent ++ (_ ++ ": " ++ WrappedType.render _).toList = _
  rw [harguments, Api.toField, TypeRef.render_wrapped]
  rfl

/-- The fields of a root are written as the operations without what is left out. -/
theorem prints_root {operations : NameMap Operation} {keep : Operation → Operation}
    (hnamed : ∀ e ∈ operations.entries, e.1 = e.2.name) (name : String)
    (hkeep : ∀ o ∈ operations.values, (o.arguments.map Argument.name).Nodup ∧
      { o with arguments := o.arguments.filter fun a => !api.leavesOut a.type } = keep o) :
    List.Forall₂ (fun field o => PrintsAs field (keep o))
      (api.root name operations).fields.entries operations.values := by
  rw [entries_root hnamed, List.forall₂_map_left_iff, List.forall₂_same]
  intro o ho
  obtain ⟨hnodup, hkept⟩ := hkeep o ho
  rw [← hkept]
  exact printsAs_toField hnodup

/-! ## Reachability -/

theorem mem_references_toInput {i : InputObject} {n : String} :
    n ∈ (NamedType.input i.toInput).references ↔
      ∃ e ∈ i.fields.entries, (e.2.type.wrapped e.2.nullable).innermost = n := by
  rw [mem_references_input]
  constructor
  · rintro ⟨entry, hentry, hn⟩
    obtain ⟨e, he, rfl⟩ := List.mem_map.1 hentry
    exact ⟨e, he, hn⟩
  · rintro ⟨e, he, hn⟩
    exact ⟨_, List.mem_map_of_mem he, hn⟩

/-- A root refers to the types of the arguments that are kept. -/
theorem mem_references_root {operations : NameMap Operation}
    (hnamed : ∀ e ∈ operations.entries, e.1 = e.2.name) (name : String) {o : Operation}
    (ho : o ∈ operations.values) (hnodup : (o.arguments.map Argument.name).Nodup) {a : Argument}
    (ha : a ∈ o.arguments) (hkept : api.leavesOut a.type = false) {n : String}
    (hn : a.type.innermost? = some n) :
    n ∈ (NamedType.object (api.root name operations)).references := by
  have hfield : (o.name, api.toField o) ∈ (api.root name operations).fields.entries := by
    rw [entries_root hnamed]
    exact List.mem_map_of_mem ho
  refine mem_references_object.2 ⟨_, hfield, List.mem_cons_of_mem _ ?_⟩
  refine List.mem_map.2 ⟨a.type.wrapped a.nullable, OrderedMap.mem_values.2 ⟨a.name, ?_⟩,
    TypeRef.innermost_wrapped hn _⟩
  rw [entries_arguments hnodup]
  exact List.mem_map_of_mem (f := fun a : Argument => (a.name, a.type.wrapped a.nullable))
    (List.mem_filter.2 ⟨ha, by rw [hkept]; rfl⟩)

/-- An input with fields is reached if something that is there refers to it. -/
theorem reached (hs : api.Assembled s) {u : NamedType} (hu : u ∈ s.types) {i : InputObject}
    (hi : i ∈ api.filledInputs) (href : i.name ∈ u.references) : .input i.toInput ∈ s.types :=
  hs.closed u hu _ href (.input i)
    (Api.mem_definitions.2 (.inr (.inr (.inr ⟨i, hi, rfl, rfl⟩)))) rfl

/-- An input with fields is reached if an operation takes it. -/
theorem input_mem_of_argument (h : Compiled logical types ts api) (hc : api.Closed)
    (hs : api.Assembled s) {t : ClassifiedType} (ht : t ∈ ts) {o : Operation}
    (ho : o ∈ t.queries ++ t.mutations) {a : Argument} (ha : a ∈ o.arguments) {i : InputObject}
    (hi : i ∈ api.filledInputs) (htype : a.type = .named i.name) : .input i.toInput ∈ s.types := by
  obtain ⟨hmem, hfilled⟩ := mem_filledInputs.1 hi
  have hkept : api.leavesOut a.type = false := by
    rw [htype, h.leavesOut_named hmem]
    exact OrderedMap.isEmpty_eq_false_iff.2 hfilled
  have hn : a.type.innermost? = some i.name := by rw [htype]; rfl
  have hroot : ∀ root ∈ [api.root "Query" api.query, api.root "Mutation" api.mutation],
      .object root ∈ s.types := by
    intro root hroot
    rw [← h.roots_eq] at hroot
    exact hs.mem_objects.2 (.inr hroot)
  rcases List.mem_append.1 ho with hq | hm
  · have hquery : o ∈ api.query.values := by
      rw [h.values_query]
      exact List.mem_flatMap.2 ⟨t, ht, hq⟩
    refine reached hs (hroot (api.root "Query" api.query) (by simp)) hi ?_
    exact mem_references_root hc.queryNamed "Query" hquery (nodup_arguments ho) ha hkept hn
  · have hmutation : o ∈ api.mutation.values := by
      rw [h.values_mutation]
      exact List.mem_flatMap.2 ⟨t, ht, hm⟩
    refine reached hs (hroot (api.root "Mutation" api.mutation) (by simp)) hi ?_
    exact mem_references_root hc.mutationNamed "Mutation" hmutation (nodup_arguments ho) ha hkept hn

/-- The inputs of a type are reached from the roots. -/
theorem input_mem_of_type (h : Compiled logical types ts api) (hc : api.Closed)
    (hs : api.Assembled s) {t : ClassifiedType} (ht : t ∈ ts) {i : InputObject}
    (hi : i ∈ t.inputs logical) (hfilled : i.fields.entries ≠ []) :
    .input i.toInput ∈ s.types := by
  have hi' : i ∈ api.filledInputs := mem_filledInputs.2 ⟨h.mem_inputs_of_type ht hi, hfilled⟩
  have hlist : t.listQuery ∈ t.queries ++ t.mutations := by simp [ClassifiedType.queries]
  have hcreate : t.createMutation ∈ t.queries ++ t.mutations := by simp [ClassifiedType.mutations]
  have hupdate : t.updateMutation ∈ t.queries ++ t.mutations := by simp [ClassifiedType.mutations]
  simp only [ClassifiedType.inputs, List.mem_cons, List.not_mem_nil, or_false] at hi
  rcases hi with rfl | rfl | rfl | rfl
  · refine h.input_mem_of_argument hc hs ht hlist
      (show ⟨"filter", .named (filterInput t.name), true⟩ ∈ t.listQuery.arguments by
        simp [ClassifiedType.listQuery]) hi' ?_
    rw [t.filterInput_eq]
  · refine h.input_mem_of_argument hc hs ht hlist
      (show ⟨"sort", .named (sortInput t.name), true⟩ ∈ t.listQuery.arguments by
        simp [ClassifiedType.listQuery]) hi' ?_
    rw [t.sortInput_eq]
  · refine h.input_mem_of_argument hc hs ht hcreate (List.mem_singleton.2 rfl) hi' ?_
    rw [t.createInput_eq]
  · refine h.input_mem_of_argument hc hs ht hupdate (List.mem_singleton.2 rfl) hi' ?_
    rw [t.updateInput_eq]

end Compiled

/-- Within a family everything is reached from the filter input in two steps at most. -/
theorem FilterShape.family_reached (kind : ScalarKind) : ∀ i ∈ (of kind).family,
    i.name = scalarFilter kind ∨ ∃ j ∈ (of kind).family,
      i.name ∈ (NamedType.input j.toInput).references ∧ (j.name = scalarFilter kind ∨
        ∃ k ∈ (of kind).family, j.name ∈ (NamedType.input k.toInput).references ∧
          k.name = scalarFilter kind) := by
  cases kind <;> decide

namespace Compiled

variable {logical : Bool} {types : TypeMap} {ts : List ClassifiedType} {api : Api} {s : Schema}

/-- The filter input of a kind in use is reached from the filter input of a type that uses it. -/
theorem scalarFilter_mem (h : Compiled logical types ts api) (hc : api.Closed)
    (hs : api.Assembled s) {kind : ScalarKind} (huses : types.Uses kind) {i : InputObject}
    (hi : i ∈ (FilterShape.of kind).family) (hname : i.name = scalarFilter kind) :
    .input i.toInput ∈ s.types := by
  obtain ⟨d, hd, f, hf, htype⟩ := huses
  obtain ⟨t, ht, rfl⟩ := exists_type_of_usable h.usable hd
  have hsound := (h.sound ht).1
  obtain ⟨x, hx, hkind⟩ := List.mem_filterMap.1 (hsound.mem_filterKinds_iff.2 ⟨f, hf, htype⟩)
  have hfilter := h.input_mem_of_type hc hs ht (i := t.filterInput logical)
    (by simp [ClassifiedType.inputs]) (h.entries_filterInput_ne_nil ht)
  refine reached hs hfilter (h.family_filled ⟨_, hd, f, hf, htype⟩ hi) ?_
  refine mem_references_toInput.2 ⟨(x.1.name, { type := .named (scalarFilter kind) }), ?_, ?_⟩
  · rw [hsound.entries_filterInput (h.clash?_eq_none ht)]
    refine List.mem_append_left _ (List.mem_filterMap.2 ⟨x, hx, ?_⟩)
    rw [show x.2.kind? = some kind from hkind]
    rfl
  · rw [hname]
    rfl

/-- **Every input with fields is reached.** -/
theorem input_mem (h : Compiled logical types ts api) (hc : api.Closed) (hs : api.Assembled s)
    {i : InputObject} (hi : i ∈ api.filledInputs) : .input i.toInput ∈ s.types := by
  obtain ⟨hmem, hfilled⟩ := mem_filledInputs.1 hi
  rcases h.mem_inputs.1 hmem with ⟨kind, huses, hi⟩ | ⟨t, ht, hi⟩
  · rcases FilterShape.family_reached kind i hi with
      hname | ⟨j, hj, hij, hname | ⟨k, hk, hjk, hname⟩⟩
    · exact h.scalarFilter_mem hc hs huses hi hname
    · exact reached hs (h.scalarFilter_mem hc hs huses hj hname) (h.family_filled huses hi) hij
    · have hj' :=
        reached hs (h.scalarFilter_mem hc hs huses hk hname) (h.family_filled huses hj) hjk
      exact reached hs hj' (h.family_filled huses hi) hij
  · exact h.input_mem_of_type hc hs ht hi hfilled

theorem sortDirection_not_mem (h : Compiled logical types ts api) :
    sortDirection ∉ types.keys ∧ ∀ kind : ScalarKind, sortDirection ≠ kind.name := by
  refine ⟨fun hkey => ?_, fun kind => by cases kind <;> decide⟩
  have hnodup := (List.nodup_append.1 h.nodup_typeNames).2.1
  rw [h.typeNames_eq, List.append_assoc, List.nodup_append] at hnodup
  exact hnodup.2.2 _ hkey _ (List.mem_append_left _ (List.mem_singleton.2 rfl)) rfl

/-- What leads to the sort directions leads to no derived input. -/
theorem not_endsInInput_of_sortDirection {type : TypeRef} {n : String}
    (hsort : type.innermost? = some sortDirection) (hn : type.innermost? = some n) :
    ¬ EndsInInput n := by
  rw [hsort, Option.some.injEq] at hn
  exact hn ▸ not_endsInInput_sortDirection

/-- No input of a family holds sort directions. -/
theorem not_holds_sortDirection_of_family {kind : ScalarKind} {i : InputObject}
    (hi : i ∈ (FilterShape.of kind).family) {e : String × InputField}
    (he : e ∈ i.fields.entries) : e.2.type.innermost? ≠ some sortDirection := by
  intro hn
  obtain ⟨-, htype | ⟨-, j, hj, htype⟩⟩ := (FilterShape.family_sound kind i hi).2 e he
  · rw [htype] at hn
    have hscalar := Option.some.inj hn
    revert hscalar
    cases kind <;> decide
  · have hname : j.name ∈ familyNames kind := by
      rw [← FilterShape.map_name_family]
      exact List.mem_map_of_mem hj
    exact not_endsInInput_of_sortDirection hn (n := j.name) (by rw [htype]; rfl)
      (endsInInput_of_mem_familyNames hname)

/-- Of the inputs of a type only the sort input holds sort directions. -/
theorem eq_sortInput_of_holds_sortDirection (h : Compiled logical types ts api)
    {t : ClassifiedType} (ht : t ∈ ts) {i : InputObject} (hi : i ∈ t.inputs logical)
    {e : String × InputField} (he : e ∈ i.fields.entries)
    (hn : e.2.type.innermost? = some sortDirection) : i = t.sortInput := by
  have hsound := (h.sound ht).1
  have hends := fun n => not_endsInInput_of_sortDirection hn (n := n)
  have hinput : ∀ c : FieldClass, c.inputType.1.innermost? ≠ some sortDirection := by
    intro c hc
    obtain ⟨kind, hkind⟩ := exists_kind_inputType c
    rw [hkind, Option.some.injEq] at hc
    exact h.sortDirection_not_mem.2 kind hc.symm
  simp only [ClassifiedType.inputs, List.mem_cons, List.not_mem_nil, or_false] at hi
  rcases hi with rfl | rfl | rfl | rfl
  · rw [hsound.entries_filterInput (h.clash?_eq_none ht)] at he
    exfalso
    rcases List.mem_append.1 he with he | he
    · obtain ⟨x, -, hentry⟩ := List.mem_filterMap.1 he
      obtain ⟨kind, -, rfl⟩ := Option.map_eq_some_iff.1 hentry
      refine hends (scalarFilter kind) rfl (endsInInput_of_mem_inputNames (t := kind.name) ?_)
      simp [inputNames, scalarFilter]
    · refine hends (filterInput t.name) ?_ (endsInInput_of_mem_inputNames (List.mem_cons_self ..))
      cases logical with
      | false => cases he
      | true =>
        simp only [ClassifiedType.combinatorEntries, if_true, List.mem_cons, List.not_mem_nil,
          or_false] at he
        rcases he with rfl | rfl <;> rfl
  · rfl
  · rw [hsound.entries_createInput] at he
    obtain ⟨x, -, rfl⟩ := List.mem_map.1 he
    exact absurd hn (hinput x.2)
  · rw [hsound.entries_updateInput] at he
    rcases List.mem_cons.1 he with rfl | he
    · exact absurd hn (hinput .identifier)
    · obtain ⟨x, -, rfl⟩ := List.mem_map.1 he
      exact absurd hn (hinput x.2)

/-- Only the sort input of a type that is not bare holds sort directions. -/
theorem exists_of_holds_sortDirection (h : Compiled logical types ts api) {i : InputObject}
    (hi : i ∈ api.inputs.values) {e : String × InputField} (he : e ∈ i.fields.entries)
    (hn : e.2.type.innermost? = some sortDirection) : ∃ t ∈ ts, t.nonIdentifierFields ≠ [] := by
  rcases h.mem_inputs.1 hi with ⟨kind, -, hi⟩ | ⟨t, ht, hi⟩
  · exact absurd hn (not_holds_sortDirection_of_family hi he)
  · obtain rfl := h.eq_sortInput_of_holds_sortDirection ht hi he hn
    refine ⟨t, ht, fun hnil => ?_⟩
    rw [(h.entries_sortInput_eq_nil_iff ht).2 hnil] at he
    cases he

/-- No root holds sort directions. -/
theorem not_mem_references_root (h : Compiled logical types ts api) (name : String)
    {operations : NameMap Operation}
    (hall : ∀ o ∈ operations.values, o ∈ api.query.values ++ api.mutation.values) :
    sortDirection ∉ (NamedType.object (api.root name operations)).references := by
  intro href
  obtain ⟨hkey, hscalar⟩ := h.sortDirection_not_mem
  obtain ⟨e, he, hn⟩ := mem_references_object.1 href
  obtain ⟨o, ho, rfl⟩ := List.mem_map.1 (OrderedMap.mem_of_mem_entries_ofList he)
  obtain ⟨t, ht, hot, -⟩ := h.exists_type_of_operation (hall o ho)
  rcases List.mem_cons.1 hn with hreturn | hargument
  · rw [Api.toField, TypeRef.innermost_wrapped (innermost?_returnType hot)] at hreturn
    exact hkey (hreturn ▸ h.name_mem_keys ht)
  · obtain ⟨w, hw, hn⟩ := List.mem_map.1 hargument
    obtain ⟨m, hm⟩ := OrderedMap.mem_values.1 hw
    obtain ⟨a, ha, hentry⟩ := List.mem_map.1 (OrderedMap.mem_of_mem_entries_ofList hm)
    obtain ⟨rfl, rfl⟩ := Prod.mk.inj hentry
    obtain ⟨-, ⟨kind, hkind⟩ | ⟨m, hm, hinput⟩⟩ := argument_cases hot (List.mem_filter.1 ha).1
    · rw [hkind, TypeRef.innermost_wrapped (n := kind.name) rfl] at hn
      exact hscalar kind hn.symm
    · rw [hinput, TypeRef.innermost_wrapped (n := m) rfl] at hn
      exact not_endsInInput_sortDirection (hn ▸ endsInInput_of_mem_inputNames hm)

theorem exists_not_bare_iff (h : Compiled logical types ts api) :
    (∃ d ∈ types.values, d.isBare = false) ↔ ∃ t ∈ ts, t.nonIdentifierFields ≠ [] := by
  constructor
  · rintro ⟨d, hd, hbare⟩
    obtain ⟨t, ht, rfl⟩ := exists_type_of_usable h.usable hd
    refine ⟨t, ht, fun hnil => ?_⟩
    rw [(h.nonIdentifierFields_eq_nil_iff ht).1 hnil] at hbare
    cases hbare
  · rintro ⟨t, ht, hne⟩
    refine ⟨_, (h.sound ht).2, Bool.eq_false_iff.2 fun hbare => hne ?_⟩
    exact (h.nonIdentifierFields_eq_nil_iff ht).2 hbare

/-- No declared object holds sort directions. -/
theorem not_mem_references_object (h : Compiled logical types ts api) (hc : api.Closed)
    {d : Declaration} (hd : d ∈ api.objects.values) :
    sortDirection ∉ (NamedType.object d.toObject).references := by
  intro href
  obtain ⟨hkey, hscalar⟩ := h.sortDirection_not_mem
  obtain ⟨e, he, hn⟩ := mem_references_object.1 href
  obtain ⟨f, hf, rfl⟩ := List.mem_map.1 (OrderedMap.mem_of_mem_entries_ofList he)
  have hn := List.mem_singleton.1 hn
  obtain ⟨n, hname, ⟨kind, rfl⟩ | hobject⟩ := (hc.objects d hd f hf).2
  · exact hscalar kind (hn.trans (TypeRef.innermost_wrapped hname _))
  · rw [h.objects, ← TypeRef.innermost_wrapped hname f.nullable, ← hn] at hobject
    exact hkey hobject

/-- Sort directions that are reached are held by an input, hence there is something to sort by. -/
theorem exists_of_enum_mem (h : Compiled logical types ts api) (hc : api.Closed)
    (hs : api.Assembled s) (henum : .enum Derive.sortDirections ∈ s.types) :
    ∃ t ∈ ts, t.nonIdentifierFields ≠ [] := by
  obtain ⟨u, hu, href⟩ := hs.origin _ henum rfl
  change sortDirection ∈ u.references at href
  rcases hs.cases hu with ⟨d, hd, rfl⟩ | ⟨o, ho, rfl⟩ | ⟨kind, rfl⟩ | ⟨e, -, rfl⟩ | ⟨i, hi, rfl⟩
  · exact absurd href (h.not_mem_references_object hc hd)
  · rcases Api.mem_roots ho with rfl | ⟨rfl, -⟩
    · exact absurd href (h.not_mem_references_root _ fun o ho => List.mem_append_left _ ho)
    · exact absurd href (h.not_mem_references_root _ fun o ho => List.mem_append_right _ ho)
  · cases href
  · cases href
  · obtain ⟨e, he, hn⟩ := mem_references_toInput.1 href
    have hi := (mem_filledInputs.1 hi).1
    obtain ⟨m, hm, -⟩ := (hc.inputs i hi e he).2
    exact h.exists_of_holds_sortDirection hi he (hn ▸ TypeRef.innermost?_eq_wrapped hm _)

/-- A type with something to sort by has a sort input, which holds sort directions. -/
theorem enum_mem_of_ne_nil (h : Compiled logical types ts api) (hc : api.Closed)
    (hs : api.Assembled s) {t : ClassifiedType} (ht : t ∈ ts) (hne : t.nonIdentifierFields ≠ []) :
    .enum Derive.sortDirections ∈ s.types := by
  obtain ⟨x, hx⟩ := List.exists_mem_of_ne_nil _ hne
  have hfilled : t.sortInput.fields.entries ≠ [] := fun hnil =>
    hne ((h.entries_sortInput_eq_nil_iff ht).1 hnil)
  have hsort := h.input_mem_of_type hc hs ht (i := t.sortInput)
    (by simp [ClassifiedType.inputs]) hfilled
  have henum : Derive.sortDirections ∈ api.enums.values := by
    rw [h.values_enums]
    exact List.mem_singleton.2 rfl
  refine hs.closed _ hsort sortDirection (mem_references_toInput.2
    ⟨(x.1.name, { type := .named sortDirection }), ?_, rfl⟩) (.enum Derive.sortDirections)
    (Api.mem_definitions.2 (.inr (.inr (.inl ⟨_, henum, rfl, rfl⟩)))) rfl
  rw [(h.sound ht).1.entries_sortInput]
  exact List.mem_map_of_mem
    (f := fun x : Field × FieldClass =>
      (x.1.name, ({ type := .named sortDirection } : InputField))) hx

/-- **The enum of sort directions is reached exactly if there is something to sort by.** -/
theorem enum_mem_iff (h : Compiled logical types ts api) (hc : api.Closed) (hs : api.Assembled s) :
    .enum Derive.sortDirections ∈ s.types ↔ ∃ d ∈ types.values, d.isBare = false := by
  rw [h.exists_not_bare_iff]
  exact ⟨h.exists_of_enum_mem hc hs, fun ⟨t, ht, hne⟩ => h.enum_mem_of_ne_nil hc hs ht hne⟩

/-! ## All that a schema holds -/

theorem nodup_filledInputs (h : Compiled logical types ts api) :
    (api.filledInputs.map fun i => NamedType.input i.toInput).Nodup := by
  have hnames : (api.inputs.values.map InputObject.name).Nodup :=
    h.keys_inputs ▸ api.inputs.nodup_keys
  apply List.Nodup.of_map NamedType.name
  rw [List.map_map]
  exact hnames.sublist (List.filter_sublist.map _)

theorem mem_reached_iff (h : Compiled logical types ts api) (hc : api.Closed)
    (hs : api.Assembled s) {t : NamedType} :
    (t ∈ s.types ∧ t.object? = none ∧ isScalar t = false) ↔
      t ∈ (api.filledInputs.map fun i => NamedType.input i.toInput) ++
        if types.values.any fun d => !d.isBare then [NamedType.enum Derive.sortDirections]
        else [] := by
  have hany : (types.values.any fun d => !d.isBare) = true ↔
      ∃ d ∈ types.values, d.isBare = false := by
    simp
  rw [List.mem_append, List.mem_map]
  constructor
  · rintro ⟨ht, hobject, hscalar⟩
    rcases hs.cases ht with ⟨d, -, rfl⟩ | ⟨o, -, rfl⟩ | ⟨kind, rfl⟩ | ⟨e, he, rfl⟩ | ⟨i, hi, rfl⟩
    · cases hobject
    · cases hobject
    · cases hscalar
    · obtain rfl := h.eq_sortDirections he
      right
      rw [if_pos (hany.2 ((h.enum_mem_iff hc hs).1 ht))]
      exact List.mem_singleton.2 rfl
    · exact .inl ⟨i, hi, rfl⟩
  · rintro (⟨i, hi, rfl⟩ | henum)
    · exact ⟨h.input_mem hc hs hi, rfl, rfl⟩
    · by_cases hbare : (types.values.any fun d => !d.isBare) = true
      · rw [if_pos hbare] at henum
        obtain rfl := List.mem_singleton.1 henum
        exact ⟨(h.enum_mem_iff hc hs).2 (hany.1 hbare), rfl, rfl⟩
      · rw [if_neg hbare] at henum
        cases henum

/-- Besides the scalars there are the objects, the roots, the inputs with fields and the enum. -/
theorem types_perm (h : Compiled logical types ts api) (hc : api.Closed) (hs : api.Assembled s)
    (hnodup : s.typeNames.Nodup) : (s.types.filter fun t => !isScalar t).Perm
      (types.values.map (fun d => NamedType.object d.toObject) ++
        [NamedType.object (api.root "Query" api.query),
          NamedType.object (api.root "Mutation" api.mutation)] ++
        (api.filledInputs.map fun i => NamedType.input i.toInput) ++
        if types.values.any fun d => !d.isBare then [NamedType.enum Derive.sortDirections]
        else []) := by
  have hsplit := List.filter_append_perm (fun t : NamedType => t.object?.isSome)
    (s.types.filter fun t => !isScalar t)
  have hobjects : ((s.types.filter fun t => !isScalar t).filter fun t => t.object?.isSome) =
      types.values.map (fun d => .object d.toObject) ++
        [.object (api.root "Query" api.query), .object (api.root "Mutation" api.mutation)] := by
    rw [List.filter_filter]
    have hfilter : (s.types.filter fun t => t.object?.isSome && !isScalar t) =
        s.types.filter fun t => t.object?.isSome := by
      refine List.filter_congr fun t _ => ?_
      cases t <;> rfl
    rw [hfilter, Api.filter_isSome_object?, hs.objects, h.roots_eq, h.objects, List.map_append,
      List.map_map]
    rfl
  have hothers : ((s.types.filter fun t => !isScalar t).filter fun t => !t.object?.isSome).Perm
      ((api.filledInputs.map fun i => .input i.toInput) ++
        if types.values.any fun d => !d.isBare then [.enum Derive.sortDirections] else []) := by
    refine (List.perm_ext_iff_of_nodup ?_ ?_).2 fun t => ?_
    · have htypes : s.types.Nodup := List.Nodup.of_map NamedType.name hnodup
      exact (htypes.sublist List.filter_sublist).sublist List.filter_sublist
    · rw [List.nodup_append]
      refine ⟨h.nodup_filledInputs, ?_, ?_⟩
      · split <;> simp
      · intro t ht u hu htu
        obtain ⟨i, -, rfl⟩ := List.mem_map.1 ht
        subst htu
        split at hu
        · cases List.mem_singleton.1 hu
        · cases hu
    · rw [← h.mem_reached_iff hc hs, List.mem_filter, List.mem_filter]
      simp only [Bool.not_eq_true', Option.isSome_eq_false_iff, Option.isNone_iff_eq_none]
      tauto
  rw [hobjects] at hsplit
  rw [List.append_assoc]
  exact hsplit.symm.trans (hothers.append_left _)

end Compiled

/-- **Every compiled API of public names is assembled.** -/
theorem assemble_succeeds (documents : List Document) (options : SynthesisOptions) {types : TypeMap}
    {api : Api} (hpublic : ∀ document ∈ documents, ∀ d ∈ document.types,
      IsPublic d.name ∧ ∀ f ∈ d.fields, IsPublic f.name)
    (hmerge : (merge documents).result = .ok types)
    (hcompile : (compile options types).result = .ok api) :
    ∃ s, (Schema.assemble api).result = .ok s := by
  have hm := merged_of_merge hmerge
  have htypes : types.Public := by
    constructor
    · intro n hn
      rw [hm.keys_eq] at hn
      obtain ⟨d, hd, rfl⟩ := List.mem_map.1 hn
      obtain ⟨document, hdocument, hmem⟩ := mem_documents_of_merge hmerge hd
      exact (hpublic document hdocument d hmem).1
    · rintro n ⟨d, hd, f, hf, rfl⟩
      obtain ⟨document, hdocument, hmem⟩ := mem_documents_of_merge hmerge hd
      exact (hpublic document hdocument d hmem).2 f hf
  obtain ⟨ts, hts⟩ := exists_compiled hm hcompile
  obtain ⟨s, hassemble, -⟩ := Api.assemble_of_proper (hts.proper htypes)
  exact ⟨s, hassemble⟩

/-- A type with something to sort by, and a bare one. -/
def userAndTag : TypeMap :=
  .ofList
    [("User", ⟨"User", [⟨"id", .named "ID", false⟩, ⟨"tags", .requiredListOf "Tag", false⟩], none⟩),
      ("Tag", ⟨"Tag", [⟨"id", .named "ID", false⟩], none⟩)]

theorem userAndTag_compiles : ∃ api, (compile {} userAndTag).result = .ok api :=
  Except.exists_of_isOk (by decide)

theorem userAndTag_is_assembled : ∃ api s,
    (merge [{ types := userAndTag.values }]).result = .ok userAndTag ∧
      (compile {} userAndTag).result = .ok api ∧ (Schema.assemble api).result = .ok s := by
  have hmerge : (merge [{ types := userAndTag.values }]).result = .ok userAndTag := by
    decide
  obtain ⟨api, hcompile⟩ := userAndTag_compiles
  obtain ⟨s, hs⟩ := assemble_succeeds _ {} (by decide) hmerge hcompile
  exact ⟨api, s, hmerge, hcompile, hs⟩

/-- **A schema is its API without the empty inputs.** Besides the scalars it has the declared types,
the roots, the inputs with fields, and the enum of sort directions if there is something to sort by.
Its objects have the declared fields and its inputs the fields of the API, each in order and written
with the type that the API shows. Its roots are written as the signatures of the operations, less
what bare types have no input for. -/
theorem assemble_exact (documents : List Document) (options : SynthesisOptions) {types : TypeMap}
    {api : Api} (hmerge : (merge documents).result = .ok types) (hpublic : types.Public)
    (hcompile : (compile options types).result = .ok api) :
    ∃ s query mutation, (Schema.assemble api).result = .ok s ∧ s.typeNames.Nodup ∧
      (s.types.filter fun t => !isScalar t).Perm
        (types.values.map (fun d => .object d.toObject) ++ [.object query, .object mutation] ++
          api.filledInputs.map (fun i => .input i.toInput) ++
          if types.values.any fun d => !d.isBare then [.enum Derive.sortDirections] else []) ∧
      (∀ d ∈ types.values, d.toObject.name = d.name ∧
        d.toObject.fieldTypes = d.fields.map (fun f => (f.name, renderType f.type f.nullable)) ∧
        ∀ e ∈ d.toObject.fields.entries, e.2.arguments = .empty) ∧
      (∀ i ∈ api.filledInputs, i.toInput.name = i.name ∧ i.toInput.fieldTypes = i.fieldTypes) ∧
      query.name = "Query" ∧ List.Forall₂
        (fun field o => PrintsAs field (o.without types (listQuery o.typeName) "sort"))
        query.fields.entries api.query.values ∧
      mutation.name = "Mutation" ∧ List.Forall₂
        (fun field o => PrintsAs field (o.without types (createMutation o.typeName) "input"))
        mutation.fields.entries api.mutation.values := by
  have hm := merged_of_merge hmerge
  obtain ⟨ts, h⟩ := exists_compiled hm hcompile
  have hproper := h.proper hpublic
  have hc := hproper.toClosed
  obtain ⟨s, hassemble, hs⟩ := Api.assemble_of_proper hproper
  have hnodup := hproper.nodup_typeNames hs
  refine ⟨s, api.root "Query" api.query, api.root "Mutation" api.mutation, hassemble, hnodup,
    h.types_perm hc hs hnodup,
    fun d hd => ⟨rfl, Declaration.fieldTypes_toObject (hm.acceptable d hd).distinct,
      fun e he => ?_⟩,
    fun i _ => ⟨rfl, i.fieldTypes_toInput⟩, rfl, ?_, rfl, ?_⟩
  · obtain ⟨f, -, rfl⟩ := List.mem_map.1 (OrderedMap.mem_of_mem_entries_ofList he)
    rfl
  · refine Compiled.prints_root hc.queryNamed "Query" fun o ho => ?_
    rw [h.values_query] at ho
    obtain ⟨t, ht, ho⟩ := List.mem_flatMap.1 ho
    exact ⟨Compiled.nodup_arguments (List.mem_append_left _ ho), h.kept_query hc ht ho⟩
  · refine Compiled.prints_root hc.mutationNamed "Mutation" fun o ho => ?_
    rw [h.values_mutation] at ho
    obtain ⟨t, ht, ho⟩ := List.mem_flatMap.1 ho
    exact ⟨Compiled.nodup_arguments (List.mem_append_right _ ho), h.kept_mutation hc ht ho⟩

/-- The schema of a type with something to sort by has the enum of sort directions. -/
theorem sortDirections_mem_userAndTag : ∃ api s, (compile {} userAndTag).result = .ok api ∧
    (Schema.assemble api).result = .ok s ∧ .enum Derive.sortDirections ∈ s.types := by
  have hfields : ∀ d ∈ userAndTag.values, ∀ f ∈ d.fields, IsPublic f.name := by decide
  have hpublic : userAndTag.Public := by
    constructor
    · decide
    · rintro n ⟨d, hd, f, hf, rfl⟩
      exact hfields d hd f hf
  obtain ⟨api, hcompile⟩ := userAndTag_compiles
  obtain ⟨s, query, mutation, hs, -, hperm, -⟩ :=
    assemble_exact [{ types := userAndTag.values }] {} (by decide) hpublic hcompile
  refine ⟨api, s, hcompile, hs, (List.mem_filter.1 (hperm.mem_iff.2 ?_)).1⟩
  exact List.mem_append_right _ (List.mem_singleton.2 rfl)

end CrudSchema
