import CrudSchema.Proofs.Classification
import CrudSchema.Proofs.LegalName
import CrudSchema.Proofs.Wrapping
import CrudSchema.Schema.Assembly

/-!
# What names stand for in a closed API

**The catalogue** (`Catalogued.ofApi_eq`). If every type has a legal name of its own, the catalogue
has the definitions of the API as they are: the scalars, the objects, the enums and the inputs with
fields, in this order.

**Closed APIs** (`Api.Closed`). Every member has a legal name too, and every reference is to a type
on its side: fields of objects and results to scalars and objects, fields of inputs to scalars,
enums and inputs with fields. An argument may also be of an input without fields.

**References** (`resolve_object`, `resolve_input`, `rootField_eq_check`). Where every reference
leads to a type on its side, resolving a definition can only fail at the name of a member, and it
leaves out the fields of inputs without fields (`trimmed`). In a closed API it does not fail, and
nothing is left out but arguments (`resolve_eq`, `rootObject_eq`).
-/

namespace CrudSchema

open Schema

/-! ## What an API becomes -/

/-- The object type of a declaration. -/
def Declaration.toObject (d : Declaration) : ObjectType where
  name := d.name
  fields := .ofList (d.fields.map fun f => (f.name, { type := f.type.wrapped f.nullable }))
  description := d.description

theorem Declaration.entries_toObject {d : Declaration} (h : d.fieldNames.Nodup) :
    d.toObject.fields.entries =
      d.fields.map fun f => (f.name, { type := f.type.wrapped f.nullable }) := by
  refine OrderedMap.entries_ofList ?_
  rw [List.map_map]
  exact h

/-- An input with all its fields. -/
def InputObject.toInput (i : InputObject) : InputType :=
  ⟨i.name, i.fields.mapValues InputField.wrapped, i.description⟩

theorem InputObject.keys_toInput (i : InputObject) : i.toInput.fields.keys = i.fields.keys :=
  OrderedMap.keys_mapValues _ _

namespace Schema.Definition

/-- The type of a definition whose references have been followed. -/
def resolved : Definition → NamedType
  | .scalar kind => .scalar kind
  | .object d => .object d.toObject
  | .enum e => .enum e
  | .input i => .input i.toInput

end Schema.Definition

namespace Api

variable (api : Api)

def typeNames : List String := api.objects.keys ++ api.enums.keys ++ api.inputs.keys

/-- The inputs that have fields. -/
def filledInputs : List InputObject := api.inputs.values.filter fun i => !i.fields.isEmpty

/-- The reference is to an input without fields. -/
def leavesOut (type : TypeRef) : Bool :=
  type.innermost?.any fun n => (api.inputs.get? n).any fun i => i.fields.isEmpty

/-- An operation as a field, without the arguments that are left out. -/
def toField (o : Operation) : OutputField where
  type := o.returnType.wrapped o.returnNullable
  arguments := .ofList
    ((o.arguments.filter fun a => !api.leavesOut a.type).map
      fun a => (a.name, a.type.wrapped a.nullable))
  description := o.description

/-- An input without the fields that are left out. -/
def trim (i : InputObject) : InputType where
  name := i.name
  fields := .ofList
    ((i.fields.entries.filter fun e => !api.leavesOut e.2.type).map fun e => (e.1, e.2.wrapped))
  description := i.description

theorem entries_trim (i : InputObject) : (api.trim i).fields.entries =
    (i.fields.entries.filter fun e => !api.leavesOut e.2.type).map fun e => (e.1, e.2.wrapped) := by
  refine OrderedMap.entries_ofList ?_
  rw [List.map_map]
  exact i.fields.nodup.sublist (List.filter_sublist.map _)

/-- The type of a definition, without what is left out. -/
def trimmed : Definition → NamedType
  | .input i => .input (api.trim i)
  | d => d.resolved

/-- A root with the fields of some operations. -/
def root (name : String) (operations : NameMap Operation) : ObjectType where
  name := name
  fields := .ofList (operations.values.map fun o => (o.name, api.toField o))

/-- Every name with what it stands for. -/
def definitions : List (String × Definition) :=
  ScalarKind.all.map (fun kind => (kind.name, .scalar kind)) ++
    api.objects.values.map (fun d => (d.name, .object d)) ++
    api.enums.values.map (fun e => (e.name, .enum e)) ++
    api.filledInputs.map fun i => (i.name, .input i)

/-- The reference is to a scalar, an object or an enum. -/
def IsOutput (type : TypeRef) : Prop :=
  ∃ n, type.innermost? = some n ∧
    ((∃ kind : ScalarKind, n = kind.name) ∨ n ∈ api.objects.keys ∨ n ∈ api.enums.keys)

/-- The reference is to a scalar, an enum or an input with fields. -/
def IsInput (type : TypeRef) : Prop :=
  ∃ n, type.innermost? = some n ∧
    ((∃ kind : ScalarKind, n = kind.name) ∨ n ∈ api.enums.keys ∨ ∃ i ∈ api.filledInputs, n = i.name)

/-! ## Closed APIs -/

/-- Every name stands for one thing, and what has values has legal ones. -/
structure Catalogued : Prop where
  objectsNamed : ∀ e ∈ api.objects.entries, e.1 = e.2.name
  enumsNamed : ∀ e ∈ api.enums.entries, e.1 = e.2.name
  inputsNamed : ∀ e ∈ api.inputs.entries, e.1 = e.2.name
  distinct : (ScalarKind.all.map ScalarKind.name ++ api.typeNames).Nodup
  legal : ∀ n ∈ api.typeNames, Catalogue.checkTypeName n = .ok ()
  enums : ∀ e ∈ api.enums.values,
    e.values.eraseDups = e.values ∧ checkValueNames e.values = .ok ()

structure Closed : Prop extends api.Catalogued where
  queryNamed : ∀ e ∈ api.query.entries, e.1 = e.2.name
  mutationNamed : ∀ e ∈ api.mutation.entries, e.1 = e.2.name
  objects : ∀ d ∈ api.objects.values, ∀ f ∈ d.fields,
    IsName f.name ∧ f.type.Supported api.objects.keys
  inputs : ∀ i ∈ api.inputs.values, ∀ e ∈ i.fields.entries, IsName e.1 ∧ api.IsInput e.2.type
  operations : ∀ o ∈ api.query.values ++ api.mutation.values,
    IsName o.name ∧ o.returnType.Supported api.objects.keys ∧
      ∀ a ∈ o.arguments, IsName a.name ∧ (api.leavesOut a.type = true ∨ api.IsInput a.type)

variable {api}

namespace Catalogued

theorem map_name_objects (h : api.Catalogued) :
    api.objects.values.map Declaration.name = api.objects.keys :=
  (OrderedMap.keys_eq_map_values h.objectsNamed).symm

theorem map_name_enums (h : api.Catalogued) : api.enums.values.map EnumType.name = api.enums.keys :=
  (OrderedMap.keys_eq_map_values h.enumsNamed).symm

theorem map_name_inputs (h : api.Catalogued) :
    api.inputs.values.map InputObject.name = api.inputs.keys :=
  (OrderedMap.keys_eq_map_values h.inputsNamed).symm

theorem map_fst_definitions (h : api.Catalogued) :
    api.definitions.map Prod.fst = ScalarKind.all.map ScalarKind.name ++ api.objects.keys ++
      api.enums.keys ++ api.filledInputs.map InputObject.name := by
  rw [← h.map_name_objects, ← h.map_name_enums]
  simp [definitions, Function.comp_def]

/-- All names are defined but those of inputs without fields. -/
theorem sublist_definitions (h : api.Catalogued) : (api.definitions.map Prod.fst).Sublist
    (ScalarKind.all.map ScalarKind.name ++ api.typeNames) := by
  rw [h.map_fst_definitions, typeNames, ← List.append_assoc, ← List.append_assoc,
    ← h.map_name_inputs]
  exact List.Sublist.append_left (List.filter_sublist.map _) _

theorem nodup_definitions (h : api.Catalogued) : (api.definitions.map Prod.fst).Nodup :=
  h.distinct.sublist h.sublist_definitions

/-- No type has the name of a scalar. -/
theorem scalar_not_mem (h : api.Catalogued) (kind : ScalarKind) : kind.name ∉ api.typeNames :=
  fun hname => (List.nodup_append.1 h.distinct).2.2 _ (List.mem_map_of_mem kind.mem_all) _ hname rfl

/-- An input has its name for itself. -/
theorem of_mem_inputs (h : api.Catalogued) {n : String} (hn : n ∈ api.inputs.keys) :
    (∀ kind : ScalarKind, n ≠ kind.name) ∧ n ∉ api.objects.keys ∧ n ∉ api.enums.keys := by
  have hothers := (List.nodup_append.1 (List.nodup_append.1 h.distinct).2.1).2.2
  refine ⟨?_, fun hobject => ?_, fun henum => ?_⟩
  · rintro kind rfl
    exact h.scalar_not_mem kind (List.mem_append_right _ hn)
  · exact hothers _ (List.mem_append_left _ hobject) _ hn rfl
  · exact hothers _ (List.mem_append_right _ henum) _ hn rfl

end Catalogued

theorem forall_mem_typeNames {p : String → Prop} : (∀ n ∈ api.typeNames, p n) ↔
    (∀ n ∈ api.objects.keys, p n) ∧ (∀ n ∈ api.enums.keys, p n) ∧ ∀ n ∈ api.inputs.keys, p n := by
  rw [typeNames, List.forall_mem_append, List.forall_mem_append, and_assoc]

/-! ## The catalogue -/

end Api

namespace Schema.Catalogue

/-- What stands under its own name has a legal name if its key is one. -/
theorem checkTypeName_of_keys {α : Type} {m : NameMap α} {name : α → String}
    (hnamed : ∀ e ∈ m.entries, e.1 = name e.2)
    (hkeys : ∀ n ∈ m.keys, checkTypeName n = .ok ()) :
    ∀ value ∈ m.values, checkTypeName (name value) = .ok () := by
  rw [OrderedMap.keys_eq_map_values hnamed, List.forall_mem_map] at hkeys
  exact hkeys

theorem addObjects_eq {c : Catalogue} {l : List Declaration}
    (h : ∀ d ∈ l, checkTypeName d.name = .ok ()) :
    addObjects c l = .ok (c.setAll (l.map fun d => (d.name, .object d))) := by
  induction l generalizing c with
  | nil => rfl
  | cons d rest ih =>
    obtain ⟨hd, hrest⟩ := List.forall_mem_cons.1 h
    rw [addObjects, hd]
    exact ih hrest

theorem addInputs_eq {c : Catalogue} {l : List InputObject}
    (h : ∀ i ∈ l, checkTypeName i.name = .ok ()) :
    addInputs c l = .ok (c.setAll (l.map fun i => (i.name, .input i))) := by
  induction l generalizing c with
  | nil => rfl
  | cons i rest ih =>
    obtain ⟨hi, hrest⟩ := List.forall_mem_cons.1 h
    rw [addInputs, hi]
    exact ih hrest

theorem addEnums_eq {c : Catalogue} {l : List EnumType}
    (h : ∀ e ∈ l, checkTypeName e.name = .ok () ∧ e.values.eraseDups = e.values ∧
      checkValueNames e.values = .ok ()) :
    addEnums c l = .ok (c.setAll (l.map fun e => (e.name, .enum e))) := by
  induction l generalizing c with
  | nil => rfl
  | cons e rest ih =>
    obtain ⟨⟨hname, hvalues, hlegal⟩, hrest⟩ := List.forall_mem_cons.1 h
    rw [addEnums, hname]
    simp only [hvalues, hlegal]
    exact ih hrest

end Schema.Catalogue

namespace Api

variable {api : Api}

/-- The catalogue of an API. -/
def catalogue (api : Api) : Catalogue := .ofList api.definitions

namespace Catalogued

/-- The catalogue has the definitions of the API. -/
theorem ofApi_eq (h : api.Catalogued) : Catalogue.ofApi api = .ok api.catalogue := by
  obtain ⟨hobjectKeys, henumKeys, hinputKeys⟩ := forall_mem_typeNames.1 h.legal
  have hobjects := Catalogue.checkTypeName_of_keys h.objectsNamed hobjectKeys
  have henums := Catalogue.checkTypeName_of_keys h.enumsNamed henumKeys
  have hinputs := Catalogue.checkTypeName_of_keys h.inputsNamed hinputKeys
  have hfilled : ∀ i ∈ api.filledInputs, Catalogue.checkTypeName i.name = .ok () :=
    fun i hi => hinputs i (List.mem_filter.1 hi).1
  have hscalars : Catalogue.scalars =
      OrderedMap.empty.setAll (ScalarKind.all.map fun kind => (kind.name, .scalar kind)) := rfl
  rw [Catalogue.ofApi, Catalogue.addObjects_eq hobjects]
  simp only [bind, Except.bind]
  rw [Catalogue.addEnums_eq fun e he => ⟨henums e he, h.enums e he⟩]
  simp only
  rw [← filledInputs, Catalogue.addInputs_eq hfilled, catalogue, OrderedMap.ofList_eq_setAll,
    hscalars]
  simp only [definitions, OrderedMap.setAll, List.foldl_append]

variable {n : String} {d : Definition} {type : TypeRef} {nullable : Bool}

theorem get?_catalogue (h : api.Catalogued) :
    api.catalogue.get? n = some d ↔ (n, d) ∈ api.definitions := by
  rw [OrderedMap.get?_eq_some_iff, catalogue, OrderedMap.entries_ofList h.nodup_definitions]

theorem keys_catalogue (h : api.Catalogued) :
    api.catalogue.keys = api.definitions.map Prod.fst := by
  rw [OrderedMap.keys, catalogue, OrderedMap.entries_ofList h.nodup_definitions]

end Catalogued

/-! ## References -/

variable {n : String} {d : Definition} {type : TypeRef}

theorem mem_definitions : (n, d) ∈ api.definitions ↔
    (∃ kind : ScalarKind, n = kind.name ∧ d = .scalar kind) ∨
      (∃ o ∈ api.objects.values, n = o.name ∧ d = .object o) ∨
      (∃ e ∈ api.enums.values, n = e.name ∧ d = .enum e) ∨
      ∃ i ∈ api.filledInputs, n = i.name ∧ d = .input i := by
  simp only [definitions, List.mem_append, List.mem_map, Prod.mk.injEq, or_assoc,
    ScalarKind.mem_all, true_and]
  simp only [eq_comm]

theorem isOutput_of_supported (h : type.Supported api.objects.keys) : api.IsOutput type := by
  obtain ⟨n, hn, hkind | hobject⟩ := h
  · exact ⟨n, hn, .inl hkind⟩
  · exact ⟨n, hn, .inr (.inl hobject)⟩

namespace Catalogued

theorem exists_object (h : api.Catalogued) (hn : n ∈ api.objects.keys) :
    ∃ o, (n, .object o) ∈ api.definitions := by
  rw [← h.map_name_objects] at hn
  obtain ⟨o, ho, rfl⟩ := List.mem_map.1 hn
  exact ⟨o, mem_definitions.2 (.inr (.inl ⟨o, ho, rfl, rfl⟩))⟩

theorem exists_enum (h : api.Catalogued) (hn : n ∈ api.enums.keys) :
    ∃ e, (n, .enum e) ∈ api.definitions := by
  rw [← h.map_name_enums] at hn
  obtain ⟨e, he, rfl⟩ := List.mem_map.1 hn
  exact ⟨e, mem_definitions.2 (.inr (.inr (.inl ⟨e, he, rfl, rfl⟩)))⟩

/-- A reference to a definition on the side asked for is the type of a position. -/
theorem typeOn_eq (h : api.Catalogued) {side : Definition → Bool} (fault : ReferenceError)
    (nullable : Bool) (htype : type.innermost? = some n) (hd : (n, d) ∈ api.definitions)
    (hside : side d = true) :
    api.catalogue.typeOn side fault type nullable = .ok (type.wrapped nullable) := by
  have hkey : n ∈ api.catalogue.keys := by
    rw [h.keys_catalogue]
    exact List.mem_map_of_mem hd
  have hwrap : api.catalogue.wrap type nullable = .ok (type.wrapped nullable) :=
    Catalogue.wrap_eq_ok_iff.2 ⟨⟨n, htype, hkey⟩, rfl⟩
  have hon : (api.catalogue.get? (type.wrapped nullable).innermost).any side = true := by
    rw [TypeRef.innermost_wrapped htype, h.get?_catalogue.2 hd, Option.any_some, hside]
  rw [Catalogue.typeOn, hwrap]
  exact if_pos hon

end Catalogued

theorem typeOn_output (h : api.Catalogued) (nullable : Bool) (htype : api.IsOutput type) :
    api.catalogue.typeOn Definition.isOutput .notOutput type nullable =
      .ok (type.wrapped nullable) := by
  obtain ⟨n, hn, ⟨kind, rfl⟩ | hobject | henum⟩ := htype
  · exact h.typeOn_eq _ _ hn (mem_definitions.2 (.inl ⟨kind, rfl, rfl⟩)) rfl
  · obtain ⟨o, ho⟩ := h.exists_object hobject
    exact h.typeOn_eq _ _ hn ho rfl
  · obtain ⟨e, he⟩ := h.exists_enum henum
    exact h.typeOn_eq _ _ hn he rfl

theorem typeOn_input (h : api.Catalogued) (fault : ReferenceError) (nullable : Bool)
    (htype : api.IsInput type) :
    api.catalogue.typeOn Definition.isInput fault type nullable =
      .ok (type.wrapped nullable) := by
  obtain ⟨n, hn, ⟨kind, rfl⟩ | henum | ⟨i, hi, rfl⟩⟩ := htype
  · exact h.typeOn_eq _ _ hn (mem_definitions.2 (.inl ⟨kind, rfl, rfl⟩)) rfl
  · obtain ⟨e, he⟩ := h.exists_enum henum
    exact h.typeOn_eq _ _ hn he rfl
  · exact h.typeOn_eq _ _ hn (mem_definitions.2 (.inr (.inr (.inr ⟨i, hi, rfl, rfl⟩)))) rfl

theorem omits_eq (htype : type.innermost? = some n) :
    omits api.inputs type = .ok (api.leavesOut type) := by
  rw [omits, htype, leavesOut, htype]
  rfl

/-- What is left out is named. -/
theorem exists_innermost?_of_leavesOut (h : api.leavesOut type = true) :
    ∃ n, type.innermost? = some n := by
  rcases hn : type.innermost? with _ | n
  · rw [leavesOut, hn] at h
    cases h
  · exact ⟨n, rfl⟩

/-- What is kept leads to an input, and so it is named. -/
theorem exists_innermost?_of_kept (hkept : api.leavesOut type = false)
    (h : api.leavesOut type = true ∨ api.IsInput type) : ∃ n, type.innermost? = some n := by
  rcases h with hout | ⟨n, hn, -⟩
  · rw [hkept] at hout
    cases hout
  · exact ⟨n, hn⟩

theorem leavesOut_of_not_mem (htype : type.innermost? = some n) (hn : n ∉ api.inputs.keys) :
    api.leavesOut type = false := by
  rw [leavesOut, htype, Option.any_some, OrderedMap.get?_eq_none_iff.2 hn]
  rfl

/-- What may be an input is not left out. -/
theorem leavesOut_eq_false (h : api.Catalogued) (htype : api.IsInput type) :
    api.leavesOut type = false := by
  obtain ⟨n, hn, ⟨kind, rfl⟩ | henum | ⟨i, hi, rfl⟩⟩ := htype
  · exact leavesOut_of_not_mem hn fun hkey => (h.of_mem_inputs hkey).1 kind rfl
  · exact leavesOut_of_not_mem hn fun hkey => (h.of_mem_inputs hkey).2.2 henum
  · obtain ⟨hi, hfilled⟩ := List.mem_filter.1 hi
    rw [leavesOut, hn, Option.any_some, OrderedMap.get?_of_mem_values h.inputsNamed hi,
      Option.any_some]
    simpa using hfilled

/-- What a field returns is not left out. -/
theorem leavesOut_of_isOutput (h : api.Catalogued) (htype : api.IsOutput type) :
    api.leavesOut type = false := by
  obtain ⟨n, hn, hcases⟩ := htype
  refine leavesOut_of_not_mem hn fun hkey => ?_
  obtain ⟨hscalar, hobjects, henums⟩ := h.of_mem_inputs hkey
  rcases hcases with ⟨kind, hkind⟩ | hobject | henum
  · exact hscalar kind hkind
  · exact hobjects hobject
  · exact henums henum

/-- A reference is left out, or leads to an input. -/
theorem omits_cases (h : api.Catalogued) (fault : ReferenceError) (nullable : Bool)
    (htype : api.leavesOut type = true ∨ api.IsInput type) :
    (api.leavesOut type = true ∧ omits api.inputs type = .ok true) ∨
      (api.leavesOut type = false ∧ omits api.inputs type = .ok false ∧
        api.catalogue.typeOn Definition.isInput fault type nullable =
          .ok (type.wrapped nullable)) := by
  rcases htype with hout | hin
  · obtain ⟨n, hn⟩ := exists_innermost?_of_leavesOut hout
    exact .inl ⟨hout, hout ▸ omits_eq hn⟩
  · obtain ⟨n, hn, -⟩ := id hin
    have hkept := leavesOut_eq_false h hin
    exact .inr ⟨hkept, hkept ▸ omits_eq hn, typeOn_input h fault nullable hin⟩

/-! ## Definitions -/

theorem outputFields_eq (h : api.Catalogued) {fs : List Field}
    (hfs : ∀ f ∈ fs, api.IsOutput f.type) :
    outputFields api.catalogue fs =
      .ok (fs.map fun f => (f.name, { type := f.type.wrapped f.nullable })) := by
  induction fs with
  | nil => rfl
  | cons f rest ih =>
    obtain ⟨hf, hrest⟩ := List.forall_mem_cons.1 hfs
    rw [outputFields, typeOn_output h f.nullable hf, ih hrest]
    rfl

theorem inputFields_eq (h : api.Catalogued) {l : List (String × InputField)}
    (hl : ∀ e ∈ l, api.leavesOut e.2.type = true ∨ api.IsInput e.2.type) :
    inputFields api.catalogue api.inputs l =
      .ok ((l.filter fun e => !api.leavesOut e.2.type).map fun e => (e.1, e.2.wrapped)) := by
  induction l with
  | nil => rfl
  | cons e rest ih =>
    obtain ⟨he, hrest⟩ := List.forall_mem_cons.1 hl
    rcases omits_cases h .fieldNotInput e.2.nullable he with
      ⟨hout, homits⟩ | ⟨hkept, homits, htype⟩
    · rw [List.filter_cons_of_neg (by simp [hout]), ← ih hrest]
      simp only [inputFields, homits]
      rfl
    · rw [List.filter_cons_of_pos (by simp [hkept])]
      simp only [inputFields, homits, htype, ih hrest]
      rfl

/-- Where every reference leads to its side, only the names of an object's fields are left to
check. -/
theorem resolve_object (h : api.Catalogued) {o : Declaration}
    (ho : ∀ f ∈ o.fields, api.IsOutput f.type) :
    (Definition.object o).resolve api.catalogue api.inputs =
      (do
        (checkNames o.fieldNames.eraseDups).mapError .illegalName
        .ok (.object o.toObject)) := by
  rw [Definition.resolve, outputFields_eq h ho]
  rfl

theorem resolve_input (h : api.Catalogued) {i : InputObject}
    (hi : ∀ e ∈ i.fields.entries, api.leavesOut e.2.type = true ∨ api.IsInput e.2.type) :
    (Definition.input i).resolve api.catalogue api.inputs =
      (do
        (checkNames ((i.fields.entries.filter fun e => !api.leavesOut e.2.type).map
          Prod.fst)).mapError .illegalName
        .ok (.input (api.trim i))) := by
  have hnames : ((i.fields.entries.filter fun e => !api.leavesOut e.2.type).map
      fun e => (e.1, e.2.wrapped)).map Prod.fst =
        (i.fields.entries.filter fun e => !api.leavesOut e.2.type).map Prod.fst :=
    List.map_map
  rw [Definition.resolve, inputFields_eq h hi, ← hnames]
  rfl

/-- An input of a closed API keeps its fields. -/
theorem trim_eq (h : api.Closed) {i : InputObject} (hi : i ∈ api.inputs.values) :
    api.trim i = i.toInput := by
  have hkept : (i.fields.entries.filter fun e => !api.leavesOut e.2.type) = i.fields.entries := by
    refine List.filter_eq_self.2 fun e he => ?_
    rw [leavesOut_eq_false h.toCatalogued (h.inputs i hi e he).2]
    rfl
  rw [trim, hkept]
  exact congrArg (InputType.mk i.name · i.description)
    (OrderedMap.ofList_entries (i.fields.mapValues InputField.wrapped))

/-- **Every definition of a closed API can be resolved.** -/
theorem resolve_eq (h : api.Closed) (hd : (n, d) ∈ api.definitions) :
    d.resolve api.catalogue api.inputs = .ok d.resolved ∧ d.resolved.name = n := by
  rcases mem_definitions.1 hd with ⟨kind, rfl, rfl⟩ | ⟨o, ho, rfl, rfl⟩ | ⟨e, he, rfl, rfl⟩ |
    ⟨i, hi, rfl, rfl⟩
  · exact ⟨rfl, rfl⟩
  · refine ⟨?_, rfl⟩
    have hnames : checkNames o.fieldNames.eraseDups = .ok () := by
      refine checkNames_eq_ok_iff.2 fun n hn => ?_
      obtain ⟨f, hf, rfl⟩ := List.mem_map.1 (List.mem_eraseDups.1 hn)
      exact (h.objects o ho f hf).1
    rw [resolve_object h.toCatalogued fun f hf => isOutput_of_supported (h.objects o ho f hf).2,
      hnames]
    rfl
  · exact ⟨rfl, rfl⟩
  · refine ⟨?_, rfl⟩
    have hinput := (List.mem_filter.1 hi).1
    have hnames : checkNames ((i.fields.entries.filter fun e => !api.leavesOut e.2.type).map
        Prod.fst) = .ok () := by
      refine checkNames_eq_ok_iff.2 fun n hn => ?_
      obtain ⟨e, he, rfl⟩ := List.mem_map.1 hn
      exact (h.inputs i hinput e (List.mem_filter.1 he).1).1
    rw [resolve_input h.toCatalogued fun e he => .inr (h.inputs i hinput e he).2, hnames,
      trim_eq h hinput]
    rfl

/-! ## Roots -/

theorem rootArguments_eq (h : api.Catalogued) {l : List Argument}
    (hl : ∀ a ∈ l, api.leavesOut a.type = true ∨ api.IsInput a.type) :
    rootArguments api.catalogue api.inputs l =
      .ok ((l.filter fun a => !api.leavesOut a.type).map
        fun a => (a.name, a.type.wrapped a.nullable)) := by
  induction l with
  | nil => rfl
  | cons a rest ih =>
    obtain ⟨ha, hrest⟩ := List.forall_mem_cons.1 hl
    rcases omits_cases h .argumentNotInput a.nullable ha with
      ⟨hout, homits⟩ | ⟨hkept, homits, htype⟩
    · rw [List.filter_cons_of_neg (by simp [hout]), ← ih hrest]
      simp only [rootArguments, homits]
      rfl
    · rw [List.filter_cons_of_pos (by simp [hkept])]
      simp only [rootArguments, homits, htype, ih hrest]
      rfl

/-- Where every reference leads to its side, only the names of the arguments are left to check. -/
theorem rootField_eq_check (h : api.Catalogued) {o : Operation}
    (hreturn : api.IsOutput o.returnType)
    (harguments : ∀ a ∈ o.arguments, api.leavesOut a.type = true ∨ api.IsInput a.type) :
    rootField api.catalogue api.inputs o =
      (do
        (checkNames (api.toField o).arguments.keys).mapError .illegalName
        .ok (api.toField o)) := by
  rw [rootField, rootArguments_eq h harguments, typeOn_output h o.returnNullable hreturn]
  rfl

theorem rootField_eq (h : api.Closed) {o : Operation}
    (ho : o ∈ api.query.values ++ api.mutation.values) :
    rootField api.catalogue api.inputs o = .ok (api.toField o) := by
  obtain ⟨-, hreturn, harguments⟩ := h.operations o ho
  have hnames : checkNames (api.toField o).arguments.keys = .ok () := by
    refine checkNames_eq_ok_iff.2 fun n hn => ?_
    rw [toField, OrderedMap.mem_keys_ofList, List.map_map] at hn
    obtain ⟨a, ha, rfl⟩ := List.mem_map.1 hn
    exact (harguments a (List.mem_filter.1 ha).1).1
  rw [rootField_eq_check h.toCatalogued (isOutput_of_supported hreturn)
    fun a ha => (harguments a ha).2, hnames]
  rfl

theorem rootFields_eq (h : api.Closed) {l : List (String × Operation)}
    (hl : ∀ e ∈ l, e.2 ∈ api.query.values ++ api.mutation.values) :
    rootFields api.catalogue api.inputs l = .ok (l.map fun e => (e.2.name, api.toField e.2)) := by
  induction l with
  | nil => rfl
  | cons e rest ih =>
    obtain ⟨he, hrest⟩ := List.forall_mem_cons.1 hl
    rw [rootFields, rootField_eq h he, ih hrest]
    rfl

theorem rootObject_eq (h : api.Closed) (name : String) {operations : NameMap Operation}
    (hroot : ∀ o ∈ operations.values, o ∈ api.query.values ++ api.mutation.values) :
    rootObject api.catalogue api.inputs name operations = .ok (api.root name operations) := by
  have hentries : ∀ e ∈ operations.entries, e.2 ∈ api.query.values ++ api.mutation.values :=
    fun e he => hroot _ (OrderedMap.mem_values.2 ⟨e.1, he⟩)
  rw [rootObject, rootFields_eq h hentries, root, OrderedMap.values, List.map_map]
  rfl

end Api

end CrudSchema
