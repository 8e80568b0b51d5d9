import CrudSchema.Proofs.Flaws
import CrudSchema.Proofs.Merging
import Mathlib.Data.List.Induction

/-!
# Inputs that are left out

**Sided APIs** (`Api.Sided`). Types have legal names of their own, and every reference leads to a
type on its side; the inputs that references lead to may have no fields. Nothing is asked of the
names of members and values, so a legal API may still have an illegal name to fail at.

**One round** (`Api.trim`). An input without fields is left out, and with it the fields and
arguments that refer to it. An input that loses its last field that way is not looked at again. It
stays, and so do the references to it.

**Why an assembly fails** (`Api.BlamesEmptyInput`). An input that something refers to and that stays
without fields is a flaw of the schema, and the assembly ends with its message.

Main result: `Api.emptied_inputs_stay`.
-/

namespace CrudSchema

open Schema

/-! ## Illegal names -/

namespace Schema

def IsIllegalName (e : AssemblyError) : Prop := ∃ fault, e = .illegalName fault

theorem meets_illegalName {α : Type} {x : Except IllegalName α} {P : α → Prop}
    (h : ∀ a, x = .ok a → P a) : Meets IsIllegalName P (x.mapError .illegalName) := by
  cases x with
  | error fault => exact ⟨fault, rfl⟩
  | ok a => exact h a rfl

end Schema

namespace Api

/-! ## Sided APIs -/

/-- Types have legal names of their own, and references lead to types on their side. -/
structure Sided (api : Api) : Prop where
  objectsNamed : ∀ e ∈ api.objects.entries, e.1 = e.2.name
  enumsNamed : ∀ e ∈ api.enums.entries, e.1 = e.2.name
  inputsNamed : ∀ e ∈ api.inputs.entries, e.1 = e.2.name
  distinct : (ScalarKind.all.map ScalarKind.name ++ api.typeNames).Nodup
  legal : ∀ n ∈ api.typeNames, Catalogue.checkTypeName n = .ok ()
  rootsFree : ∀ o ∈ api.roots, o.name ∉ api.typeNames
  objects : ∀ d ∈ api.objects.values, ∀ f ∈ d.fields, api.IsOutput f.type
  inputs : ∀ i ∈ api.inputs.values, ∀ e ∈ i.fields.entries,
    api.leavesOut e.2.type = true ∨ api.IsInput e.2.type
  operations : ∀ o ∈ api.query.values ++ api.mutation.values, api.IsOutput o.returnType ∧
    ∀ a ∈ o.arguments, api.leavesOut a.type = true ∨ api.IsInput a.type

/-- The names of fields, operations and arguments. -/
def memberNames (api : Api) : List String :=
  api.objects.values.flatMap Declaration.fieldNames ++
    api.inputs.values.flatMap (fun i => i.fields.keys) ++
    (api.query.values ++ api.mutation.values).flatMap
      fun o => o.name :: o.arguments.map Argument.name

variable {api : Api} {fault : AssemblyError → Prop}

theorem fieldNames_subset {d : Declaration} (hd : d ∈ api.objects.values) :
    d.fieldNames ⊆ api.memberNames := fun _ hn =>
  List.mem_append_left _ (List.mem_append_left _ (List.mem_flatMap.2 ⟨d, hd, hn⟩))

theorem inputNames_subset {i : InputObject} (hi : i ∈ api.inputs.values) :
    i.fields.keys ⊆ api.memberNames := fun _ hn =>
  List.mem_append_left _ (List.mem_append_right _ (List.mem_flatMap.2 ⟨i, hi, hn⟩))

theorem operationNames_subset {o : Operation} (ho : o ∈ api.query.values ++ api.mutation.values) :
    o.name :: o.arguments.map Argument.name ⊆ api.memberNames := fun _ hn =>
  List.mem_append_right _ (List.mem_flatMap.2 ⟨o, ho, hn⟩)

/-- The names of some members are checked, and nothing else can be at fault. -/
def ChecksNames (api : Api) (fault : AssemblyError → Prop) : Prop :=
  ∀ names ⊆ api.memberNames,
    Meets fault (fun _ => True) ((checkNames names).mapError .illegalName)

theorem Sided.rootField_meets (h : api.Sided) (hc : api.Catalogued) (hnames : api.ChecksNames fault)
    {o : Operation} (ho : o ∈ api.query.values ++ api.mutation.values) :
    Meets fault (· = api.toField o) (rootField api.catalogue api.inputs o) := by
  obtain ⟨hreturn, harguments⟩ := h.operations o ho
  rw [rootField_eq_check hc hreturn harguments]
  refine (hnames _ fun n hn => ?_).bind fun _ _ => .of_ok rfl rfl
  rw [toField, OrderedMap.mem_keys_ofList, List.map_map] at hn
  obtain ⟨a, ha, rfl⟩ := List.mem_map.1 hn
  exact operationNames_subset ho
    (List.mem_cons_of_mem _ (List.mem_map_of_mem (List.mem_filter.1 ha).1))

theorem Sided.rootFields_meets (h : api.Sided) (hc : api.Catalogued)
    (hnames : api.ChecksNames fault)
    {l : List (String × Operation)} (hl : ∀ e ∈ l, e.2 ∈ api.query.values ++ api.mutation.values) :
    Meets fault (· = l.map fun e => (e.2.name, api.toField e.2))
      (rootFields api.catalogue api.inputs l) := by
  induction l with
  | nil => exact .of_ok rfl rfl
  | cons e rest ih =>
    obtain ⟨he, hrest⟩ := List.forall_mem_cons.1 hl
    rw [rootFields]
    refine (h.rootField_meets hc hnames he).bind fun f hf => (ih hrest).bind fun more hmore => ?_
    exact .of_ok rfl (by rw [hf, hmore]; rfl)

/-- Only the name of a member can be at fault. -/
theorem Sided.resolves (h : api.Sided) (hc : api.Catalogued) (hnames : api.ChecksNames fault) :
    api.Resolves fault where
  toCatalogued := hc
  definitions n d hd := by
    rcases mem_definitions.1 hd with ⟨kind, -, rfl⟩ | ⟨o, ho, -, rfl⟩ | ⟨e, -, -, rfl⟩ |
      ⟨i, hi, -, rfl⟩
    · exact .of_ok rfl rfl
    · rw [resolve_object hc (h.objects o ho)]
      refine (hnames _ fun n hn => ?_).bind fun _ _ => .of_ok rfl rfl
      exact fieldNames_subset ho (List.mem_eraseDups.1 hn)
    · exact .of_ok rfl rfl
    · have hinput := (List.mem_filter.1 hi).1
      rw [resolve_input hc (h.inputs i hinput)]
      refine (hnames _ fun n hn => ?_).bind fun _ _ => .of_ok rfl rfl
      obtain ⟨e, he, rfl⟩ := List.mem_map.1 hn
      exact inputNames_subset hinput (List.mem_map_of_mem (List.mem_filter.1 he).1)
  roots name operations hroot := by
    have hentries : ∀ e ∈ operations.entries, e.2 ∈ api.query.values ++ api.mutation.values :=
      fun e he => hroot _ (OrderedMap.mem_values.2 ⟨e.1, he⟩)
    refine ⟨(h.rootFields_meets hc hnames hentries).bind fun fields heq => .of_ok rfl ?_,
      hnames _ fun n hn => ?_⟩
    · rw [heq, root, OrderedMap.values, List.map_map]
      rfl
    · rw [root, OrderedMap.mem_keys_ofList, List.map_map] at hn
      obtain ⟨o, ho, rfl⟩ := List.mem_map.1 hn
      exact operationNames_subset (hroot o ho) List.mem_cons_self

end Api

/-! ## Enums -/

theorem eraseDups_eraseDups (names : List String) :
    names.eraseDups.eraseDups = names.eraseDups := by
  induction names using List.reverseRecOn with
  | nil => rfl
  | append_singleton names n ih =>
    by_cases hn : n ∈ names
    · rw [eraseDups_append_of_subset (by simpa using hn), ih]
    · rw [eraseDups_concat_of_not_mem hn,
        eraseDups_concat_of_not_mem (by rwa [List.mem_eraseDups]), ih]

/-- An enum without the repetitions among its values. -/
def EnumType.deduped (e : EnumType) : EnumType := { e with values := e.values.eraseDups }

theorem Schema.Catalogue.addEnums_deduped (c : Catalogue) (l : List EnumType) :
    addEnums c (l.map EnumType.deduped) = addEnums c l := by
  induction l generalizing c with
  | nil => rfl
  | cons e rest ih =>
    rw [List.map_cons, addEnums, addEnums]
    simp only [EnumType.deduped, eraseDups_eraseDups, ih]

/-- Values are legal, or one of them is the fault. -/
theorem Schema.Catalogue.addEnums_meets {c : Catalogue} {l : List EnumType}
    (h : ∀ e ∈ l, checkTypeName e.name = .ok ()) :
    Meets IsIllegalName (fun _ => ∀ e ∈ l, checkValueNames e.values.eraseDups = .ok ())
      (addEnums c l) := by
  induction l generalizing c with
  | nil => exact .of_ok rfl (by simp)
  | cons e rest ih =>
    obtain ⟨he, hrest⟩ := List.forall_mem_cons.1 h
    have hvalues : Meets IsIllegalName (fun _ => checkValueNames e.values.eraseDups = .ok ())
        ((checkValueNames e.values.eraseDups).mapError .illegalName) :=
      meets_illegalName fun _ => id
    rw [addEnums, he]
    exact hvalues.bind fun _ hfirst => (ih hrest).mono fun _ hmore =>
      List.forall_mem_cons.2 ⟨hfirst, hmore⟩

namespace Api

variable {api : Api}

/-- The API without the repetitions among the values of its enums. -/
def deduped (api : Api) : Api := { api with enums := api.enums.mapValues EnumType.deduped }

theorem values_enums_deduped (api : Api) :
    api.deduped.enums.values = api.enums.values.map EnumType.deduped := by
  rw [OrderedMap.values, deduped, OrderedMap.mapValues, List.map_map, OrderedMap.values,
    List.map_map]
  rfl

theorem keys_enums_deduped (api : Api) : api.deduped.enums.keys = api.enums.keys :=
  OrderedMap.keys_mapValues _ _

theorem typeNames_deduped (api : Api) : api.deduped.typeNames = api.typeNames := by
  rw [typeNames, typeNames, keys_enums_deduped]
  rfl

theorem isOutput_deduped {type : TypeRef} (h : api.IsOutput type) : api.deduped.IsOutput type := by
  rw [IsOutput, keys_enums_deduped]
  exact h

theorem isInput_deduped {type : TypeRef} (h : api.IsInput type) : api.deduped.IsInput type := by
  rw [IsInput, keys_enums_deduped]
  exact h

/-- Repetitions make no difference to what is built. -/
theorem build_deduped (api : Api) : build api.deduped = build api := by
  have hcatalogue : Catalogue.ofApi api.deduped = Catalogue.ofApi api := by
    simp only [Catalogue.ofApi, values_enums_deduped, Catalogue.addEnums_deduped]
    rfl
  rw [build, build, hcatalogue]
  rfl

theorem Sided.deduped (h : api.Sided) : api.deduped.Sided where
  objectsNamed := h.objectsNamed
  enumsNamed e he := by
    obtain ⟨entry, hentry, rfl⟩ := List.mem_map.1 he
    exact h.enumsNamed entry hentry
  inputsNamed := h.inputsNamed
  distinct := by
    rw [typeNames_deduped]
    exact h.distinct
  legal := by
    rw [typeNames_deduped]
    exact h.legal
  rootsFree := by
    rw [typeNames_deduped]
    exact h.rootsFree
  objects d hd f hf := isOutput_deduped (h.objects d hd f hf)
  inputs i hi e he := (h.inputs i hi e he).imp_right isInput_deduped
  operations o ho := by
    obtain ⟨hreturn, harguments⟩ := h.operations o ho
    exact ⟨isOutput_deduped hreturn, fun a ha => (harguments a ha).imp_right isInput_deduped⟩

/-- Without repetitions the enums are catalogued, if their values are legal. -/
theorem Sided.catalogued (h : api.Sided)
    (hvalues : ∀ e ∈ api.enums.values, checkValueNames e.values.eraseDups = .ok ()) :
    api.deduped.Catalogued where
  objectsNamed := h.deduped.objectsNamed
  enumsNamed := h.deduped.enumsNamed
  inputsNamed := h.deduped.inputsNamed
  distinct := h.deduped.distinct
  legal := h.deduped.legal
  enums := by
    rw [values_enums_deduped, List.forall_mem_map]
    exact fun e he => ⟨eraseDups_eraseDups e.values, hvalues e he⟩

theorem Sided.ofApi_meets (h : api.Sided) :
    Meets IsIllegalName
      (fun _ => ∀ e ∈ api.enums.values, checkValueNames e.values.eraseDups = .ok ())
      (Catalogue.ofApi api) := by
  obtain ⟨hobjectKeys, henumKeys, hinputKeys⟩ := forall_mem_typeNames.1 h.legal
  have hobjects := Catalogue.checkTypeName_of_keys h.objectsNamed hobjectKeys
  have henums := Catalogue.checkTypeName_of_keys h.enumsNamed henumKeys
  have hinputs := Catalogue.checkTypeName_of_keys h.inputsNamed hinputKeys
  rw [Catalogue.ofApi, Catalogue.addObjects_eq hobjects]
  exact (Catalogue.addEnums_meets henums).bind fun c hvalues =>
    .of_ok (Catalogue.addInputs_eq fun i hi => hinputs i (List.mem_filter.1 hi).1) hvalues

/-- **A sided API is built, or there is an illegal name.** -/
theorem Sided.build_meets (h : api.Sided) :
    Meets IsIllegalName (fun s => api.deduped.Catalogued ∧ api.deduped.Built s) (build api) := by
  by_cases hvalues : ∀ e ∈ api.enums.values, checkValueNames e.values.eraseDups = .ok ()
  · have hc := h.catalogued hvalues
    rw [← build_deduped]
    have hnames : api.deduped.ChecksNames IsIllegalName :=
      fun _ _ => meets_illegalName fun _ _ => trivial
    exact (Api.build_meets (h.deduped.resolves hc hnames)).mono fun s hs => ⟨hc, hs⟩
  · rw [build]
    exact h.ofApi_meets.bind fun c hlegal => absurd hlegal hvalues

/-- A sided API is built if its names and values are legal. -/
theorem Sided.exists_build (h : api.Sided) (hnames : ∀ n ∈ api.memberNames, IsName n)
    (hvalues : ∀ e ∈ api.enums.values, checkValueNames e.values.eraseDups = .ok ()) :
    ∃ s, build api = .ok s := by
  have hchecks : api.deduped.ChecksNames fun _ => False := by
    intro names hsub
    rw [checkNames_eq_ok_iff.2 fun n hn => hnames n (hsub hn)]
    trivial
  obtain ⟨s, hbuild, -⟩ :=
    (Api.build_meets (h.deduped.resolves (h.catalogued hvalues) hchecks)).exists_ok
  exact ⟨s, build_deduped api ▸ hbuild⟩

/-! ## What is left out -/

variable {s : Schema}

/-- The inputs of a schema are those with fields that something refers to, each without the fields
that are left out. -/
theorem Built.mem_inputs (hs : api.Built s) {i : InputType} :
    .input i ∈ s.types ↔ (∃ j ∈ api.filledInputs, i = api.trim j) ∧
      ∃ t ∈ s.types, i.name ∈ t.references := by
  constructor
  · intro hi
    refine ⟨?_, hs.origin _ hi rfl⟩
    obtain ⟨d, hd, htrimmed⟩ := hs.resolved _ hi rfl
    rcases mem_definitions.1 hd with ⟨kind, -, rfl⟩ | ⟨o, -, -, rfl⟩ | ⟨e, -, -, rfl⟩ |
      ⟨j, hj, -, rfl⟩
    · cases htrimmed
    · cases htrimmed
    · cases htrimmed
    · exact ⟨j, hj, NamedType.input.inj htrimmed⟩
  · rintro ⟨⟨j, hj, rfl⟩, t, ht, href⟩
    have hentry : (j.name, Definition.input j) ∈ api.definitions :=
      mem_definitions.2 (.inr (.inr (.inr ⟨j, hj, rfl, rfl⟩)))
    exact hs.closed t ht j.name href _ hentry rfl

/-- An input loses all its fields if each is of an input without fields. -/
theorem entries_trim_eq_nil_iff {i : InputObject} :
    (api.trim i).fields.entries = [] ↔ ∀ e ∈ i.fields.entries, api.leavesOut e.2.type = true := by
  rw [entries_trim, List.map_eq_nil_iff, List.filter_eq_nil_iff]
  simp

/-- The references of a root are to what operations return and to the arguments that are kept. -/
theorem kept_of_mem_root (h : api.Sided) (hc : api.Catalogued) {name : String}
    {operations : NameMap Operation}
    (hroot : ∀ o ∈ operations.values, o ∈ api.query.values ++ api.mutation.values)
    {e : String × OutputField} (he : e ∈ (api.root name operations).fields.entries) {n : String}
    (hn : n ∈ e.2.references) : ∃ type, type.innermost? = some n ∧ api.leavesOut type = false := by
  obtain ⟨o, ho, rfl⟩ := List.mem_map.1 (OrderedMap.mem_of_mem_entries_ofList he)
  obtain ⟨hreturn, harguments⟩ := h.operations o (hroot o ho)
  rcases List.mem_cons.1 hn with rfl | hargument
  · obtain ⟨m, hm, -⟩ := id hreturn
    exact ⟨o.returnType, TypeRef.innermost?_eq_wrapped hm _, leavesOut_of_isOutput hc hreturn⟩
  · obtain ⟨w, hw, rfl⟩ := List.mem_map.1 hargument
    obtain ⟨key, hentry⟩ := OrderedMap.mem_values.1 hw
    obtain ⟨a, ha, heq⟩ := List.mem_map.1 (OrderedMap.mem_of_mem_entries_ofList hentry)
    cases heq
    obtain ⟨ha, hkept⟩ := List.mem_filter.1 ha
    have hkept : api.leavesOut a.type = false := by simpa using hkept
    obtain ⟨m, hm⟩ := exists_innermost?_of_kept hkept (harguments a ha)
    exact ⟨a.type, TypeRef.innermost?_eq_wrapped hm _, hkept⟩

/-- **What a built schema refers to is not left out.** -/
theorem Built.kept_of_mem_references (h : api.Sided) (hc : api.Catalogued) (hs : api.Built s)
    {t : NamedType} (ht : t ∈ s.types) {n : String} (hn : n ∈ t.references) :
    ∃ type, type.innermost? = some n ∧ api.leavesOut type = false := by
  cases t with
  | scalar kind => cases hn
  | enum e => cases hn
  | input i =>
    obtain ⟨⟨j, hj, rfl⟩, -⟩ := hs.mem_inputs.1 ht
    obtain ⟨entry, hentry, rfl⟩ := mem_references_input.1 hn
    rw [entries_trim] at hentry
    obtain ⟨e, he, rfl⟩ := List.mem_map.1 hentry
    obtain ⟨he, hkept⟩ := List.mem_filter.1 he
    have hkept : api.leavesOut e.2.type = false := by simpa using hkept
    obtain ⟨m, hm⟩ := exists_innermost?_of_kept hkept (h.inputs j (List.mem_filter.1 hj).1 e he)
    exact ⟨e.2.type, TypeRef.innermost?_eq_wrapped hm _, hkept⟩
  | object o =>
    obtain ⟨e, he, hname⟩ := mem_references_object.1 hn
    rcases (mem_objects_of_filterMap hs.objects).1 ht with ⟨d, hd, rfl⟩ | hroot
    · obtain ⟨f, hf, rfl⟩ := List.mem_map.1 (OrderedMap.mem_of_mem_entries_ofList he)
      obtain rfl := List.mem_singleton.1 hname
      have houtput := h.objects d hd f hf
      obtain ⟨m, hm, -⟩ := id houtput
      exact ⟨f.type, TypeRef.innermost?_eq_wrapped hm _, leavesOut_of_isOutput hc houtput⟩
    · rcases mem_roots hroot with rfl | ⟨rfl, -⟩
      · exact kept_of_mem_root h hc (fun o ho => List.mem_append_left _ ho) he hname
      · exact kept_of_mem_root h hc (fun o ho => List.mem_append_right _ ho) he hname

/-- An input without fields is not referred to. -/
theorem Built.filled_of_mem_references (h : api.Sided) (hc : api.Catalogued) (hs : api.Built s)
    {t : NamedType} (ht : t ∈ s.types) {i : InputObject} (hi : i ∈ api.inputs.values)
    (hn : i.name ∈ t.references) : i.fields.isEmpty = false := by
  obtain ⟨type, hname, hkept⟩ := hs.kept_of_mem_references h hc ht hn
  rwa [leavesOut, hname, Option.any_some, OrderedMap.get?_of_mem_values h.inputsNamed hi,
    Option.any_some] at hkept

theorem Built.nodup_typeNames (h : api.Sided) (hc : api.Catalogued) (hs : api.Built s) :
    s.typeNames.Nodup := by
  refine hc.nodup_typeNames h.rootsFree hs.objects hs.distinct fun t ht hobject => ?_
  obtain ⟨d, hd, htrimmed⟩ := hs.resolved t ht hobject
  rw [htrimmed, object?_trimmed] at hobject
  exact mem_freshNames_of_mem_definitions hc hd hobject

end Api

/-! ## The verdict -/

namespace Api

variable {api : Api} {s : Schema}

/-- The assembly fails, and one of its reasons is that the input of the name has no fields. -/
def BlamesEmptyInput (api : Api) (n : String) : Prop :=
  ∃ messages, (assemble api).result = .error (.invalid messages) ∧
    (Flaw.noInputFields n).message ∈ messages

theorem blamesEmptyInput_iff (hbuild : build api = .ok s) (hnodup : s.typeNames.Nodup)
    {n : String} :
    api.BlamesEmptyInput n ↔ ∃ i, .input i ∈ s.types ∧ i.name = n ∧ i.fields.entries = [] := by
  have hassemble : ∀ messages, (assemble api).result = .error (.invalid messages) ↔
      judge s = .error (.invalid messages) := by
    intro messages
    rw [assemble, hbuild]
    dsimp only
    cases judge s with
    | error e => constructor <;> intro h <;> cases h <;> rfl
    | ok => constructor <;> intro h <;> cases h
  rw [BlamesEmptyInput]
  simp only [hassemble]
  rw [judge_eq_invalid_iff hnodup, ← noInputFields_mem_flaws]
  constructor
  · rintro ⟨flaw, hflaw, hmessage⟩
    exact Flaw.eq_noInputFields_of_message hmessage ▸ hflaw
  · intro hflaw
    exact ⟨_, hflaw, rfl⟩

/-- The inputs to blame are those that lose all their fields and are referred to. -/
theorem Sided.blames_iff (h : api.Sided) (hbuild : build api = .ok s) {n : String} :
    api.BlamesEmptyInput n ↔ ∃ i ∈ api.filledInputs, i.name = n ∧
      (∀ e ∈ i.fields.entries, api.leavesOut e.2.type = true) ∧
      ∃ t ∈ s.types, n ∈ t.references := by
  obtain ⟨hc, hs⟩ := h.build_meets.of_eq_ok hbuild
  rw [blamesEmptyInput_iff hbuild (hs.nodup_typeNames h.deduped hc)]
  constructor
  · rintro ⟨i, hi, rfl, hnone⟩
    obtain ⟨⟨j, hj, rfl⟩, href⟩ := hs.mem_inputs.1 hi
    exact ⟨j, hj, rfl, entries_trim_eq_nil_iff.1 hnone, href⟩
  · rintro ⟨j, hj, rfl, hout, href⟩
    exact ⟨api.trim j, hs.mem_inputs.2 ⟨⟨j, hj, rfl⟩, href⟩, rfl, entries_trim_eq_nil_iff.2 hout⟩

/-- **Inputs are left out in one round, and an input that loses all its fields stays.** A sided API
is built unless a name of a member or a value is illegal. What is built has the declared objects and
the roots without the arguments that are left out; it has the inputs with fields that something
refers to, without the fields that are left out; and nothing in it refers to an input without
fields. The assembly then fails for an input without fields exactly if something refers to an input
with fields all of which are left out. -/
theorem emptied_inputs_stay (h : api.Sided) :
    (∀ e, build api = .error e → ∃ fault, e = .illegalName fault) ∧
    ((∀ n ∈ api.memberNames, IsName n) →
      (∀ e ∈ api.enums.values, checkValueNames e.values.eraseDups = .ok ()) →
      ∃ s, build api = .ok s) ∧
    ∀ s, build api = .ok s →
      (∀ o, .object o ∈ s.types ↔
        (∃ d ∈ api.objects.values, o = d.toObject) ∨ o ∈ api.roots) ∧
      (∀ i, .input i ∈ s.types ↔ (∃ j ∈ api.filledInputs, i = api.trim j) ∧
        ∃ t ∈ s.types, i.name ∈ t.references) ∧
      (∀ t ∈ s.types, ∀ i ∈ api.inputs.values, i.name ∈ t.references →
        i.fields.isEmpty = false) ∧
      ∀ n, api.BlamesEmptyInput n ↔ ∃ i ∈ api.filledInputs, i.name = n ∧
        (∀ e ∈ i.fields.entries, api.leavesOut e.2.type = true) ∧
        ∃ t ∈ s.types, n ∈ t.references := by
  refine ⟨fun e hbuild => h.build_meets.of_eq_error hbuild, h.exists_build, fun s hbuild => ?_⟩
  obtain ⟨hc, hs⟩ := h.build_meets.of_eq_ok hbuild
  exact ⟨fun o => mem_objects_of_filterMap hs.objects, fun i => hs.mem_inputs,
    fun t ht i hi => hs.filled_of_mem_references h.deduped hc ht hi,
    fun n => h.blames_iff hbuild⟩

/-- An input with one field, of an input without fields. -/
def outerInput : InputObject :=
  { name := "Outer", fields := .ofList [("inner", { type := .named "Inner" })] }

/-- An operation takes an input whose only field is of an input without fields. -/
def nestedInputs : Api where
  objects := .ofList [("Tag", { name := "Tag", fields := [⟨"id", .named "ID", false⟩] })]
  inputs := .ofList [("Inner", { name := "Inner" }), ("Outer", outerInput)]
  enums := .empty
  query := .ofList
    [("tag",
      { name := "tag", typeName := "Tag", returnType := .named "Tag",
        arguments := [⟨"outer", .named "Outer", true⟩] })]
  mutation := .empty
  derived := .empty

theorem sided_nestedInputs : nestedInputs.Sided where
  objectsNamed := by decide
  enumsNamed := by decide
  inputsNamed := by decide
  distinct := by decide
  legal := by decide
  rootsFree := by decide
  objects := by
    have hvalues : nestedInputs.objects.values =
        [{ name := "Tag", fields := [⟨"id", .named "ID", false⟩] }] := by decide
    intro d hd f hf
    rw [hvalues, List.mem_singleton] at hd
    subst hd
    obtain rfl := List.mem_singleton.1 hf
    exact ⟨"ID", rfl, .inl ⟨.id, rfl⟩⟩
  inputs := by
    have hout : ∀ i ∈ nestedInputs.inputs.values, ∀ e ∈ i.fields.entries,
        nestedInputs.leavesOut e.2.type = true := by decide
    exact fun i hi e he => .inl (hout i hi e he)
  operations := by
    have hvalues : nestedInputs.query.values ++ nestedInputs.mutation.values =
        [{ name := "tag", typeName := "Tag", returnType := .named "Tag",
           arguments := [⟨"outer", .named "Outer", true⟩] }] := by decide
    have houter : outerInput ∈ nestedInputs.filledInputs := by decide
    intro o ho
    rw [hvalues, List.mem_singleton] at ho
    subst ho
    refine ⟨⟨"Tag", rfl, .inr (.inl (by decide))⟩, fun a ha => .inr ?_⟩
    obtain rfl := List.mem_singleton.1 ha
    exact ⟨"Outer", rfl, .inr (.inr ⟨outerInput, houter, rfl⟩)⟩

theorem memberNames_nestedInputs : ∀ n ∈ nestedInputs.memberNames, IsName n := by decide

theorem outer_mem_references :
    ∃ o ∈ nestedInputs.roots, "Outer" ∈ (NamedType.object o).references := by
  decide

theorem nestedInputs_blames_outer :
    nestedInputs.Sided ∧ nestedInputs.BlamesEmptyInput "Outer" := by
  obtain ⟨-, hbuilds, hbuilt⟩ := emptied_inputs_stay sided_nestedInputs
  obtain ⟨s, hs⟩ := hbuilds memberNames_nestedInputs (by decide)
  obtain ⟨hobjects, -, -, hblames⟩ := hbuilt s hs
  obtain ⟨o, ho, href⟩ := outer_mem_references
  refine ⟨sided_nestedInputs, (hblames "Outer").2
    ⟨outerInput, by decide, rfl, by decide, .object o, ?_, href⟩⟩
  exact (hobjects o).2 (.inr ho)

/-- An input is not left out with its last field, and the assembly fails for it. -/
theorem nestedInputs_keeps_outer :
    nestedInputs.Sided ∧ nestedInputs.query.values ≠ [] ∧
      (∀ d ∈ nestedInputs.objects.values, d.fields ≠ []) ∧
      (∀ e ∈ outerInput.fields.entries, nestedInputs.leavesOut e.2.type = true) ∧
      ∃ s, build nestedInputs = .ok s ∧
        (∃ i, .input i ∈ s.types ∧ i.name = outerInput.name ∧ i.fields.entries = []) ∧
        nestedInputs.BlamesEmptyInput outerInput.name := by
  have hout : ∀ e ∈ outerInput.fields.entries, nestedInputs.leavesOut e.2.type = true := by
    decide
  obtain ⟨s, hbuild⟩ :=
    sided_nestedInputs.exists_build memberNames_nestedInputs (by decide)
  obtain ⟨hc, hs⟩ := sided_nestedInputs.build_meets.of_eq_ok hbuild
  have hblames : nestedInputs.BlamesEmptyInput outerInput.name := by
    obtain ⟨o, ho, href⟩ := outer_mem_references
    exact (sided_nestedInputs.blames_iff hbuild).2 ⟨outerInput, by decide, rfl, hout,
      .object o, (mem_objects_of_filterMap hs.objects).2 (.inr ho), href⟩
  refine ⟨sided_nestedInputs, by decide, by decide, hout, s, hbuild, ?_, hblames⟩
  exact (blamesEmptyInput_iff hbuild (hs.nodup_typeNames sided_nestedInputs.deduped hc)).1 hblames

end Api

end CrudSchema
