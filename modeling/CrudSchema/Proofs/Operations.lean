import CrudSchema.Proofs.Content

/-!
# The operations of an API

**What a type is served by** (`Api.Serves`). Two queries and three mutations, each under its own
name. Those that pick an object take its identifier; the others take inputs, and these are the
inputs that the table of derived types names for the type and that are registered.

**All types** (`Compiled.keys_query`, `Compiled.keys_mutation`). The operations of a map stand in
the order of its types, two or three for each. None is lost to another one of the same name, so they
can be counted.

Main result: `compile_operations`.
-/

namespace CrudSchema

open Naming

/-! ## What a type is served by -/

/-- Under the name there is an operation of the type, with these arguments and a result that is
never missing. -/
def OrderedMap.HasOperation (operations : NameMap Operation) (name typeName : String)
    (arguments : List Argument) (result : TypeRef) : Prop :=
  ∃ o, operations.get? name = some o ∧ o.name = name ∧ o.typeName = typeName ∧
    o.arguments = arguments ∧ o.returnType = result ∧ o.returnNullable = false

/-- The type with this identifier has its operations, its entry in the table of derived types, and
the inputs that are named there. -/
structure Api.Serves (api : Api) (n identifier : String) (derived : DerivedTypes) : Prop where
  listed : api.derived.get? n = some derived
  names : derived = ⟨n, identifier, n ++ "FilterInput", n ++ "SortInput", n ++ "CreateInput",
    n ++ "UpdateInput"⟩
  registered : ∀ name ∈ [derived.filterInput, derived.sortInput, derived.createInput,
    derived.updateInput], ∃ i, api.inputs.get? name = some i ∧ i.name = name
  single : api.query.HasOperation (Text.lower n) n [⟨identifier, .named "ID", false⟩] (.named n)
  list : api.query.HasOperation (Text.lower n ++ "s") n
    [⟨"limit", .named "Int", true⟩, ⟨"offset", .named "Int", true⟩,
      ⟨"filter", .named derived.filterInput, true⟩, ⟨"sort", .named derived.sortInput, true⟩]
    (.list (.named n) false)
  create : api.mutation.HasOperation ("create" ++ n) n
    [⟨"input", .named derived.createInput, false⟩] (.named n)
  update : api.mutation.HasOperation ("update" ++ n) n
    [⟨"input", .named derived.updateInput, false⟩] (.named n)
  delete : api.mutation.HasOperation ("delete" ++ n) n [⟨identifier, .named "ID", false⟩]
    (.named n)

/-! ## All types -/

namespace Compiled

variable {logical : Bool} {types : TypeMap} {ts : List ClassifiedType} {api : Api}

theorem keys_query (h : Compiled logical types ts api) :
    api.query.keys = types.keys.flatMap queryNames := by
  rw [OrderedMap.keys_eq_map_values h.queryNamed, h.values_query, Derive.map_name_queries,
    h.merged.map_name_eq h.usable]

theorem keys_mutation (h : Compiled logical types ts api) :
    api.mutation.keys = types.keys.flatMap mutationNames := by
  rw [OrderedMap.keys_eq_map_values h.mutationNamed, h.values_mutation, Derive.map_name_mutations,
    h.merged.map_name_eq h.usable]

theorem get?_query (h : Compiled logical types ts api) {t : ClassifiedType} (ht : t ∈ ts)
    {o : Operation} (ho : o ∈ t.queries) : api.query.get? o.name = some o := by
  refine OrderedMap.get?_of_mem_values h.queryNamed ?_
  rw [h.values_query]
  exact List.mem_flatMap.2 ⟨t, ht, ho⟩

theorem get?_mutation (h : Compiled logical types ts api) {t : ClassifiedType} (ht : t ∈ ts)
    {o : Operation} (ho : o ∈ t.mutations) : api.mutation.get? o.name = some o := by
  refine OrderedMap.get?_of_mem_values h.mutationNamed ?_
  rw [h.values_mutation]
  exact List.mem_flatMap.2 ⟨t, ht, ho⟩

theorem get?_derived (h : Compiled logical types ts api) {t : ClassifiedType} (ht : t ∈ ts) :
    api.derived.get? t.name = some t.derivedTypes := by
  rw [OrderedMap.get?_eq_some_iff, h.derived, List.map_map]
  exact List.mem_map_of_mem (f := (fun d : DerivedTypes => (d.typeName, d)) ∘ _) ht

theorem get?_inputName (h : Compiled logical types ts api) {t : ClassifiedType} (ht : t ∈ ts)
    {n : String} (hn : n ∈ inputNames t.name) : ∃ i, api.inputs.get? n = some i ∧ i.name = n := by
  rw [← t.map_name_inputs logical] at hn
  obtain ⟨i, hi, rfl⟩ := List.mem_map.1 hn
  have hvalue := h.mem_inputs_of_type ht hi
  exact ⟨i, OrderedMap.get?_of_mem_values h.inputsNamed hvalue, rfl⟩

/-- Every type of a run is served. -/
theorem serves (h : Compiled logical types ts api) {t : ClassifiedType} (ht : t ∈ ts) :
    api.Serves t.name t.identifier t.derivedTypes := by
  have hquery : ∀ o ∈ t.queries, api.query.HasOperation o.name o.typeName o.arguments
      o.returnType := by
    intro o ho
    refine ⟨o, h.get?_query ht ho, rfl, rfl, rfl, rfl, ?_⟩
    simp only [ClassifiedType.queries, List.mem_cons, List.not_mem_nil, or_false] at ho
    rcases ho with rfl | rfl <;> rfl
  have hmutation : ∀ o ∈ t.mutations, api.mutation.HasOperation o.name o.typeName o.arguments
      o.returnType := by
    intro o ho
    refine ⟨o, h.get?_mutation ht ho, rfl, rfl, rfl, rfl, ?_⟩
    simp only [ClassifiedType.mutations, List.mem_cons, List.not_mem_nil, or_false] at ho
    rcases ho with rfl | rfl | rfl <;> rfl
  exact {
    listed := h.get?_derived ht
    names := rfl
    registered := fun name hname => h.get?_inputName ht hname
    single := hquery t.singleQuery (by simp [ClassifiedType.queries])
    list := hquery t.listQuery (by simp [ClassifiedType.queries])
    create := hmutation t.createMutation (by simp [ClassifiedType.mutations])
    update := hmutation t.updateMutation (by simp [ClassifiedType.mutations])
    delete := hmutation t.deleteMutation (by simp [ClassifiedType.mutations]) }

end Compiled

/-- **The operations of an API are those of its types.** In the order of the map every type has two
queries and three mutations, and none besides. They take and give what belongs to the type: its one
identifier, and the inputs that are derived from it. -/
theorem compile_operations {documents : List Document} {options : SynthesisOptions}
    {types : TypeMap} {api : Api} (hmerge : (merge documents).result = .ok types)
    (hcompile : (compile options types).result = .ok api) :
    api.query.keys = types.keys.flatMap (fun n => [Text.lower n, Text.lower n ++ "s"]) ∧
    api.mutation.keys =
      types.keys.flatMap (fun n => ["create" ++ n, "update" ++ n, "delete" ++ n]) ∧
    api.query.size = 2 * types.size ∧ api.mutation.size = 3 * types.size ∧
    ∀ d ∈ types.values, ∃ identifier derived,
      d.fields.filter Field.isIdentifier = [identifier] ∧
      api.Serves d.name identifier.name derived := by
  have hm := merged_of_merge hmerge
  obtain ⟨ts, h⟩ := exists_compiled hm hcompile
  have hsize : ∀ {α : Type} (m : NameMap α), m.size = m.keys.length := fun m =>
    (List.length_map _).symm
  refine ⟨h.keys_query, h.keys_mutation, ?_, ?_, fun d hd => ?_⟩
  · rw [hsize, hsize, h.keys_query]
    simp [List.length_flatMap, queryNames, Nat.mul_comm]
  · rw [hsize, hsize, h.keys_mutation]
    simp [List.length_flatMap, mutationNames, Nat.mul_comm]
  · obtain ⟨t, ht, rfl⟩ := exists_type_of_usable h.usable hd
    obtain ⟨identifier, hid, hname⟩ := (h.sound ht).1.exists_filter_isIdentifier
    refine ⟨identifier, t.derivedTypes, hid, ?_⟩
    rw [hname]
    exact h.serves ht

/-- A type with two fields of type `ID`, of which the second is its identifier, and one that lists
it. -/
def postAndAuthor : List Document :=
  [{ types := [{ name := "Post", fields := [⟨"origin", .named "ID", true⟩,
      ⟨"slug", .named "ID", false⟩] },
    { name := "Author", fields := [⟨"id", .named "ID", false⟩,
      ⟨"posts", .requiredListOf "Post", true⟩] }] }]

/-- Posts are picked by their slug, and authors come behind them. -/
theorem postAndAuthor_served : ∃ types api derived,
    (merge postAndAuthor).result = .ok types ∧ (compile {} types).result = .ok api ∧
    api.query.keys = ["post", "posts", "author", "authors"] ∧ api.mutation.size = 6 ∧
    api.Serves "Post" "slug" derived := by
  obtain ⟨types, hmerge⟩ : ∃ types, (merge postAndAuthor).result = .ok types := ⟨_, rfl⟩
  have hok : (compile {} types).result.isOk = true := by
    cases hmerge
    decide
  obtain ⟨api, hcompile⟩ := Except.exists_of_isOk hok
  obtain ⟨hquery, -, -, hmutation, hserves⟩ := compile_operations hmerge hcompile
  have hpost : ∃ d ∈ types.values, d.name = "Post" ∧
      (d.fields.filter Field.isIdentifier).map Field.name = ["slug"] := by
    cases hmerge
    decide
  obtain ⟨d, hd, hname, hslug⟩ := hpost
  obtain ⟨identifier, derived, hid, hpost⟩ := hserves d hd
  rw [hid, List.map_singleton, List.cons.injEq] at hslug
  rw [hname, hslug.1] at hpost
  refine ⟨types, api, derived, hmerge, hcompile, ?_, ?_, hpost⟩
  · rw [hquery]
    cases hmerge
    decide
  · rw [hmutation]
    cases hmerge
    rfl

end CrudSchema
