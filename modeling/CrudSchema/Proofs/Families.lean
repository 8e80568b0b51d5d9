import CrudSchema.Proofs.Content
import CrudSchema.Proofs.Growth

/-!
# The inputs of an API

**Kinds in use** (`TypeMap.Uses`). A scalar kind gets its family of inputs when the filter of some
type first needs it, in the middle of a run, and no second time. In the end the families are those
of the kinds that stand at the top of some field (`Compiled.keys_inputs_perm`); a kind that occurs
only in lists has none.

**The content of a family** (`HoldsFamily`). It follows the table of filter shapes.

**Filters of types** (`Declaration.filterFields`). A filter has a field for every field of a scalar
type, and it leads to the family of that scalar.

Main result: `compile_inputs`.
-/

namespace CrudSchema

open Naming

/-! ## Kinds in use -/

instance (types : TypeMap) (kind : ScalarKind) : Decidable (types.Uses kind) :=
  inferInstanceAs (Decidable (∃ d ∈ types.values, ∃ f ∈ d.fields, f.type = .named kind.name))

/-- The scalar kinds in use, each once. -/
def TypeMap.usedKinds (types : TypeMap) : List ScalarKind :=
  ScalarKind.all.filter fun kind => types.Uses kind

theorem TypeMap.mem_usedKinds {types : TypeMap} {kind : ScalarKind} :
    kind ∈ types.usedKinds ↔ types.Uses kind := by
  simp [usedKinds, kind.mem_all]

/-! ## Filters of types -/

/-- The fields of the filter of a declaration: one for each field that has a scalar type, and with
logical filters the lists of the filter itself. -/
def Declaration.filterFields (d : Declaration) (logical : Bool) : List (String × InputField) :=
  d.fields.filterMap (fun f =>
    f.type.scalar?.map fun kind => (f.name, ⟨.named (scalarFilter kind), true, none⟩)) ++
  if logical then
    [("and", ⟨.requiredListOf (filterInput d.name), true, some "All filters must match."⟩),
      ("or", ⟨.requiredListOf (filterInput d.name), true,
        some "At least one filter must match."⟩)]
  else []

theorem ClassifiedType.Sound.allFilterEntries_eq {known : List String} {t : ClassifiedType}
    (h : Sound known t) (logical : Bool) :
    t.allFilterEntries logical = t.declaration.filterFields logical := by
  have hentries : t.filterEntries = t.declaration.fields.filterMap fun f =>
      f.type.scalar?.map fun kind => (f.name, ⟨.named (scalarFilter kind), true, none⟩) := by
    rw [filterEntries, ← h.fields_eq, List.filterMap_map]
    refine List.filterMap_congr fun x hx => ?_
    rw [Function.comp_apply, kind?_of_classifyRef (h.class_eq hx)]
  rw [allFilterEntries, hentries, Declaration.filterFields]
  rfl

/-! ## The inputs of a run -/

namespace Compiled

variable {logical : Bool} {types : TypeMap} {ts : List ClassifiedType} {api : Api}

/-- **The inputs of an API**: the families of the kinds in use and four for every type. -/
theorem keys_inputs_perm (h : Compiled logical types ts api) :
    api.inputs.keys.Perm
      (types.usedKinds.flatMap familyNames ++ types.keys.flatMap inputNames) := by
  have hkinds : (Derive.freshKinds [] (ts.flatMap ClassifiedType.filterKinds)).Perm
      types.usedKinds := by
    refine (List.perm_ext_iff_of_nodup (Derive.nodup_freshKinds _ _) ?_).2 fun kind => ?_
    · exact List.Nodup.filter _ (by decide)
    · rw [h.merged.uses_iff h.usable, TypeMap.mem_usedKinds]
  have hinputs := (Derive.additions_inputs_perm logical [] [Derive.sortDirections] ts).map
    InputObject.name
  rw [List.map_append, Derive.map_name_families, List.map_flatMap] at hinputs
  simp only [ClassifiedType.map_name_inputs] at hinputs
  rw [h.keys_inputs, h.values_inputs, ← h.merged.map_name_eq h.usable, List.flatMap_map]
  exact hinputs.trans ((hkinds.flatMap_right _).append_right _)

theorem holdsFamily (h : Compiled logical types ts api) {kind : ScalarKind}
    (hkind : types.Uses kind) : HoldsFamily api.inputs kind := by
  refine .of_family fun i hi => OrderedMap.get?_of_mem_values h.inputsNamed ?_
  exact h.mem_inputs.2 (.inl ⟨kind, hkind, hi⟩)

/-- A kind that is not in use has no input. -/
theorem familyNames_not_mem (h : Compiled logical types ts api) {kind : ScalarKind}
    (hkind : ¬ types.Uses kind) {n : String} (hn : n ∈ familyNames kind) :
    n ∉ api.inputs.keys := by
  intro hkey
  rw [h.keys_inputs_perm.mem_iff, List.mem_append, List.mem_flatMap, List.mem_flatMap] at hkey
  rcases hkey with ⟨k, hk, hnk⟩ | ⟨t, ht, hnt⟩
  · obtain rfl := eq_of_mem_familyNames hn hnk
    exact hkind (TypeMap.mem_usedKinds.1 hk)
  · exact not_mem_familyNames (h.merged.ne_scalar ht kind) hnt hn

theorem entries_filterInput (h : Compiled logical types ts api) {t : ClassifiedType} (ht : t ∈ ts) :
    ∃ i, api.inputs.get? (filterInput t.name) = some i ∧
      i.fields.entries = t.declaration.filterFields logical := by
  have hsound := (h.sound ht).1
  have hvalue : t.filterInput logical ∈ api.inputs.values :=
    h.mem_inputs_of_type ht (List.mem_cons_self ..)
  have hget := OrderedMap.get?_of_mem_values h.inputsNamed hvalue
  rw [t.name_filterInput] at hget
  refine ⟨_, hget, ?_⟩
  rw [hsound.entries_filterInput (h.clash?_eq_none ht), hsound.allFilterEntries_eq]

end Compiled

/-- **An API has the inputs of its types and of the scalar kinds they use, and no others.** Each
kind in use has one family, which is what the table of filter shapes says, and the filter of every
type leads from each of its fields to the family of the scalar of that field. -/
theorem compile_inputs {documents : List Document} {options : SynthesisOptions} {types : TypeMap}
    {api : Api} (hmerge : (merge documents).result = .ok types)
    (hcompile : (compile options types).result = .ok api) :
    api.inputs.keys.Perm
      (types.usedKinds.flatMap familyNames ++ types.keys.flatMap inputNames) ∧
    (∀ e ∈ api.inputs.entries, e.1 = e.2.name) ∧
    (∀ kind, types.Uses kind → HoldsFamily api.inputs kind) ∧
    (∀ kind, ¬ types.Uses kind → ∀ n ∈ familyNames kind, n ∉ api.inputs.keys) ∧
    ∀ d ∈ types.values, ∃ i, api.inputs.get? (filterInput d.name) = some i ∧
      i.fields.entries = d.filterFields options.logicalFilters := by
  have hm := merged_of_merge hmerge
  obtain ⟨ts, h⟩ := exists_compiled hm hcompile
  refine ⟨h.keys_inputs_perm, h.inputsNamed, fun kind => h.holdsFamily,
    fun kind hkind n => h.familyNames_not_mem hkind, fun d hd => ?_⟩
  obtain ⟨t, ht, rfl⟩ := exists_type_of_usable h.usable hd
  exact h.entries_filterInput ht

/-- Two types with strings, of which one also has integers, but in a list only. -/
def memberAndTeam : List Document :=
  [{ types := [{ name := "Member", fields := [⟨"id", .named "ID", false⟩,
      ⟨"name", .named "String", false⟩, ⟨"team", .named "Team", true⟩] },
    { name := "Team", fields := [⟨"id", .named "ID", false⟩, ⟨"name", .named "String", true⟩,
      ⟨"scores", .list (.named "Int") false, true⟩] }] }]

/-- There are two families for the two types, and none for integers. -/
theorem memberAndTeam_inputs : ∃ types api,
    (merge memberAndTeam).result = .ok types ∧ (compile {} types).result = .ok api ∧
    api.inputs.keys.length = 16 ∧ HoldsFamily api.inputs .string ∧
    "IntFilterInput" ∉ api.inputs.keys := by
  obtain ⟨types, hmerge⟩ : ∃ types, (merge memberAndTeam).result = .ok types := ⟨_, rfl⟩
  have hok : (compile {} types).result.isOk = true := by
    cases hmerge
    decide
  have hlength : (types.usedKinds.flatMap familyNames ++
      types.keys.flatMap inputNames).length = 16 := by
    cases hmerge
    decide
  have hstring : types.Uses .string := by
    cases hmerge
    decide
  have hint : ¬ types.Uses .int := by
    cases hmerge
    decide
  obtain ⟨api, hcompile⟩ := Except.exists_of_isOk hok
  obtain ⟨hkeys, -, hfamily, hnone, -⟩ := compile_inputs hmerge hcompile
  exact ⟨types, api, hmerge, hcompile, hkeys.length_eq.trans hlength, hfamily _ hstring,
    hnone _ hint _ (by decide)⟩

end CrudSchema
