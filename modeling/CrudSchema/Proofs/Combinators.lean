import CrudSchema.Proofs.Reordering
import Mathlib.Data.List.Forall2

/-!
# With and without logical filters

**The difference** (`Api.PlusCombinators`). With logical filters the filter inputs of declared types
end in two more fields, `and` and `or`, which hold filters of the same type. Nothing else differs,
and no order does.

**Success** (`compilable_logical_iff`). A field that can be filtered and is named like a combinator
is in the way; a reference or a list of that name is not, for it is in no filter.

**One run beside the other** (`inputs_plusCombinators`, `additions_plusCombinators`). A type is
classified the same either way and needs the same kinds at the same moment, so the inputs of the two
runs correspond one by one.

Main result: `logicalFilters_add_combinators`.
-/

namespace CrudSchema

open Derive (Usable additions families freshKinds)
open Naming

/-! ## The difference -/

/-- What logical filters add to an input: the lists of itself if it is the filter of a type. -/
def TypeMap.combinators (types : TypeMap) (inputName : String) : List (String × InputField) :=
  if inputName ∈ types.keys.map filterInput then
    [("and", ⟨.requiredListOf inputName, true, some "All filters must match."⟩),
      ("or", ⟨.requiredListOf inputName, true, some "At least one filter must match."⟩)]
  else []

/-- The second input is the first with the combinators behind its fields. -/
structure InputObject.PlusCombinators (types : TypeMap) (plain logical : InputObject) : Prop where
  name : logical.name = plain.name
  description : logical.description = plain.description
  fields : logical.fields.entries = plain.fields.entries ++ types.combinators plain.name

/-- The second API is the first with the combinators in the filters of its types. -/
structure Api.PlusCombinators (plain logical : Api) : Prop where
  objects : logical.objects = plain.objects
  inputs : List.Forall₂ (fun p l => l.1 = p.1 ∧ p.2.PlusCombinators plain.objects l.2)
    plain.inputs.entries logical.inputs.entries
  filters : ∀ n ∈ plain.objects.keys, filterInput n ∈ plain.inputs.keys
  enums : logical.enums = plain.enums
  query : logical.query = plain.query
  mutation : logical.mutation = plain.mutation
  derived : logical.derived = plain.derived

/-! ## Success -/

/-- No field that can be filtered has the name of a combinator. -/
def TypeMap.CombinatorsFree (types : TypeMap) : Prop :=
  ∀ d ∈ types.values, ∀ f ∈ d.fields, (∃ kind : ScalarKind, f.type = .named kind.name) →
    f.name ≠ "and" ∧ f.name ≠ "or"

theorem compilable_logical_iff {types : TypeMap} :
    Compilable true types ↔ Compilable false types ∧ types.CombinatorsFree := by
  constructor
  · intro h
    exact ⟨{ h with combinatorsFree := nofun }, h.combinatorsFree rfl⟩
  · rintro ⟨h, hfree⟩
    exact { h with combinatorsFree := fun _ => hfree }

/-! ## One run beside the other -/

section Inputs

variable {types : TypeMap}

theorem TypeMap.combinators_filterInput {t : ClassifiedType} (ht : t.name ∈ types.keys) :
    types.combinators (filterInput t.name) = t.combinatorEntries :=
  if_pos (List.mem_map_of_mem ht)

theorem TypeMap.combinators_eq_nil {n : String} (h : ∀ t ∈ types.keys, n ≠ filterInput t) :
    types.combinators n = [] := by
  refine if_neg fun hn => ?_
  obtain ⟨t, ht, htn⟩ := List.mem_map.1 hn
  exact h t ht htn.symm

/-- An input that filters no type stays as it is. -/
theorem InputObject.plusCombinators_self {i : InputObject}
    (h : ∀ t ∈ types.keys, i.name ≠ filterInput t) : i.PlusCombinators types i where
  name := rfl
  description := rfl
  fields := by rw [TypeMap.combinators_eq_nil h, List.append_nil]

theorem filterInput_plusCombinators {t : ClassifiedType} (hsound : t.Sound types.keys)
    (hclash : t.clash? = none) (ht : t.name ∈ types.keys) :
    (t.filterInput false).PlusCombinators types (t.filterInput true) where
  name := by rw [t.name_filterInput, t.name_filterInput]
  description := by rw [t.filterInput_eq, t.filterInput_eq]
  fields := by
    have hplain : (t.filterInput false).fields.entries = t.allFilterEntries false :=
      hsound.entries_filterInput nofun
    rw [t.name_filterInput, TypeMap.combinators_filterInput ht, hplain,
      hsound.entries_filterInput fun _ => hclash]
    simp [ClassifiedType.allFilterEntries]

/-- **The inputs of a type correspond.** -/
theorem inputs_plusCombinators {t : ClassifiedType} (hsound : t.Sound types.keys)
    (hclash : t.clash? = none) (ht : t.name ∈ types.keys) :
    List.Forall₂ (InputObject.PlusCombinators types) (t.inputs false) (t.inputs true) := by
  have hsort : t.sortInput.name = InputForm.sort.name t.name := by rw [t.sortInput_eq]; rfl
  have hcreate : t.createInput.name = InputForm.create.name t.name := by rw [t.createInput_eq]; rfl
  have hupdate : t.updateInput.name = InputForm.update.name t.name := by rw [t.updateInput_eq]; rfl
  refine .cons (filterInput_plusCombinators hsound hclash ht) (List.forall₂_same.2 fun i hi => ?_)
  have hform : ∃ f : InputForm, f ≠ .filter ∧ i.name = f.name t.name := by
    simp only [List.mem_cons, List.not_mem_nil, or_false] at hi
    rcases hi with rfl | rfl | rfl
    · exact ⟨.sort, nofun, hsort⟩
    · exact ⟨.create, nofun, hcreate⟩
    · exact ⟨.update, nofun, hupdate⟩
  obtain ⟨f, hf, hname⟩ := hform
  refine InputObject.plusCombinators_self fun s _ h => hf ?_
  exact (InputForm.name_eq_name_iff (g := .filter).1 (hname.symm.trans h)).1

theorem families_plusCombinators (hm : Merged types) (kinds : List ScalarKind) :
    List.Forall₂ (InputObject.PlusCombinators types) (families kinds).inputs
      (families kinds).inputs := by
  refine List.forall₂_same.2 fun i hi => InputObject.plusCombinators_self fun t ht hname => ?_
  obtain ⟨kind, -, hi⟩ := List.mem_flatMap.1 hi
  have hfamily : filterInput t ∈ familyNames kind := by
    rw [← hname, ← FilterShape.map_name_family]
    exact List.mem_map_of_mem hi
  exact not_mem_familyNames (hm.ne_scalar ht kind) (mem_inputNames_iff.2 ⟨.filter, rfl⟩) hfamily

/-- **What the types of a run add corresponds**, whatever kinds are there already. -/
theorem additions_plusCombinators (hm : Merged types) {ts : List ClassifiedType}
    (hts : ∀ t ∈ ts, t.Sound types.keys ∧ t.clash? = none ∧ t.name ∈ types.keys)
    (kinds : List ScalarKind) (enums : List EnumType) :
    List.Forall₂ (InputObject.PlusCombinators types) (additions false kinds enums ts).inputs
      (additions true kinds enums ts).inputs := by
  induction ts generalizing kinds enums with
  | nil => exact .nil
  | cons t rest ih =>
    obtain ⟨⟨hsound, hclash, hname⟩, hrest⟩ := List.forall_mem_cons.1 hts
    have hfamilies := families_plusCombinators hm (freshKinds kinds t.filterKinds)
    have htype := List.rel_append hfamilies (inputs_plusCombinators hsound hclash hname)
    exact List.rel_append htype (ih hrest _ [])

end Inputs

/-! ## One API beside the other -/

/-- A declaration is usable as one type only. -/
theorem rightUnique_usable (known : List String) (logical : Bool) :
    Relator.RightUnique (Usable known logical) := by
  intro d t t' ht ht'
  exact Except.ok.inj (ht.1.symm.trans ht'.1)

/-- Types that are usable with combinators are so without. -/
theorem Derive.Usable.plain {known : List String} {logical : Bool} {d : Declaration}
    {t : ClassifiedType} (h : Usable known logical d t) : Usable known false d t :=
  ⟨h.1, nofun⟩

/-- **The API with logical filters is the API without, and the combinators.** -/
theorem Compiled.plusCombinators {types : TypeMap} {ts ts' : List ClassifiedType}
    {plain logical : Api} (h : Compiled false types ts plain)
    (h' : Compiled true types ts' logical) : plain.PlusCombinators logical := by
  obtain rfl : ts' = ts :=
    List.right_unique_forall₂' (rightUnique_usable _ _) (h'.usable.imp fun _ _ => Usable.plain)
      h.usable
  constructor
  · rw [h'.objects, h.objects]
  · rw [h.inputs, h'.inputs, h.objects, List.forall₂_map_left_iff, List.forall₂_map_right_iff]
    have hts : ∀ t ∈ ts', t.Sound types.keys ∧ t.clash? = none ∧ t.name ∈ types.keys :=
      fun t ht => ⟨(h'.sound ht).1, h'.clash?_eq_none ht rfl, h'.name_mem_keys ht⟩
    exact (additions_plusCombinators h.merged hts _ _).imp fun _ _ hi => ⟨hi.name, hi⟩
  · intro n hn
    rw [h.objects, ← h.merged.map_name_eq h.usable] at hn
    obtain ⟨t, ht, rfl⟩ := List.mem_map.1 hn
    have hfilter := h.mem_inputs_of_type ht (List.mem_cons_self ..)
    rw [h.keys_inputs, show filterInput t.name = _ from (t.name_filterInput false).symm]
    exact List.mem_map_of_mem hfilter
  · exact OrderedMap.ext (h'.enums.trans h.enums.symm)
  · exact OrderedMap.ext (h'.query.trans h.query.symm)
  · exact OrderedMap.ext (h'.mutation.trans h.mutation.symm)
  · exact OrderedMap.ext (h'.derived.trans h.derived.symm)

/-- **Logical filters add the combinators and nothing else.** A map compiles with them exactly if it
does without and no field that can be filtered has the name of a combinator. -/
theorem logicalFilters_add_combinators {documents : List Document} {types : TypeMap}
    (hmerge : (merge documents).result = .ok types) :
    ((∃ logical, (compile ⟨true⟩ types).result = .ok logical) ↔
      (∃ plain, (compile ⟨false⟩ types).result = .ok plain) ∧ types.CombinatorsFree) ∧
    ∀ plain logical, (compile ⟨false⟩ types).result = .ok plain →
      (compile ⟨true⟩ types).result = .ok logical → plain.PlusCombinators logical := by
  have hm := merged_of_merge hmerge
  refine ⟨?_, fun plain logical h h' => ?_⟩
  · rw [hm.compiles_iff, hm.compiles_iff]
    exact compilable_logical_iff
  · obtain ⟨ts, hts⟩ := exists_compiled hm h
    obtain ⟨ts', hts'⟩ := exists_compiled hm h'
    exact hts.plusCombinators hts'

/-- A type with a reference and a list that are named like combinators. -/
def userWithReferencesAndOr : List Document :=
  [{ types := [{ name := "User", fields := [⟨"id", .named "ID", false⟩,
      ⟨"and", .named "User", true⟩, ⟨"or", .list (.named "String") true, true⟩] }] }]

/-- These fields are in no filter, so the combinators take their names. -/
theorem userWithReferencesAndOr_plus_combinators :
    ∃ types plain logical, (merge userWithReferencesAndOr).result = .ok types ∧
      (compile ⟨false⟩ types).result = .ok plain ∧ (compile ⟨true⟩ types).result = .ok logical ∧
      types.CombinatorsFree ∧ plain.PlusCombinators logical := by
  obtain ⟨types, hmerge⟩ : ∃ types, (merge userWithReferencesAndOr).result = .ok types := ⟨_, rfl⟩
  have hok : (compile ⟨true⟩ types).result.isOk = true := by
    cases hmerge
    decide
  rcases h' : (compile ⟨true⟩ types).result with e | logical
  · rw [h'] at hok
    cases hok
  · obtain ⟨hiff, hplus⟩ := logicalFilters_add_combinators hmerge
    obtain ⟨⟨plain, h⟩, hfree⟩ := hiff.1 ⟨logical, h'⟩
    exact ⟨types, plain, logical, hmerge, h, h', hfree, hplus plain logical h h'⟩

end CrudSchema
