import CrudSchema.Proofs.Reordering

/-!
# Parts of a map

**Parts** (`TypeMap.IsPart`). A part of a map keeps some of its entries, and what it keeps mentions
scalars and kept types only.

**Conditions.** Each condition for compiling is about single declarations or about names that must
not be there, so a part of a compilable map is compilable (`Compilable.of_part`).

**Content** (`Compiled.within`). Declarations are classified alike where more types are known. So
the types of a part are among those of the whole, and what is derived from a type or a kind does not
depend on the others.

Main result: `compile_part`.
-/

namespace CrudSchema

/-! ## Parts -/

/-- Some entries of a map, at least one, that mention no declared type but each other. -/
structure TypeMap.IsPart (part types : TypeMap) : Prop where
  sublist : part.entries.Sublist types.entries
  nonempty : part.keys ≠ []
  closed : ∀ d ∈ part.values, ∀ f ∈ d.fields, ∀ n, f.type.innermost? = some n →
    (∃ kind : ScalarKind, n = kind.name) ∨ n ∈ part.keys

namespace TypeMap.IsPart

variable {part types : TypeMap}

theorem keys_subset (h : part.IsPart types) : part.keys ⊆ types.keys :=
  (h.sublist.map Prod.fst).subset

theorem values_subset (h : part.IsPart types) : part.values ⊆ types.values :=
  (h.sublist.map Prod.snd).subset

theorem merged (h : part.IsPart types) (hm : Merged types) : Merged part where
  named e he := hm.named e (h.sublist.subset he)
  acceptable d hd := hm.acceptable d (h.values_subset hd)

theorem uses (h : part.IsPart types) {kind : ScalarKind} (huses : part.Uses kind) :
    types.Uses kind := by
  obtain ⟨d, hd, f, hf, htype⟩ := huses
  exact ⟨d, h.values_subset hd, f, hf, htype⟩

/-- A field that is supported in the whole is supported in the part. -/
theorem supported (h : part.IsPart types) {d : Declaration} (hd : d ∈ part.values) {f : Field}
    (hf : f ∈ d.fields) (hsupported : f.type.Supported types.keys) :
    f.type.Supported part.keys := by
  obtain ⟨n, hn, -⟩ := hsupported
  exact ⟨n, hn, h.closed d hd f hf n hn⟩

end TypeMap.IsPart

/-! ## Conditions -/

/-- **A part of a compilable map is compilable.** -/
theorem Compilable.of_part {logical : Bool} {part types : TypeMap} (h : Compilable logical types)
    (hpart : part.IsPart types) : Compilable logical part where
  nonempty := hpart.nonempty
  identified d hd := h.identified d (hpart.values_subset hd)
  supported d hd f hf := hpart.supported hd hf (h.supported d (hpart.values_subset hd) f hf)
  inputsFree t ht := by
    obtain ⟨hfilter, hsort, hcreate, hupdate⟩ := h.inputsFree t (hpart.keys_subset ht)
    have hfree : ∀ n, n ∉ types.keys → n ∉ part.keys := fun n hn hp => hn (hpart.keys_subset hp)
    exact ⟨hfree _ hfilter, hfree _ hsort, hfree _ hcreate, hfree _ hupdate⟩
  enumFree hn := h.enumFree (hpart.keys_subset hn)
  familiesFree kind huses n hn hp :=
    h.familiesFree kind (hpart.uses huses) n hn (hpart.keys_subset hp)
  queriesApart s hs t ht := h.queriesApart s (hpart.keys_subset hs) t (hpart.keys_subset ht)
  combinatorsFree hlogical d hd := h.combinatorsFree hlogical d (hpart.values_subset hd)

/-! ## Content -/

/-- What the first API holds under a name the second holds there too. -/
structure Api.Within (a b : Api) : Prop where
  objects : a.objects.Within b.objects
  inputs : a.inputs.Within b.inputs
  enums : a.enums.Within b.enums
  query : a.query.Within b.query
  mutation : a.mutation.Within b.mutation
  derived : a.derived.Within b.derived

namespace Compiled

variable {logical : Bool} {part types : TypeMap} {ts ts' : List ClassifiedType} {api api' : Api}

/-- The types of a part are classified as in the whole. -/
theorem subset_of_part (h : Compiled logical types ts api) (h' : Compiled logical part ts' api')
    (hpart : part.IsPart types) : ts' ⊆ ts := by
  intro t' ht'
  obtain ⟨hsound', hd⟩ := h'.sound ht'
  obtain ⟨t, ht, hdeclaration⟩ := exists_type_of_usable h.usable (hpart.values_subset hd)
  have hclassified := (h.sound ht).1.classified
  rw [hdeclaration, classifyType_of_subset hpart.keys_subset hsound'.classified] at hclassified
  rw [Except.ok.inj hclassified]
  exact ht

/-- **The API of a part is within that of the whole.** -/
theorem within (h : Compiled logical types ts api) (h' : Compiled logical part ts' api')
    (hpart : part.IsPart types) : api'.Within api := by
  have hts := h.subset_of_part h' hpart
  have hoperations : ∀ f : ClassifiedType → List Operation, ts'.flatMap f ⊆ ts.flatMap f := by
    intro f o ho
    obtain ⟨t, ht, ho⟩ := List.mem_flatMap.1 ho
    exact List.mem_flatMap.2 ⟨t, hts ht, ho⟩
  constructor
  · rw [h.objects, h'.objects]
    exact OrderedMap.within_of_subset hpart.sublist.subset
  · -- An input belongs to a kind in use or to a type, and the whole has both.
    refine OrderedMap.within_of_values h'.inputs h.inputs fun i hi => ?_
    rw [← h'.values_inputs, h'.mem_inputs] at hi
    rw [← h.values_inputs, h.mem_inputs]
    rcases hi with ⟨kind, huses, hi⟩ | ⟨t, ht, hi⟩
    · exact .inl ⟨kind, hpart.uses huses, hi⟩
    · exact .inr ⟨t, hts ht, hi⟩
  · apply OrderedMap.within_of_subset
    rw [h.enums, h'.enums]
    exact List.Subset.refl _
  · exact OrderedMap.within_of_values h'.query h.query (hoperations _)
  · exact OrderedMap.within_of_values h'.mutation h.mutation (hoperations _)
  · exact OrderedMap.within_of_values h'.derived h.derived (List.map_subset _ hts)

end Compiled

/-! ## Compiling a part -/

/-- **Adding types changes nothing that was derived without them.** A part of a map that compiles
does so with the same options, and the API of the whole holds everything that of the part does. -/
theorem compile_part {documents : List Document} {options : SynthesisOptions}
    {part types : TypeMap} {api : Api} (hmerge : (merge documents).result = .ok types)
    (h : (compile options types).result = .ok api) (hpart : part.IsPart types) :
    ∃ api', (compile options part).result = .ok api' ∧ api'.Within api := by
  have hm := merged_of_merge hmerge
  have hm' := hpart.merged hm
  have hcompilable := (hm.compiles_iff.1 ⟨api, h⟩).of_part hpart
  obtain ⟨api', h'⟩ := hm'.compiles_iff.2 hcompilable
  obtain ⟨ts, hts⟩ := exists_compiled hm h
  obtain ⟨ts', hts'⟩ := exists_compiled hm' h'
  exact ⟨api', h', hts.within hts' hpart⟩

/-- A type that refers to itself. -/
def user : Declaration where
  name := "User"
  fields := [⟨"id", .named "ID", false⟩, ⟨"manager", .named "User", true⟩,
    ⟨"age", .named "Int", true⟩]

/-- The type behind one that refers to it and has a kind of its own. -/
def postBeforeUser : List Document :=
  [{ types := [{ name := "Post", fields := [⟨"id", .named "ID", false⟩,
      ⟨"title", .named "String", true⟩, ⟨"author", .named "User", false⟩] }, user] }]

/-- Without the posts users keep their part of the API. -/
theorem postBeforeUser_keeps_user :
    ∃ types api api', (merge postBeforeUser).result = .ok types ∧
      (compile {} types).result = .ok api ∧ TypeMap.IsPart (.ofList [("User", user)]) types ∧
      (compile {} (.ofList [("User", user)])).result = .ok api' ∧ api'.Within api := by
  obtain ⟨types, hmerge⟩ : ∃ types, (merge postBeforeUser).result = .ok types := ⟨_, rfl⟩
  have hok : (compile {} types).result.isOk = true := by
    cases hmerge
    decide
  have hpart : TypeMap.IsPart (.ofList [("User", user)]) types := by
    cases hmerge
    refine ⟨by decide, by decide, fun d hd f hf n hn => ?_⟩
    obtain rfl := List.mem_singleton.1 hd
    simp only [user, List.mem_cons, List.not_mem_nil, or_false] at hf
    rcases hf with rfl | rfl | rfl
    · exact .inl ⟨.id, (Option.some.inj hn).symm⟩
    · exact .inr (List.mem_singleton.2 (Option.some.inj hn).symm)
    · exact .inl ⟨.int, (Option.some.inj hn).symm⟩
  rcases h : (compile {} types).result with e | api
  · rw [h] at hok
    cases hok
  · obtain ⟨api', h', hwithin⟩ := compile_part hmerge h hpart
    exact ⟨types, api, api', hmerge, h, hpart, h', hwithin⟩

end CrudSchema
