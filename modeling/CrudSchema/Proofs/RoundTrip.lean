import CrudSchema.Proofs.Parsing
import CrudSchema.Proofs.Readable

/-!
# Generated text gives the declarations back

What is generated from texts can itself be loaded. The document holds the roots and the merged
declarations, in the order of the merged map, each with its name and its shape; the inputs and the
enum are passed over. Headers and descriptions make no difference.

**Objects only** (`types_of_written`). Of the definitions that a written schema is read as, those of
its object types become declarations (`declared`).

Main result: `generateText_reads_back`.
-/

namespace CrudSchema

open Schema Sdl

/-! ## Objects as declarations -/

/-- The declaration that an object type is read back as. -/
def declared (o : ObjectType) : Declaration :=
  ObjectNode.convert ⟨o.name, o.fields.entries.map fieldOf, readDescription [] o.description⟩

/-- The definitions of a written schema declare its object types. -/
theorem types_of_written (s : Schema) :
    (s.written.map definitionOf).filterMap Sdl.Definition.declaration? =
      (s.types.filterMap NamedType.object?).map declared := by
  rw [written, List.filterMap_map]
  induction s.types with
  | nil => rfl
  | cons t rest ih =>
    cases t with
    | scalar kind => exact ih
    | object o => exact congrArg (declared o :: ·) ih
    | enum e => exact ih
    | input i => exact ih

/-- A declared type is read back with its name and its shape. -/
theorem declared_toObject {d : Declaration} (h : d.fieldNames.Nodup)
    (hnamed : ∀ f ∈ d.fields, ∃ n, f.type.innermost? = some n) :
    (declared d.toObject).name = d.name ∧ (declared d.toObject).shape = d.shape := by
  refine ⟨rfl, ?_⟩
  have hfields : (declared d.toObject).fields = d.fields := by
    rw [declared, ObjectNode.convert, Declaration.entries_toObject h, List.map_map, List.map_map]
    refine (List.map_congr_left fun f hf => ?_).trans (List.map_id d.fields)
    show FieldNode.convert ⟨f.name, (f.type.wrapped f.nullable).node⟩ = f
    rw [FieldNode.convert, convert_node (hnamed f hf)]
  exact hfields

/-! ## Stages -/

theorem Logged.ok_of_mapError {ε ε' α : Type} {x : Logged ε α} {f : ε → ε'} {a : α}
    (h : (x.mapError f).result = .ok a) : x.result = .ok a :=
  Except.ok_of_mapError h

theorem Logged.mapError_of_ok {ε ε' α : Type} {x : Logged ε α} (f : ε → ε') {a : α}
    (h : x.result = .ok a) : (x.mapError f).result = .ok a := by
  rw [Logged.mapError, h]
  rfl

theorem Logged.mapError_of_error {ε ε' α : Type} {x : Logged ε α} (f : ε → ε') {e : ε}
    (h : x.result = .error e) : (x.mapError f).result = .error (f e) := by
  rw [Logged.mapError, h]
  rfl

theorem Logged.bind_of_ok {ε α β : Type} {x : Logged ε α} {f : α → Logged ε β} {a : α}
    {r : Except ε β} (h : x.result = .ok a) (hf : (f a).result = r) : (x >>= f).result = r := by
  change (x.bind f).result = r
  rw [Logged.bind, h]
  exact hf

theorem Logged.bind_of_error {ε α β : Type} {x : Logged ε α} {f : α → Logged ε β} {e : ε}
    (h : x.result = .error e) : (x >>= f).result = .error e := by
  change (x.bind f).result = .error e
  rw [Logged.bind, h]

theorem build_of_assemble {api : Api} {s : Schema} (h : (assemble api).result = .ok s) :
    build api = .ok s := by
  rw [assemble] at h
  split at h
  next e he => cases h
  next s' hbuild =>
    split at h
    next e he => cases h
    next =>
      cases h
      exact hbuild

/-- The stages of an assembly that succeeds. -/
theorem exists_of_assembleTypes {options : SynthesisOptions} {types : TypeMap} {api : Api}
    {s : Schema} (h : (assembleTypes options types).result = .ok (api, s)) :
    (compile options types).result = .ok api ∧ build api = .ok s := by
  obtain ⟨api', hcompile, h⟩ := Logged.exists_of_bind h
  obtain ⟨s', hassemble, h⟩ := Logged.exists_of_bind h
  cases h
  exact ⟨Logged.ok_of_mapError hcompile, build_of_assemble (Logged.ok_of_mapError hassemble)⟩

theorem exists_assembled {options : SynthesisOptions} {types : TypeMap} {api : Api} {s : Schema}
    (hmerged : Merged types) (h : (assembleTypes options types).result = .ok (api, s)) :
    ∃ ts, Compiled options.logicalFilters types ts api ∧ types.Legal ∧ api.Assembled s := by
  obtain ⟨hcompile, hbuild⟩ := exists_of_assembleTypes h
  obtain ⟨ts, hts⟩ := exists_compiled hmerged hcompile
  have hlegal := hts.legal_of_build hbuild
  obtain ⟨s', hbuild', hs⟩ := Api.build_of_closed (hts.closed hlegal)
  obtain rfl : s' = s := Except.ok.inj (hbuild'.symm.trans hbuild)
  exact ⟨ts, hts, hlegal, hs⟩

/-- If every stage succeeds, so does the run. -/
theorem generateText_of_stages {options : SynthesisOptions} {texts : List String}
    {documents : List Document} {types : TypeMap} {api : Api} {s : Schema}
    (hload : (loadTexts (((List.range texts.length).map placeSource).zip texts)).result =
      .ok documents)
    (hmerge : (merge documents).result = .ok types)
    (hcompile : (compile options types).result = .ok api)
    (hassemble : (assemble api).result = .ok s) :
    (generateText options texts).result = .ok (s.print "") := by
  have htypes : (assembleTypes options types).result = .ok (api, s) :=
    Logged.bind_of_ok (Logged.mapError_of_ok _ hcompile)
      (Logged.bind_of_ok (Logged.mapError_of_ok _ hassemble) rfl)
  exact Logged.bind_of_ok (Logged.mapError_of_ok _ hload)
    (Logged.bind_of_ok (Logged.mapError_of_ok _ hmerge) (Logged.bind_of_ok htypes rfl))

/-- A map with public names that compiles gives a schema. -/
theorem exists_schema_of_public (options : SynthesisOptions) {types : TypeMap}
    (hm : Merged types) (hpublic : types.Public)
    (hok : (compile options types).result.isOk = true) :
    ∃ api s, (compile options types).result = .ok api ∧ (assemble api).result = .ok s := by
  obtain ⟨api, hcompile⟩ := Except.exists_of_isOk hok
  obtain ⟨ts, hts⟩ := exists_compiled hm hcompile
  obtain ⟨s, hassemble, -⟩ := Api.assemble_of_proper (hts.proper hpublic)
  exact ⟨api, s, hcompile, hassemble⟩

/-! ## Round trip -/

/-- A schema of merged declarations that are not too deep is read back as the declarations and the
roots. -/
theorem load_print_types {options : SynthesisOptions} {types : TypeMap} {api : Api} {s : Schema}
    (hmerged : Merged types) (hshallow : ∀ d ∈ types.values, d.Shallow)
    (h : (assembleTypes options types).result = .ok (api, s)) {header : String}
    (hheader : IsHeader header) (source : String) :
    ∃ document, (Document.load source (s.print header)).result = .ok document ∧
      document.types = (types.values.map Declaration.toObject).map declared ++
        [declared (api.root "Query" api.query), declared (api.root "Mutation" api.mutation)] := by
  obtain ⟨ts, hts, hlegal, hs⟩ := exists_assembled hmerged h
  have hparse := parse_print (hts.readable hlegal hshallow hs) hheader
  refine ⟨_, Document.load_of_parse source hparse, ?_⟩
  rw [types_ofDefinitions, types_of_written, hs.objects, hts.objects, hts.roots_eq,
    List.map_append]
  rfl

/-- No merged declaration is read back under the name of a root. -/
theorem Merged.name_declared_not_mem {types : TypeMap} (hm : Merged types) :
    ∀ d ∈ (types.values.map Declaration.toObject).map declared,
      d.name ∉ ["Query", "Mutation"] := by
  rw [List.map_map, List.forall_mem_map]
  intro d hd hroot
  refine (hm.acceptable d hd).unreserved ?_
  exact List.mem_append_left _ (List.mem_append_left ["Subscription"] hroot)

/-- The roots are told from other types by their names. -/
theorem filter_roots {l : List Declaration} (query mutation : Declaration)
    (hl : ∀ d ∈ l, d.name ∉ ["Query", "Mutation"]) (hquery : query.name = "Query")
    (hmutation : mutation.name = "Mutation") :
    (l ++ [query, mutation]).filter (fun d => d.name ∉ ["Query", "Mutation"]) = l ∧
    (l ++ [query, mutation]).filter (fun d => d.name = "Query") = [query] ∧
    (l ++ [query, mutation]).filter (fun d => d.name = "Mutation") = [mutation] := by
  have hnone : ∀ root ∈ ["Query", "Mutation"], l.filter (fun d => d.name = root) = [] := by
    intro root hroot
    refine List.filter_eq_nil_iff.2 fun d hd hname => hl d hd ?_
    rwa [of_decide_eq_true hname]
  simp only [List.filter_append]
  refine ⟨?_, ?_, ?_⟩
  · rw [List.filter_eq_self.2 (by simpa using hl)]
    simp [hquery, hmutation]
  · rw [hnone "Query" (by simp)]
    simp [hquery, hmutation]
  · rw [hnone "Mutation" (by simp)]
    simp [hquery, hmutation]

/-- Besides the roots, the declarations are read back as they are. -/
theorem load_print {options : SynthesisOptions} {types : TypeMap} {api : Api} {s : Schema}
    (hmerged : Merged types) (hshallow : ∀ d ∈ types.values, d.Shallow)
    (h : (assembleTypes options types).result = .ok (api, s)) {header : String}
    (hheader : IsHeader header) (source : String) :
    ∃ document, (Document.load source (s.print header)).result = .ok document ∧
      (document.types.filter fun d => d.name ∉ ["Query", "Mutation"]).map
          (fun d => (d.name, d.shape)) = types.values.map fun d => (d.name, d.shape) := by
  obtain ⟨document, hload, htypes⟩ := load_print_types hmerged hshallow h hheader source
  refine ⟨document, hload, ?_⟩
  rw [htypes, (filter_roots _ _ hmerged.name_declared_not_mem rfl rfl).1, List.map_map,
    List.map_map]
  refine List.map_congr_left fun d hd => ?_
  obtain ⟨ts, hts, hlegal, -⟩ := exists_assembled hmerged h
  have hnamed : ∀ f ∈ d.fields, ∃ n, f.type.innermost? = some n := by
    intro f hf
    obtain ⟨n, hn, -⟩ := ((hts.closed hlegal).objects d (hts.objects ▸ hd) f hf).2
    exact ⟨n, hn⟩
  obtain ⟨hname, hshape⟩ := declared_toObject (hmerged.acceptable d hd).distinct hnamed
  exact Prod.ext hname hshape

/-- **Generated text gives the declarations back.** Whatever the texts and the options, what is
generated from them, with the header of generated files or without one, is loaded, and its object
types besides the roots are the merged declarations in order, each with its name and its shape. -/
theorem generateText_reads_back (options : SynthesisOptions) (texts : List String) {text : String}
    (h : (generateText options texts).result = .ok text) :
    ∃ documents types api s,
      (loadTexts (((List.range texts.length).map placeSource).zip texts)).result = .ok documents ∧
      (merge documents).result = .ok types ∧
      (assembleTypes options types).result = .ok (api, s) ∧ text = s.print "" ∧
      ∀ header ∈ ["", generatedHeader], ∀ source, ∃ document,
        (Document.load source (s.print header)).result = .ok document ∧
        (document.types.filter fun d => d.name ∉ ["Query", "Mutation"]).map
          (fun d => (d.name, d.shape)) = types.values.map fun d => (d.name, d.shape) := by
  obtain ⟨documents, hload, h⟩ := Logged.exists_of_bind h
  obtain ⟨types, hmerge, h⟩ := Logged.exists_of_bind h
  obtain ⟨⟨api, s⟩, hassemble, h⟩ := Logged.exists_of_bind h
  cases h
  have hload := Logged.ok_of_mapError hload
  have hmerge := Logged.ok_of_mapError hmerge
  refine ⟨documents, types, api, s, hload, hmerge, hassemble, rfl, fun header hheader source => ?_⟩
  refine load_print (merged_of_merge hmerge) (shallow_of_merge hload hmerge) hassemble ?_ source
  obtain rfl | hmem := List.mem_cons.1 hheader
  · exact .inl rfl
  · rw [List.mem_singleton.1 hmem]
    exact isHeader_generatedHeader

/-- A type with lists in lists and with quotes in its description, and a type it refers to. -/
def describedUser : List String :=
  ["\"Says \\\"\\\"\\\" twice: \\\"\\\"\\\"\" type User \x7b id: ID! tags: [[Tag!]]! \x7d",
    "type Tag \x7b id: ID! \x7d"]

def describedUserTypes : TypeMap :=
  .ofList
    [("User", ⟨"User", [⟨"id", .named "ID", false⟩,
      ⟨"tags", .list (.requiredListOf "Tag") true, false⟩], some "Says \"\"\" twice: \"\"\""⟩),
      ("Tag", ⟨"Tag", [⟨"id", .named "ID", false⟩], none⟩)]

theorem describedUser_merges : ∃ documents,
    (loadTexts (((List.range describedUser.length).map placeSource).zip describedUser)).result =
      .ok documents ∧ (merge documents).result = .ok describedUserTypes :=
  ⟨describedUserTypes.values.zipWith (fun d i => ⟨placeSource i, [d]⟩) [0, 1], by decide +kernel,
    by decide⟩

theorem describedUser_is_generated : ∃ text, (generateText {} describedUser).result = .ok text := by
  obtain ⟨documents, hload, hmerge⟩ := describedUser_merges
  have hpublic : describedUserTypes.Public :=
    TypeMap.public_of_names (by decide) (by decide)
  obtain ⟨api, s, hcompile, hassemble⟩ :=
    exists_schema_of_public {} (merged_of_merge hmerge) hpublic (by decide)
  exact ⟨_, generateText_of_stages hload hmerge hcompile hassemble⟩

theorem describedUser_reads_back : ∃ text document,
    (generateText {} describedUser).result = .ok text ∧
    (Document.load "schema" text).result = .ok document ∧
    (document.types.filter fun d => d.name ∉ ["Query", "Mutation"]).map
      (fun d => (d.name, d.shape)) = describedUserTypes.values.map fun d => (d.name, d.shape) := by
  obtain ⟨text, htext⟩ := describedUser_is_generated
  obtain ⟨documents, types, api, s, hload, hmerge, -, rfl, hread⟩ :=
    generateText_reads_back {} describedUser htext
  obtain ⟨documents', hload', hmerge'⟩ := describedUser_merges
  obtain rfl : documents = documents' := Except.ok.inj (hload.symm.trans hload')
  obtain rfl : types = describedUserTypes := Except.ok.inj (hmerge.symm.trans hmerge')
  obtain ⟨document, hdocument, hshapes⟩ := hread "" List.mem_cons_self "schema"
  exact ⟨_, document, htext, hdocument, hshapes⟩

end CrudSchema
