import CrudSchema.Proofs.Actions
import CrudSchema.Proofs.Checking
import CrudSchema.Proofs.Refinement
import CrudSchema.Proofs.RoundTrip

/-!
# Checking before generating

**Verdicts** (`assembleTypes_cases`). Of a merged map either no API can be compiled, or no schema
can be assembled from the API, or both exist. Checking finds out by another way than generating, and
tells of a fault of the first kind itself, but the two end the same.

**Counts** (`Document.Counts`). What was generated is read back as the declared types and the roots,
and a root has one field for each operation.

Main result: `check_predicts_generate`.
-/

namespace CrudSchema

open Schema

namespace CommandLine

namespace Action

variable {files : FileTree}

/-! ## Verdicts -/

theorem assembleTypes_of_ok {options : SynthesisOptions} {types : TypeMap} {api : Api}
    {schema : Schema} (hcompile : (compile options types).result = .ok api)
    (hassemble : (assemble api).result = .ok schema) :
    (assembleTypes options types).result = .ok (api, schema) := by
  refine Logged.bind_of_ok (Logged.mapError_of_ok GenerationError.synthesis hcompile) ?_
  exact Logged.bind_of_ok (Logged.mapError_of_ok GenerationError.assembly hassemble) rfl

/-- A map is refused, its API cannot be assembled, or both are there. -/
theorem assembleTypes_cases (options : SynthesisOptions) (types : TypeMap) :
    (∃ e, (compile options types).result = .error e ∧
      (assembleTypes options types).result = .error (.synthesis e)) ∨
    (∃ api e, (compile options types).result = .ok api ∧ (assemble api).result = .error e ∧
      (assembleTypes options types).result = .error (.assembly e)) ∨
    ∃ api schema, (compile options types).result = .ok api ∧ (assemble api).result = .ok schema ∧
      (assembleTypes options types).result = .ok (api, schema) := by
  rcases hcompile : (compile options types).result with e | api
  · refine .inl ⟨e, rfl, ?_⟩
    exact Logged.bind_of_error (Logged.mapError_of_error _ hcompile)
  · have hcompiled := Logged.mapError_of_ok GenerationError.synthesis hcompile
    rcases hassemble : (assemble api).result with e | schema
    · refine .inr (.inl ⟨api, e, rfl, hassemble, ?_⟩)
      refine Logged.bind_of_ok hcompiled ?_
      exact Logged.bind_of_error (Logged.mapError_of_error _ hassemble)
    · exact .inr (.inr ⟨api, schema, rfl, hassemble, assembleTypes_of_ok hcompile hassemble⟩)

/-- What a check does with its report. -/
def conclude (report : CheckReport) : Action Nat :=
  match report.api with
  | none => do
    complain (report.faults.map SynthesisError.message)
    return 1
  | some api => do
    discard (perform ((assemble api).mapError fun e => .generation (.assembly e)))
    printLine ("OK: " ++ toString api.objects.size ++ " types, " ++ toString api.query.size ++
      " queries, " ++ toString api.mutation.size ++ " mutations")
    return 0

/-- The line that says what was checked. -/
def checkedLine (types queries mutations : Nat) : String :=
  "OK: " ++ toString types ++ " types, " ++ toString queries ++ " queries, " ++
    toString mutations ++ " mutations" ++ "\n"

section Verdicts

variable {configPath : Option String} {s : Selection} {schemaPath : String} {c : Config}
  {types : TypeMap} {api : Api} {schema : Schema}

theorem runs_check {r : Except Fault Nat} {text : String}
    (h : prepared files configPath s "" = .ok (c, types))
    (hnext : Runs files (conclude (CrudSchema.check c.synthesisOptions types).1) r text) :
    Runs files (check configPath s) r text :=
  Runs.of_prepared _ h ((Runs.perform rfl).silent_bind hnext)

/-- Without an API the faults are told. -/
theorem runs_conclude_refused {options : SynthesisOptions} {e : SynthesisError}
    (hcompile : (compile options types).result = .error e) :
    Runs files (conclude (CrudSchema.check options types).1) (.ok 1) "" := by
  rw [conclude, api_check_of_error hcompile]
  exact (Runs.complain _).silent_bind (Runs.pure 1)

/-- An API is assembled, if only to see whether it can be. -/
theorem runs_conclude_unassembled {report : CheckReport} (hreport : report.api = some api)
    {e : AssemblyError} (hassemble : (assemble api).result = .error e) :
    Runs files (conclude report) (.error (.generation (.assembly e))) "" := by
  rw [conclude, hreport]
  have hfault := Logged.mapError_of_error (fun e => Fault.generation (.assembly e)) hassemble
  exact ((Runs.perform hfault).bind_error _).bind_error _

theorem runs_conclude_ok {report : CheckReport} (hreport : report.api = some api)
    (hassemble : (assemble api).result = .ok schema) :
    Runs files (conclude report) (.ok 0)
      (checkedLine api.objects.size api.query.size api.mutation.size) := by
  rw [conclude, hreport]
  have hassembled := Logged.mapError_of_ok (fun e => Fault.generation (.assembly e)) hassemble
  have hdiscard : Runs files (discard (Action.perform _)) (.ok ()) "" :=
    (Runs.perform hassembled).silent_bind (Runs.pure ())
  exact hdiscard.silent_bind ((Runs.printLine _).bind_silent (Runs.pure 0))

/-- A fault on the way to the schema is a fault of generating. -/
theorem runs_generate_error {e : GenerationError}
    (h : prepared files configPath s schemaPath = .ok (c, types))
    (hassemble : (assembleTypes c.synthesisOptions types).result = .error e) :
    Runs files (generate configPath s schemaPath) (.error (.generation e)) "" := by
  refine Runs.of_prepared _ h ?_
  exact (Runs.perform (Logged.mapError_of_error Fault.generation hassemble)).bind_error _

/-- A schema for the standard output is written there. -/
theorem runs_deliver (hpath : c.schemaPath = Config.standardOutput) (text : String)
    (typeCount : Nat) : Runs files (deliver c text typeCount) (.ok ()) text := by
  rw [deliver, if_pos hpath]
  exact Runs.update (fun _ => rfl) fun _ => rfl

theorem runs_generate_ok (h : prepared files configPath s schemaPath = .ok (c, types))
    (hpath : c.schemaPath = Config.standardOutput)
    (hassemble : (assembleTypes c.synthesisOptions types).result = .ok (api, schema)) :
    Runs files (generate configPath s schemaPath) (.ok 0)
      (schema.print (if c.header then generatedHeader else "")) := by
  refine Runs.of_prepared _ h ?_
  refine (Runs.perform (Logged.mapError_of_ok Fault.generation hassemble)).silent_bind ?_
  exact (runs_deliver hpath _ _).bind_silent (Runs.pure 0)

end Verdicts

end Action

end CommandLine

/-! ## Counts -/

/-- Besides the roots there are so many types, and each root has so many fields. -/
structure Document.Counts (d : Document) (types queries mutations : Nat) : Prop where
  types : (d.types.filter fun t => t.name ∉ ["Query", "Mutation"]).length = types
  queries : (d.types.filter fun t => t.name = "Query").map (fun t => t.fields.length) = [queries]
  mutations :
    (d.types.filter fun t => t.name = "Mutation").map (fun t => t.fields.length) = [mutations]

theorem length_fields_root {api : Api} {operations : NameMap Operation}
    (hnamed : ∀ e ∈ operations.entries, e.1 = e.2.name) (name : String) :
    (declared (api.root name operations)).fields.length = operations.size := by
  rw [declared, Sdl.ObjectNode.convert, List.length_map, List.length_map,
    Compiled.entries_root hnamed, List.length_map, OrderedMap.values, List.length_map,
    OrderedMap.size]

/-- **A schema that is read back has as many types, queries and mutations as its API.** -/
theorem load_print_counts {options : SynthesisOptions} {types : TypeMap} {api : Api} {s : Schema}
    (hmerged : Merged types) (hshallow : ∀ d ∈ types.values, d.Shallow)
    (h : (assembleTypes options types).result = .ok (api, s)) {header : String}
    (hheader : IsHeader header) (source : String) :
    ∃ document, (Document.load source (s.print header)).result = .ok document ∧
      document.Counts api.objects.size api.query.size api.mutation.size := by
  obtain ⟨ts, hts⟩ := exists_compiled hmerged (exists_of_assembleTypes h).1
  obtain ⟨document, hload, htypes⟩ := load_print_types hmerged hshallow h hheader source
  obtain ⟨hothers, hquery, hmutation⟩ := filter_roots (declared (api.root "Query" api.query))
    (declared (api.root "Mutation" api.mutation)) hmerged.name_declared_not_mem rfl rfl
  refine ⟨document, hload, ?_⟩
  constructor
  · rw [htypes, hothers, hts.objects]
    simp [OrderedMap.values, OrderedMap.size]
  · rw [htypes, hquery, List.map_singleton, length_fields_root hts.queryNamed]
  · rw [htypes, hmutation, List.map_singleton, length_fields_root hts.mutationNamed]

/-! ## Two commands -/

namespace CommandLine

theorem exists_texts_of_loadPaths {files : FileTree} {paths : List String}
    {documents : List Document} (h : (loadPaths files paths none).result = .ok documents) :
    ∃ texts, (loadTexts texts).result = .ok documents := by
  obtain ⟨found, -, h⟩ := Logged.exists_of_bind h
  obtain ⟨⟨⟩, -, h⟩ := Logged.exists_of_bind h
  obtain ⟨texts, -, h⟩ := Logged.exists_of_bind h
  exact ⟨_, Logged.ok_of_mapError h⟩

/-- Declarations that were loaded and merged are sound and not too deep. -/
theorem merged_of_declarationsAt {files : FileTree} {paths : List String} {types : TypeMap}
    (h : Action.declarationsAt files paths = .ok types) :
    Merged types ∧ ∀ d ∈ types.values, d.Shallow := by
  obtain ⟨documents, hload, hmerge⟩ := Except.exists_of_bind h
  obtain ⟨texts, htexts⟩ := exists_texts_of_loadPaths hload
  have hmerge := Except.ok_of_mapError hmerge
  exact ⟨merged_of_merge hmerge, shallow_of_merge htexts hmerge⟩

/-- The outcome of a check tells that of generating: an exit code or a fault that nothing reports,
and if all is well the numbers that are read back from what is generated. -/
structure Outcome.Predicts (checked generated : Outcome) : Prop where
  alike : checked.ending = generated.ending
  ending : checked.ending = .ok 0 ∨ checked.ending = .ok 1 ∨
    ∃ e, checked.ending = .error e ∧ e.isReported = false
  counts : checked.ending = .ok 0 → ∃ types queries mutations,
    checked.progress.output = Action.checkedLine types queries mutations ∧
    ∀ source, ∃ document, (Document.load source generated.progress.output).result = .ok document ∧
      document.Counts types queries mutations

/-- Commands that do not end with 0 have nothing to count. -/
theorem Outcome.predicts_of_fault {checked generated : Outcome} {e : Fault}
    (hchecked : checked.ending = endingOf (.error e))
    (hgenerated : generated.ending = endingOf (.error e)) : checked.Predicts generated := by
  have hcases : endingOf (.error e) = .ok 1 ∨
      endingOf (.error e) = .error e ∧ e.isReported = false := by
    unfold endingOf
    by_cases hreported : e.isReported = true
    · simp [hreported]
    · simp [hreported]
  rw [← hchecked] at hcases
  refine ⟨hchecked.trans hgenerated.symm, .inr (hcases.imp_right fun h => ⟨e, h⟩), fun hzero => ?_⟩
  rcases hcases with h | ⟨h, -⟩
  · simp [h] at hzero
  · simp [h] at hzero

/-- **Checking predicts generating.** With the same settings file, declarations and switches, a
check ends as generating to the standard output does, and if nothing is wrong it names the numbers
of types, queries and mutations in what is generated. -/
theorem check_predicts_generate (files : FileTree) {checking generating : List String}
    {configPath : Option String} {s : Selection}
    (hcheck : request checking = .ok (.run configPath (.check s)))
    (hgenerate : request generating =
      .ok (.run configPath (.generate s Config.standardOutput))) :
    (run checking files).Predicts (run generating files) := by
  have hchecked : ∀ {r text}, Action.Runs files (Action.check configPath s) r text →
      (run checking files).ending = endingOf r ∧ (run checking files).progress.output = text := by
    intro r text hruns
    rw [run_of_request hcheck]
    exact execute_of_runs hruns
  have hgenerated : ∀ {r text},
      Action.Runs files (Action.generate configPath s Config.standardOutput) r text →
      (run generating files).ending = endingOf r ∧
        (run generating files).progress.output = text := by
    intro r text hruns
    rw [run_of_request hgenerate]
    exact execute_of_runs hruns
  rcases Action.prepared_cases files configPath s with
    ⟨e, hprepared⟩ | ⟨c, paths, types, htypes, hprepared⟩
  · have hc := hchecked (Action.Runs.of_unprepared _ (hprepared ""))
    have hg := hgenerated (Action.Runs.of_unprepared _ (hprepared _))
    exact Outcome.predicts_of_fault hc.1 hg.1
  · rcases Action.assembleTypes_cases (Action.override c s "").synthesisOptions types with
      ⟨e, hcompile, hassemble⟩ | ⟨api, e, hcompile, hassembly, hassemble⟩ |
      ⟨api, schema, hcompile, hassembly, hassemble⟩
    · have hc := hchecked
        (Action.runs_check (hprepared "") (Action.runs_conclude_refused hcompile))
      have hg := hgenerated (Action.runs_generate_error (hprepared _) hassemble)
      -- a fault of the synthesis is the user's to mend, so it ends a run with 1 as well
      exact Outcome.predicts_of_fault (e := .generation (.synthesis e)) hc.1 hg.1
    · have hreport := congrArg CheckReport.api (check_of_ok hcompile)
      have hc := hchecked (Action.runs_check (hprepared "")
        (Action.runs_conclude_unassembled hreport hassembly))
      have hg := hgenerated (Action.runs_generate_error (hprepared _) hassemble)
      exact Outcome.predicts_of_fault hc.1 hg.1
    · have hreport := congrArg CheckReport.api (check_of_ok hcompile)
      have hc := hchecked (Action.runs_check (hprepared "")
        (Action.runs_conclude_ok hreport hassembly))
      have hg := hgenerated (Action.runs_generate_ok (hprepared _) rfl hassemble)
      refine ⟨hc.1.trans hg.1.symm, .inl hc.1, fun _ => ⟨_, _, _, hc.2, fun source => ?_⟩⟩
      obtain ⟨hmerged, hshallow⟩ := merged_of_declarationsAt htypes
      rw [hg.2]
      refine load_print_counts hmerged hshallow hassemble ?_ source
      split
      · exact isHeader_generatedHeader
      · exact .inl rfl

/-! ## Two types in a file -/

theorem request_check :
    request ["check"] = .ok (.run (some defaultConfigPath) (.check {})) :=
  request_name (.tail _ (.tail _ (.head _)))

theorem request_generate : request ["generate", "-s", "-"] =
    .ok (.run (some defaultConfigPath) (.generate {} Config.standardOutput)) :=
  request_generate_to rfl rfl (by decide)

theorem Text.decode_toUTF8 (s : String) : Text.decode s.toUTF8 = .ok s := by
  rw [Text.decode, String.fromUTF8?, String.toUTF8_eq_toByteArray, dif_pos s.isValidUTF8]
  rfl

def blogText : String :=
  "type User \x7b id: ID! name: String \x7d type Post \x7b id: ID! author: User! \x7d"

/-- A project without a settings file, with declarations where the defaults say. -/
def blogTree : FileTree where
  entries := .ofList [(["blog"], .directory), (["blog", "types"], .directory),
    (["blog", "types", "all.graphql"], .file blogText.toUTF8)]
  current := ["blog"]

def blogTypes : TypeMap :=
  .ofList
    [("User", ⟨"User", [⟨"id", .named "ID", false⟩, ⟨"name", .named "String", true⟩], none⟩),
      ("Post", ⟨"Post", [⟨"id", .named "ID", false⟩, ⟨"author", .named "User", false⟩], none⟩)]

theorem blogTree_declares : Action.declarationsAt blogTree ["types"] = .ok blogTypes := by
  have hcollect : collect blogTree ["types"] = .ok [.ofText "types/all.graphql"] :=
    Except.eq_ok_of_toOption (by decide)
  have hread : blogTree.read (.ofText "types/all.graphql") = .ok blogText.toUTF8 :=
    Except.eq_ok_of_toOption (by decide +kernel)
  have hdecode : Text.decodeLines blogText.toUTF8 = .ok blogText := by
    rw [Text.decodeLines, Text.decode_toUTF8]
    decide
  have htext : blogTree.readText (.ofText "types/all.graphql") = .ok blogText := by
    rw [FileTree.readText, hread]
    exact congrArg (Except.mapError Fault.encoding) hdecode
  have hload : (loadPaths blogTree ["types"] none).result =
      .ok [⟨"types/all.graphql", blogTypes.values⟩] := by
    refine Logged.bind_of_ok hcollect (Logged.bind_of_ok rfl ?_)
    refine Logged.bind_of_ok (a := [blogText]) (by simp [Logged.ofExcept, htext]) ?_
    exact Logged.mapError_of_ok _ (by decide +kernel)
  have hmerge : (merge [⟨"types/all.graphql", blogTypes.values⟩]).result = .ok blogTypes := by
    decide
  rw [Action.declarationsAt, hload]
  exact congrArg (Except.mapError fun e => Fault.generation (.synthesis e)) hmerge

/-- Without a settings file at its usual place the defaults are in force. -/
theorem settingsAt_of_absent {files : FileTree}
    (h : Config.load files (.ofText defaultConfigPath) = .ok none) :
    Action.settingsAt files (some defaultConfigPath) = .ok {} := by
  have hdefaults : ({} : Config).relativeTo (Path.ofText defaultConfigPath).parent = {} := by
    decide
  rw [Action.settingsAt, h, Except.map, Option.getD_none, hdefaults]

theorem blogTree_settings : Action.settingsAt blogTree (some defaultConfigPath) = .ok {} :=
  settingsAt_of_absent (Except.eq_ok_of_toOption (by decide +kernel))

/-- A schema can be assembled from these types. -/
theorem blogTypes_assemble : ∃ api schema, (compile {} blogTypes).result = .ok api ∧
    (assemble api).result = .ok schema := by
  have hpublic : blogTypes.Public :=
    TypeMap.public_of_names (by decide) (by decide)
  exact exists_schema_of_public {} (merged_of_declarationsAt blogTree_declares).1 hpublic
    (by decide)

/-- Nothing is wrong with these declarations, and the check counts them as they are generated. -/
theorem blogTree_check_predicts_generate :
    request ["check"] = .ok (.run (some defaultConfigPath) (.check {})) ∧
    request ["generate", "-s", "-"] =
      .ok (.run (some defaultConfigPath) (.generate {} Config.standardOutput)) ∧
    (run ["check"] blogTree).ending = .ok 0 ∧
    (run ["check"] blogTree).Predicts (run ["generate", "-s", "-"] blogTree) := by
  refine ⟨request_check, request_generate, ?_,
    check_predicts_generate blogTree request_check request_generate⟩
  obtain ⟨api, schema, hcompile, hassemble⟩ := blogTypes_assemble
  have hprepared := Action.prepared_eq_ok (s := {}) blogTree_settings blogTree_declares ""
  have hreport := congrArg CheckReport.api (check_of_ok hcompile)
  have hruns := Action.runs_check hprepared (Action.runs_conclude_ok hreport hassemble)
  rw [run_of_request request_check]
  exact (execute_of_runs (c := .check {}) hruns).1

end CommandLine

end CrudSchema
