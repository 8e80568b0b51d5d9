import CrudSchema.Proofs.Delivery

/-!
# Where a schema goes

**The destination** (`Destination`). What the command line says comes before what the settings file
says. Two spellings of a path are one path, and the path that a setting names from the directory of
its file is spelled anew. So what the settings file says may become the name of the standard output
without being spelled like it (`join_eq_dash_iff`): as a path to what is called by that name.

**Runs** (`Outcome.Delivers`). A schema for a file is told of when it is written. Besides that there
is no output.

Main result: `run_delivers`.
-/

namespace CrudSchema

/-! ## Paths spelled like the standard output -/

namespace Path

/-- What is called by the name of the standard output. -/
def dash : Path := .ofText Config.standardOutput

theorem text_eq_standardOutput {p : Path} : p.text = Config.standardOutput ↔ p = dash := by
  have hdash : dash.text = Config.standardOutput := by decide
  rw [← hdash, text_inj]

/-- One gets to the dash in one's own directory from there, and from itself by staying. -/
theorem join_eq_dash_iff {base p : Path} : base.join p = dash ↔
    base = ofText "." ∧ p = dash ∨ base = dash ∧ p = ofText "." := by
  have hdash : dash.anchor = .relative ∧ dash.parts = ["-"] := by decide
  have hdot : (ofText ".").anchor = .relative ∧ (ofText ".").parts = [] := by decide
  constructor
  · intro h
    have hanchor := congrArg anchor h
    have hparts := congrArg parts h
    rw [join] at h hanchor hparts
    cases hp : p.anchor with
    | relative =>
      simp only [hp, hdash.1] at hanchor
      simp only [hp, hdash.2] at hparts
      rcases List.append_eq_singleton_iff.1 hparts with ⟨hbase, hrest⟩ | ⟨hbase, hrest⟩
      · exact .inl ⟨ext_parts (hanchor.trans hdot.1.symm) (hbase.trans hdot.2.symm),
          ext_parts (hp.trans hdash.1.symm) (hrest.trans hdash.2.symm)⟩
      · exact .inr ⟨ext_parts (hanchor.trans hdash.1.symm) (hbase.trans hdash.2.symm),
          ext_parts (hp.trans hdot.1.symm) (hrest.trans hdot.2.symm)⟩
    | root | doubleRoot =>
      simp only [hp, hdash.1] at hanchor
      cases hanchor
  · rintro (⟨rfl, rfl⟩ | ⟨rfl, rfl⟩)
    · decide
    · decide

end Path

/-- Settings are loaded from the text of their file. -/
theorem Config.load_eq_ok {t : FileTree} {p : Path} {text : String} {c : Config}
    (hexists : t.exists? p = .ok true) (htext : t.readText p = .ok text)
    (hc : Config.ofText p text = .ok c) : Config.load t p = .ok (some c) := by
  rw [Config.load, hexists, htext]
  simp [Except.mapError, bind, Except.bind, hc, pure, Except.pure]

namespace CommandLine

/-! ## The destination -/

inductive Destination where
  | standardOutput
  | file (p : Path)
  deriving DecidableEq

/-- Where a schema goes by the settings in force. -/
def Destination.ofConfig (c : Config) : Destination :=
  if c.schemaPath = Config.standardOutput then .standardOutput else .file (.ofText c.schemaPath)

/-- The settings in a file name the standard output: by its name, or by a path that is spelled so
as seen from where one stands. -/
def NamesOutput (base : Path) (setting : String) : Prop :=
  setting = Config.standardOutput ∨
    base = .ofText "." ∧ Path.ofText setting = .dash ∨
    base = .dash ∧ Path.ofText setting = .ofText "."

instance (base : Path) (setting : String) : Decidable (NamesOutput base setting) :=
  inferInstanceAs (Decidable (_ ∨ _ ∨ _))

/-- Where a schema goes that the command line, if it says anything of that, and else the settings in
a file of some directory send somewhere. -/
def destination (base : Path) (setting given : String) : Destination :=
  if given = "" then
    if NamesOutput base setting then .standardOutput else .file (base.join (.ofText setting))
  else if given = Config.standardOutput then .standardOutput
  else .file (.ofText given)

theorem schemaPath_relativeTo_eq {c : Config} {base : Path} :
    (c.relativeTo base).schemaPath = Config.standardOutput ↔ NamesOutput base c.schemaPath := by
  rw [Config.relativeTo, NamesOutput]
  by_cases h : c.schemaPath = Config.standardOutput
  · simp only [h, if_true, true_or]
  · simp only [h, if_false, false_or]
    rw [Path.text_eq_standardOutput, Path.join_eq_dash_iff]

/-- The settings in force send a schema where the command line and the settings file do. -/
theorem ofConfig_override (c : Config) (base : Path) (s : Selection) (given : String) :
    .ofConfig (Action.override (c.relativeTo base) s given) =
      destination base c.schemaPath given := by
  rw [Destination.ofConfig, destination]
  by_cases hgiven : given = ""
  · subst hgiven
    have hpath : (Action.override (c.relativeTo base) s "").schemaPath =
        (c.relativeTo base).schemaPath := rfl
    rw [hpath, if_pos rfl]
    by_cases houtput : NamesOutput base c.schemaPath
    · rw [if_pos (schemaPath_relativeTo_eq.2 houtput), if_pos houtput]
    · have htext : (c.relativeTo base).schemaPath = (base.join (.ofText c.schemaPath)).text :=
        if_neg fun h => houtput (.inl h)
      rw [if_neg (mt schemaPath_relativeTo_eq.1 houtput), if_neg houtput, htext, Path.ofText_text]
  · have hpath : (Action.override (c.relativeTo base) s given).schemaPath = given :=
      if_neg (by simpa using hgiven)
    rw [hpath, if_neg hgiven]

/-! ## Runs -/

/-- A run that gets as far as writing sends its schema to the destination, and nowhere else. -/
inductive Outcome.Delivers (o : Outcome) (files : FileTree) (text : String) (count : Nat) :
    Destination → Prop where
  /-- The schema is on the standard output. -/
  | shown (hending : o.ending = .ok 0) (houtput : o.progress.output = text)
    (hfiles : o.progress.files = files) : Delivers o files text count .standardOutput
  /-- The schema is in its file. -/
  | written {p : Path} (hending : o.ending = .ok 0)
    (houtput : o.progress.output = Action.generatedLine p count)
    (hfiles : files.Receives o.progress.files p text.toUTF8) :
    Delivers o files text count (.file p)
  /-- The file cannot be written. -/
  | unwritten {p : Path} {e : FileError} (hending : o.ending = .error (.file e))
    (houtput : o.progress.output = "")
    (hfiles : Action.Undelivered files p text.toUTF8 e o.progress.files) :
    Delivers o files text count (.file p)

/-- Generating delivers to where the settings in force say. -/
theorem execute_delivers {files : FileTree} {configPath : Option String} {s : Selection}
    {given : String} {c : Config} {types : TypeMap} {api : Api} {schema : Schema}
    (hprepared : Action.prepared files configPath s given = .ok (c, types))
    (hassemble : (assembleTypes c.synthesisOptions types).result = .ok (api, schema)) :
    (execute configPath (.generate s given) files).Delivers files
      (schema.print (if c.header then Schema.generatedHeader else "")) api.objects.size
      (.ofConfig c) := by
  by_cases hpath : c.schemaPath = Config.standardOutput
  · have hruns := Action.runs_generate_ok hprepared hpath hassemble
    obtain ⟨hending, houtput⟩ := execute_of_runs (c := .generate s given) hruns
    obtain ⟨-, -, hfiles⟩ := execute_of_yields (c := .generate s given)
      (hruns.yields (Q := fun _ t => t = files) rfl)
    rw [Destination.ofConfig, if_pos hpath]
    exact .shown hending houtput hfiles
  · obtain ⟨r, p, hrun, hcases⟩ := Action.run_generate hpath hprepared hassemble rfl
    obtain ⟨hending, hfiles, houtput⟩ := execute_of_run (c := .generate s given) hrun
    rw [Destination.ofConfig, if_neg hpath]
    rw [← hfiles, ← houtput] at hcases
    rcases hcases with ⟨e, rfl, hfault, htext⟩ | ⟨rfl, hdelivered, htext⟩
    · exact .unwritten hending htext hfault
    · exact .written hending htext hdelivered.receives

/-- **A schema goes to the standard output just if that is named.** For every settings file, every
place of it and every command line that gets as far as writing. -/
theorem run_delivers {files : FileTree} {words : List String} {path : String} {s : Selection}
    {given : String} {found : Option Config} {c : Config} {types : TypeMap} {api : Api}
    {schema : Schema} (hrequest : request words = .ok (.run (some path) (.generate s given)))
    (hload : Config.load files (.ofText path) = .ok found)
    (hc : Action.override ((found.getD {}).relativeTo (Path.ofText path).parent) s given = c)
    (htypes : Action.declarationsAt files c.types = .ok types)
    (hassemble : (assembleTypes c.synthesisOptions types).result = .ok (api, schema)) :
    (run words files).Delivers files
      (schema.print (if c.header then Schema.generatedHeader else "")) api.objects.size
      (destination (Path.ofText path).parent (found.getD {}).schemaPath given) := by
  subst hc
  have hsettings : Action.settingsAt files (some path) =
      .ok ((found.getD {}).relativeTo (Path.ofText path).parent) := by
    rw [Action.settingsAt, hload]
    rfl
  rw [run_of_request hrequest, ← ofConfig_override _ _ s given]
  exact execute_delivers (Action.prepared_eq_ok hsettings htypes given) hassemble

/-! ## A file that is called like the standard output -/

/-- The project of two types, with settings that send the schema to a file called by a dash. -/
def dashTree : FileTree :=
  blogTree.put ["blog", "crudgraph.yaml"] (.file "schema_path: ./-\n".toUTF8)

theorem dashTree_load :
    Config.load dashTree (.ofText defaultConfigPath) = .ok (some { schemaPath := "./-" }) := by
  have hread : dashTree.read (.ofText defaultConfigPath) = .ok "schema_path: ./-\n".toUTF8 :=
    Except.eq_ok_of_toOption (by decide +kernel)
  have hexists : dashTree.exists? (.ofText defaultConfigPath) = .ok true :=
    Except.eq_ok_of_toOption (by decide +kernel)
  have hdecode : Text.decodeLines "schema_path: ./-\n".toUTF8 = .ok "schema_path: ./-\n" := by
    rw [Text.decodeLines, Text.decode_toUTF8]
    decide
  have htext : dashTree.readText (.ofText defaultConfigPath) = .ok "schema_path: ./-\n" := by
    rw [FileTree.readText, hread]
    exact congrArg (Except.mapError Fault.encoding) hdecode
  have hsettings : Config.ofText (.ofText defaultConfigPath) "schema_path: ./-\n" =
      .ok { schemaPath := "./-" } := Except.eq_ok_of_toOption (by decide +kernel)
  exact Config.load_eq_ok hexists htext hsettings

/-- The declarations are as they were without the settings. -/
theorem dashTree_declares : Action.declarationsAt dashTree ["types"] = .ok blogTypes := by
  have hcollect : collect blogTree ["types"] = .ok [.ofText "types/all.graphql"] :=
    Except.eq_ok_of_toOption (by decide +kernel)
  have hcollect' : collect dashTree ["types"] = .ok [.ofText "types/all.graphql"] :=
    Except.eq_ok_of_toOption (by decide +kernel)
  rw [← blogTree_declares]
  refine declarationsAt_congr (hcollect'.trans hcollect.symm) fun files hfiles q hq => ?_
  rw [hcollect] at hfiles
  cases hfiles
  cases List.mem_singleton.1 hq
  have hread : blogTree.read (.ofText "types/all.graphql") = .ok blogText.toUTF8 :=
    Except.eq_ok_of_toOption (by decide +kernel)
  have hread' : dashTree.read (.ofText "types/all.graphql") = .ok blogText.toUTF8 :=
    Except.eq_ok_of_toOption (by decide +kernel)
  rw [FileTree.readText, FileTree.readText, hread, hread']

/-- The settings in force, seen from the directory they are in. -/
def dashConfig : Config := Action.override
  (({ schemaPath := "./-" } : Config).relativeTo (Path.ofText defaultConfigPath).parent) {} ""

theorem dashConfig_eq : dashConfig = { schemaPath := Config.standardOutput } := by decide

theorem dashConfig_declares : Action.declarationsAt dashTree dashConfig.types = .ok blogTypes := by
  rw [dashConfig_eq]
  exact dashTree_declares

theorem dashConfig_assembles : ∃ api schema,
    (assembleTypes dashConfig.synthesisOptions blogTypes).result = .ok (api, schema) := by
  obtain ⟨api, schema, hcompile, hassemble⟩ := blogTypes_assemble
  rw [dashConfig_eq]
  exact ⟨api, schema, Action.assembleTypes_of_ok hcompile hassemble⟩

/-- Its schema is put on the standard output. -/
theorem dashTree_delivers :
    request ["generate"] = .ok (.run (some defaultConfigPath) (.generate {} "")) ∧
      Config.load dashTree (.ofText defaultConfigPath) = .ok (some { schemaPath := "./-" }) ∧
      destination (Path.ofText defaultConfigPath).parent "./-" "" = .standardOutput ∧
      ∃ text count, (run ["generate"] dashTree).Delivers dashTree text count .standardOutput := by
  obtain ⟨api, schema, hassemble⟩ := dashConfig_assembles
  have houtput : destination (Path.ofText defaultConfigPath).parent "./-" "" = .standardOutput := by
    decide
  have hdelivers :=
    run_delivers request_generate_to_file dashTree_load rfl dashConfig_declares hassemble
  rw [Option.getD_some, houtput] at hdelivers
  exact ⟨request_generate_to_file, dashTree_load, houtput, _, _, hdelivers⟩

/-- A setting that is not the name of the standard output may send a schema there, so that no file
is written. -/
theorem dotDash_is_shown : "./-" ≠ Config.standardOutput ∧
    request ["generate"] = .ok (.run (some defaultConfigPath) (.generate {} "")) ∧
    Config.load dashTree (.ofText defaultConfigPath) = .ok (some { schemaPath := "./-" }) ∧
    (run ["generate"] dashTree).progress.files = dashTree ∧
    ∃ text, Action.schemaText dashTree dashConfig = .ok text ∧
      (run ["generate"] dashTree).progress.output = text := by
  obtain ⟨api, schema, hassemble⟩ := dashConfig_assembles
  have hsettings : Action.settingsAt dashTree (some defaultConfigPath) =
      .ok (({ schemaPath := "./-" } : Config).relativeTo
        (Path.ofText defaultConfigPath).parent) := by
    rw [Action.settingsAt, dashTree_load]
    rfl
  have hprepared : Action.prepared dashTree (some defaultConfigPath) {} "" =
      .ok (dashConfig, blogTypes) := Action.prepared_eq_ok hsettings dashConfig_declares ""
  have hdelivers := execute_delivers hprepared hassemble
  have htext := Action.schemaText_of_declarationsAt dashConfig_declares
  have houtput : Destination.ofConfig dashConfig = .standardOutput := by decide
  rw [hassemble] at htext
  rw [run_of_request request_generate_to_file]
  generalize execute (some defaultConfigPath) (.generate {} "") dashTree = o at hdelivers ⊢
  rw [houtput] at hdelivers
  cases hdelivers with
  | shown _ hshown hfiles =>
    exact ⟨by decide, request_generate_to_file, dashTree_load, hfiles, _, htext, hshown⟩

end CommandLine

end CrudSchema
