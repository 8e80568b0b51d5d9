import CrudSchema.Proofs.Commands
import CrudSchema.Proofs.FileTree

/-!
# What runs write

**Effects** (`Action.Yields`). Carried out on some files, an action comes to a result and leaves
files behind, and both are as they should be. Actions that change no file (`Action.Runs`) may come
before others without being looked at again.

**Starting a project** (`Start`). Settings are written first, then a directory for declarations is
made beside them. If only the second step fails the settings stay (`yields_init`).

**Generating** (`Generation`). There are four ends it can come to. All that can be wrong with the
settings or the declarations is found before the first write, so a fault found later is that of a
file, and nothing reports it (`yields_generate`).

Main result: `run_spares_files`.
-/

namespace CrudSchema.CommandLine

namespace Action

variable {α β : Type} {files : FileTree} {x : Action α} {a : α} {e : Fault} {text : String}

/-! ## Effects -/

/-- On these files the action comes to a result and to files that are as they should be. -/
def Yields (files : FileTree) (x : Action α) (Q : Except Fault α → FileTree → Prop) : Prop :=
  ∀ p : Progress, p.files = files →
    Q ((ExceptT.run x).run p).1 ((ExceptT.run x).run p).2.files

/-! ### Actions that change no file -/

section Runs

variable {Q : Except Fault α → FileTree → Prop} {R : Except Fault β → FileTree → Prop}

theorem Runs.yields {r : Except Fault α} (hx : Runs files x r text) (hQ : Q r files) :
    Yields files x Q := by
  intro p hp
  obtain ⟨p', hrun, hfiles, -⟩ := hx p hp
  rw [hrun]
  exact hfiles ▸ hQ

theorem Runs.bind_yields (hx : Runs files x (.ok a) text) {f : α → Action β}
    (hf : Yields files (f a) R) : Yields files (x >>= f) R := by
  intro p hp
  obtain ⟨p', hrun, hfiles, -⟩ := hx p hp
  rw [run_bind_ok hrun]
  exact hf p' hfiles

theorem Runs.bind_error_yields (hx : Runs files x (.error e) text) {f : α → Action β}
    (hR : R (.error e) files) : Yields files (x >>= f) R :=
  (hx.bind_error f).yields hR

end Runs

/-! ### Actions that change files -/

section Changes

variable {Q : Except Fault β → FileTree → Prop} {next : Unit → Action β}

theorem Yields.get_bind {f : Progress → Action β}
    (h : ∀ p : Progress, p.files = files → Yields files (f p) Q) : Yields files (get >>= f) Q := by
  intro p hp
  exact h p hp p hp

theorem Yields.update_bind {t : FileTree} {g : Progress → Progress}
    (hg : ∀ p, (g p).files = t) (h : Yields t (next ()) Q) :
    Yields files (modify g >>= next) Q := by
  intro p _
  exact h (g p) (hg p)

/-- Files are replaced, or kept if they cannot be. -/
theorem Yields.change_bind {f : FileTree → Except Fault FileTree}
    (hok : ∀ t, f files = .ok t → Yields t (next ()) Q)
    (herror : ∀ e, f files = .error e → Q (.error e) files) :
    Yields files (change f >>= next) Q := by
  rw [change, bind_assoc]
  refine get_bind fun p hp => ?_
  rw [hp, bind_assoc]
  rcases h : f files with e | t
  · exact (Runs.perform rfl).bind_error_yields (herror e h)
  · exact (Runs.perform rfl).bind_yields (update_bind (fun _ => rfl) (hok t h))

/-- Directories that were made are kept, even if not all of them could be. -/
theorem Yields.makeDirectories_bind {path : Path}
    (hok : (files.makeDirectories path).1 = .ok () →
      Yields (files.makeDirectories path).2 (next ()) Q)
    (herror : ∀ e, (files.makeDirectories path).1 = .error e →
      Q (.error (.file e)) (files.makeDirectories path).2) :
    Yields files (makeDirectories path >>= next) Q := by
  rw [makeDirectories, bind_assoc]
  refine get_bind fun p hp => ?_
  simp only [hp, bind_assoc]
  refine update_bind (fun _ => rfl) ?_
  rcases h : (files.makeDirectories path).1 with e | u
  · exact (Runs.perform rfl).bind_error_yields (herror e h)
  · exact (Runs.perform rfl).bind_yields (hok h)

end Changes

/-! ## Starting a project -/

/-- Default settings are written where nothing is, or over a file if that is asked for. -/
structure Saves (files : FileTree) (path : Path) (force : Bool) (t : FileTree) : Prop where
  allowed : ∃ found, files.exists? path = .ok found ∧ (found = true → force = true)
  saved : ({} : Config).save files path = .ok t

/-- The ends that starting a project can come to. -/
inductive Start (files : FileTree) (configPath : Option String) (force : Bool) :
    Except Fault Nat → FileTree → Prop where
  /-- There are settings already. -/
  | present (h : ∀ path, configPath = some path → ∀ t, ¬ Saves files (.ofText path) force t) :
    Start files configPath force (.ok 1) files
  /-- The settings cannot be written. -/
  | unwritten {e : Fault}
    (h : ∀ path, configPath = some path → ∀ t, ¬ Saves files (.ofText path) force t) :
    Start files configPath force (.error e) files
  /-- The settings are written, but there is no directory for declarations. -/
  | halted {path : String} {t : FileTree} {e : FileError} (hpath : configPath = some path)
    (hsaved : Saves files (.ofText path) force t)
    (hfault : t.ensureDirectory (typesDirectory (.ofText path)) = .error e) :
    Start files configPath force (.error (.file e)) t
  /-- The settings are written, and there is a directory for declarations. -/
  | started {path : String} {t t' : FileTree} (hpath : configPath = some path)
    (hsaved : Saves files (.ofText path) force t)
    (hmade : t.ensureDirectory (typesDirectory (.ofText path)) = .ok t') :
    Start files configPath force (.ok 0) t'

/-- **Starting a project comes to one of these ends.** -/
theorem yields_init (files : FileTree) (configPath : Option String) (force : Bool) :
    Yields files (init configPath force) (Start files configPath force) := by
  rcases configPath with _ | path
  · exact (Runs.throw _).bind_error_yields (.unwritten nofun)
  refine (Runs.pure (Path.ofText path)).bind_yields (Yields.get_bind fun p hp => ?_)
  rw [hp]
  rcases hexists : files.exists? (Path.ofText path) with e | found
  · refine (Runs.perform rfl).bind_error_yields (.unwritten ?_)
    rintro _ ⟨⟩ t ⟨⟨found, hfound, -⟩, -⟩
    rw [hexists] at hfound
    cases hfound
  refine (Runs.perform rfl).bind_yields ?_
  by_cases hkept : (found && !force) = true
  · rw [if_pos hkept]
    refine (Runs.complain _).bind_yields ((Runs.pure 1).yields (.present ?_))
    rintro _ ⟨⟩ t ⟨⟨found', hfound, hforce⟩, -⟩
    rw [hexists] at hfound
    cases hfound
    simp only [Bool.and_eq_true, Bool.not_eq_true'] at hkept
    simp [hforce hkept.1] at hkept
  rw [if_neg hkept]
  have hallowed : ∃ found, files.exists? (.ofText path) = .ok found ∧
      (found = true → force = true) := by
    refine ⟨found, hexists, fun hfound => ?_⟩
    by_contra hforce
    exact hkept (by simp [hfound, hforce])
  refine Yields.change_bind (fun t hsave => ?_) fun e he => ?_
  · have hsaved : Saves files (.ofText path) force t := ⟨hallowed, hsave⟩
    refine (Runs.printLine _).bind_yields (Yields.change_bind (fun t' hmade => ?_) fun e he => ?_)
    · refine (Runs.printLine _).bind_yields ((Runs.printLine _).bind_yields ?_)
      refine (Runs.printLine _).bind_yields ((Runs.printLine _).bind_yields ?_)
      exact (Runs.pure 0).yields (.started rfl hsaved (Except.ok_of_mapError hmade))
    · obtain ⟨fault, hfault, rfl⟩ := Except.error_of_mapError he
      exact .halted rfl hsaved hfault
  · refine .unwritten ?_
    rintro _ ⟨⟩ t ⟨-, hsave⟩
    rw [he] at hsave
    cases hsave

/-- A project is not started where there is one, and no fault that is reported comes later. -/
theorem Start.spares {configPath : Option String} {force : Bool} {r : Except Fault Nat}
    {t : FileTree} (h : Start files configPath force r t) (hone : endingOf r = .ok 1) :
    t = files := by
  cases h with
  | present | unwritten => rfl
  | halted | started => cases hone

/-! ## Checking -/

/-- A check changes no file, whatever it comes to. -/
theorem exists_runs_check (files : FileTree) (configPath : Option String) (s : Selection) :
    ∃ r text, Runs files (check configPath s) r text := by
  rcases prepared_cases files configPath s with ⟨e, hprepared⟩ | ⟨c, paths, types, -, hprepared⟩
  · exact ⟨_, _, Runs.of_unprepared _ (hprepared "")⟩
  · rcases assembleTypes_cases (override c s "").synthesisOptions types with
      ⟨e, hcompile, -⟩ | ⟨api, e, hcompile, hassemble, -⟩ | ⟨api, schema, hcompile, hassemble, -⟩
    · exact ⟨_, _, runs_check (hprepared "") (runs_conclude_refused hcompile)⟩
    · have hreport := congrArg CheckReport.api (check_of_ok hcompile)
      exact ⟨_, _, runs_check (hprepared "") (runs_conclude_unassembled hreport hassemble)⟩
    · have hreport := congrArg CheckReport.api (check_of_ok hcompile)
      exact ⟨_, _, runs_check (hprepared "") (runs_conclude_ok hreport hassemble)⟩

/-! ## Generating -/

/-- The settings in force for a command on some files. -/
def settingsInForce (files : FileTree) (configPath : Option String) (s : Selection)
    (schemaPath : String) : Except Fault Config :=
  (settingsAt files configPath).map fun c => override c s schemaPath

/-- The text of the schema that settings ask for on some files. -/
def schemaText (files : FileTree) (c : Config) : Except Fault String := do
  let types ← declarationsAt files c.types
  let (_, schema) ← (assembleTypes c.synthesisOptions types).result.mapError .generation
  return schema.print (if c.header then Schema.generatedHeader else "")

/-- Not all directories on the way to a file can be made, or the file cannot be written. -/
def Undelivered (files : FileTree) (path : Path) (bytes : ByteArray) (e : FileError)
    (t : FileTree) : Prop :=
  ∃ made, files.makeDirectories path.parent = (made, t) ∧
    (made = .error e ∨ t.write path bytes = .error e)

/-- The ends that generating with some settings can come to. -/
inductive Generation (files : FileTree) (inForce : Except Fault Config) :
    Except Fault Nat → FileTree → Prop where
  /-- There are no settings or no schema. -/
  | refused {e : Fault} (h : inForce >>= schemaText files = .error e) :
    Generation files inForce (.error e) files
  /-- The schema is on the standard output. -/
  | shown {c : Config} {text : String} (hc : inForce = .ok c)
    (htext : schemaText files c = .ok text) (hpath : c.schemaPath = Config.standardOutput) :
    Generation files inForce (.ok 0) files
  /-- There is a schema, but no file for it. -/
  | unwritten {c : Config} {text : String} {e : FileError} {t : FileTree} (hc : inForce = .ok c)
    (htext : schemaText files c = .ok text) (hpath : c.schemaPath ≠ Config.standardOutput)
    (hfault : Undelivered files (.ofText c.schemaPath) text.toUTF8 e t) :
    Generation files inForce (.error (.file e)) t
  /-- The schema is in its file. -/
  | written {c : Config} {text : String} {t : FileTree} (hc : inForce = .ok c)
    (htext : schemaText files c = .ok text) (hpath : c.schemaPath ≠ Config.standardOutput)
    (hreceived : files.Receives t (.ofText c.schemaPath) text.toUTF8) :
    Generation files inForce (.ok 0) t

/-- A schema for a file comes after the directories it is in. -/
theorem Yields.deliver_bind {c : Config} (hpath : c.schemaPath ≠ Config.standardOutput)
    {count : Nat} {next : Unit → Action β} {Q : Except Fault β → FileTree → Prop}
    (hok : ∀ t, files.Receives t (.ofText c.schemaPath) text.toUTF8 → Yields t (next ()) Q)
    (herror : ∀ e t, Undelivered files (.ofText c.schemaPath) text.toUTF8 e t →
      Q (.error (.file e)) t) : Yields files (deliver c text count >>= next) Q := by
  have hmade := files.furnished_makeDirectories (Path.ofText c.schemaPath).parent
  rw [deliver, if_neg hpath]
  simp only [bind_assoc]
  refine makeDirectories_bind (fun _ => change_bind (fun t ht => ?_) fun e he => ?_) fun e he => ?_
  · have hwrite := Except.ok_of_mapError ht
    exact (Runs.printLine _).bind_yields (hok t (FileTree.receives_of_write hmade hwrite))
  · obtain ⟨fault, hwrite, rfl⟩ := Except.error_of_mapError he
    exact herror fault _ ⟨_, rfl, .inr hwrite⟩
  · exact herror e _ ⟨_, rfl, .inl he⟩

theorem schemaText_of_declarationsAt {c : Config} {types : TypeMap}
    (h : declarationsAt files c.types = .ok types) : schemaText files c =
      ((assembleTypes c.synthesisOptions types).result.mapError .generation).map fun found =>
        found.2.print (if c.header then Schema.generatedHeader else "") := by
  rw [schemaText, h]
  rfl

/-- **Generating comes to one of these ends.** -/
theorem yields_generate (files : FileTree) (configPath : Option String) (s : Selection)
    (schemaPath : String) : Yields files (generate configPath s schemaPath)
      (Generation files (settingsInForce files configPath s schemaPath)) := by
  have hsettings := runs_settings files configPath s schemaPath
  rw [← settingsInForce] at hsettings
  rcases hc : settingsInForce files configPath s schemaPath with e | c
  · rw [hc] at hsettings
    exact hsettings.bind_error_yields (.refused rfl)
  rw [hc] at hsettings
  refine hsettings.bind_yields ?_
  have hdeclarations := runs_declarations files c
  rcases htypes : declarationsAt files c.types with e | types
  · rw [htypes] at hdeclarations
    have htext : schemaText files c = .error e := by
      rw [schemaText, htypes]
      rfl
    exact hdeclarations.bind_error_yields (.refused htext)
  rw [htypes] at hdeclarations
  refine hdeclarations.bind_yields ?_
  have htext := schemaText_of_declarationsAt htypes
  rcases hassemble : (assembleTypes c.synthesisOptions types).result with e | ⟨api, schema⟩
  · rw [hassemble] at htext
    have hfault := Logged.mapError_of_error Fault.generation hassemble
    exact (Runs.perform hfault).bind_error_yields (.refused htext)
  · rw [hassemble] at htext
    have hassembled := Logged.mapError_of_ok Fault.generation hassemble
    refine (Runs.perform hassembled).bind_yields ?_
    by_cases hpath : c.schemaPath = Config.standardOutput
    · refine (runs_deliver hpath _ _).bind_yields ?_
      exact (Runs.pure 0).yields (.shown rfl htext hpath)
    · refine Yields.deliver_bind hpath (fun t ht => ?_) fun e t ht => ?_
      · exact (Runs.pure 0).yields (.written rfl htext hpath ht)
      · exact .unwritten rfl htext hpath ht

/-- A fault that is reported comes before the first write. -/
theorem Generation.spares {inForce : Except Fault Config} {r : Except Fault Nat} {t : FileTree}
    (h : Generation files inForce r t) (hone : endingOf r = .ok 1) : t = files := by
  cases h with
  | refused | shown => rfl
  | unwritten | written => cases hone

theorem Generation.shows {c : Config} {r : Except Fault Nat} {t : FileTree}
    (h : Generation files (.ok c) r t) (hpath : c.schemaPath = Config.standardOutput) :
    t = files := by
  cases h with
  | refused | shown => rfl
  | unwritten hc _ hfile | written hc _ hfile =>
    cases hc
    exact absurd hpath hfile

theorem Generation.writes {inForce : Except Fault Config} {r : Except Fault Nat} {t : FileTree}
    (h : Generation files inForce r t) (hzero : endingOf r = .ok 0) :
    ∃ c, inForce = .ok c ∧ (c.schemaPath ≠ Config.standardOutput →
      ∃ text, schemaText files c = .ok text ∧
        files.Receives t (.ofText c.schemaPath) text.toUTF8) := by
  cases h with
  | @refused e _ =>
    rw [endingOf] at hzero
    split at hzero <;> cases hzero
  | shown hc _ hpath => exact ⟨_, hc, fun hfile => absurd hpath hfile⟩
  | unwritten => cases hzero
  | written hc htext _ hreceived => exact ⟨_, hc, fun _ => ⟨_, htext, hreceived⟩⟩

/-- Generating succeeds if there is a schema and its file can be written. -/
theorem Generation.succeeds {c : Config} {r : Except Fault Nat} {t : FileTree}
    (h : Generation files (.ok c) r t) (htext : schemaText files c = .ok text)
    (hfile : ∀ e t, ¬ Undelivered files (.ofText c.schemaPath) text.toUTF8 e t) : r = .ok 0 := by
  cases h with
  | refused h =>
    have hno : schemaText files c = .error _ := h
    rw [htext] at hno
    cases hno
  | shown | written => rfl
  | unwritten hc htext' _ hfault =>
    cases hc
    rw [htext] at htext'
    cases htext'
    exact absurd hfault (hfile _ _)

end Action

/-! ## Runs -/

/-- A run ends as its command does, and with the files the command leaves. -/
theorem execute_of_yields {files : FileTree} {configPath : Option String} {c : Command}
    {Q : Except Fault Nat → FileTree → Prop}
    (h : Action.Yields files (Action.command configPath c) Q) :
    ∃ r, (execute configPath c files).ending = endingOf r ∧
      Q r (execute configPath c files).progress.files := by
  rcases hrun : (ExceptT.run (Action.command configPath c)).run { files } with ⟨r, p⟩
  have hQ := h { files } rfl
  rw [hrun] at hQ
  obtain ⟨hending, hfiles, -⟩ := execute_of_run hrun
  refine ⟨r, hending, ?_⟩
  rw [hfiles]
  exact hQ

theorem yields_command (files : FileTree) (configPath : Option String) (c : Command) :
    Action.Yields files (Action.command configPath c) fun r t =>
      endingOf r = .ok 1 → t = files := by
  cases c with
  | init force =>
    intro p hp
    exact (Action.yields_init files configPath force p hp).spares
  | generate s schemaPath =>
    intro p hp
    exact (Action.yields_generate files configPath s schemaPath p hp).spares
  | check s =>
    obtain ⟨r, text, hruns⟩ := Action.exists_runs_check files configPath s
    exact hruns.yields fun _ => rfl

/-- What a run may do to the files it finds. -/
structure Outcome.Spares (o : Outcome) (words : List String) (files : FileTree) : Prop where
  rejected : o.ending = .ok 1 → o.progress.files = files
  checked : ∀ configPath s, request words = .ok (.run configPath (.check s)) →
    o.progress.files = files
  shown : ∀ configPath s schemaPath c,
    request words = .ok (.run configPath (.generate s schemaPath)) →
    Action.settingsInForce files configPath s schemaPath = .ok c →
    c.schemaPath = Config.standardOutput → o.progress.files = files
  written : ∀ configPath s schemaPath,
    request words = .ok (.run configPath (.generate s schemaPath)) → o.ending = .ok 0 →
    ∃ c, Action.settingsInForce files configPath s schemaPath = .ok c ∧
      (c.schemaPath ≠ Config.standardOutput → ∃ text, Action.schemaText files c = .ok text ∧
        files.Receives o.progress.files (.ofText c.schemaPath) text.toUTF8)

/-- **A run that is rejected writes nothing.** -/
theorem run_rejected {words : List String} {files : FileTree}
    (h : (run words files).ending = .ok 1) : (run words files).progress.files = files := by
  unfold run at h ⊢
  split at h
  · cases h
  · cases h
  · cases h
  next configPath c hrequest =>
    obtain ⟨r, hending, hspares⟩ := execute_of_yields (yields_command files configPath c)
    exact hspares (hending.symm.trans h)

/-- **What runs write.** -/
theorem run_spares_files (words : List String) (files : FileTree) :
    (run words files).Spares words files := by
  have hgeneration : ∀ {configPath s schemaPath},
      request words = .ok (.run configPath (.generate s schemaPath)) →
      ∃ r, (run words files).ending = endingOf r ∧
        Action.Generation files (Action.settingsInForce files configPath s schemaPath) r
          (run words files).progress.files := by
    intro configPath s schemaPath hrequest
    rw [run_of_request hrequest]
    exact execute_of_yields (c := .generate s schemaPath)
      (Action.yields_generate files configPath s schemaPath)
  constructor
  · exact run_rejected
  · intro configPath s hrequest
    obtain ⟨r, text, hruns⟩ := Action.exists_runs_check files configPath s
    obtain ⟨-, -, hspared⟩ := execute_of_yields (c := .check s)
      (hruns.yields (Q := fun _ t => t = files) rfl)
    rw [run_of_request hrequest]
    exact hspared
  · intro configPath s schemaPath c hrequest hc hpath
    obtain ⟨r, -, hend⟩ := hgeneration hrequest
    rw [hc] at hend
    exact hend.shows hpath
  · intro configPath s schemaPath hrequest hzero
    obtain ⟨r, hending, hend⟩ := hgeneration hrequest
    exact hend.writes (hending.symm.trans hzero)

/-! ## A rejected run and three others -/

theorem request_generate_to_file :
    request ["generate"] = .ok (.run (some defaultConfigPath) (.generate {} "")) :=
  request_name (.tail _ (.head _))

/-- A tree without declarations. -/
def bareTree : FileTree := ⟨.empty, []⟩

theorem bareTree_is_refused : Action.prepared bareTree (some defaultConfigPath) {} "" =
    .error (.config (.missingDeclarations (.ofText "types"))) := by
  have hsettings : Action.settingsAt bareTree (some defaultConfigPath) = .ok {} :=
    settingsAt_of_absent (Except.eq_ok_of_toOption (by decide +kernel))
  have hfind : bareTree.find? (.ofText "types") = .ok none :=
    Except.eq_ok_of_toOption (by decide)
  have hcollect : collect bareTree ["types"] =
      .error (.config (.missingDeclarations (.ofText "types"))) := by
    simp [collect, filesAt, hfind, bind, Except.bind]
  have hload : (loadPaths bareTree ["types"] none).result =
      .error (.config (.missingDeclarations (.ofText "types"))) :=
    Logged.bind_of_error hcollect
  have hdeclarations : Action.declarationsAt bareTree ["types"] =
      .error (.config (.missingDeclarations (.ofText "types"))) := by
    rw [Action.declarationsAt, hload]
    rfl
  exact Action.prepared_eq_error (s := {}) hsettings hdeclarations ""

theorem bareTree_is_rejected : (run ["generate"] bareTree).ending = .ok 1 := by
  rw [run_of_request request_generate_to_file]
  exact (execute_of_runs (c := .generate {} "")
    (Action.Runs.of_unprepared _ bareTree_is_refused)).1

theorem blogTree_has_schema : ∃ text, Action.schemaText blogTree {} = .ok text := by
  obtain ⟨api, schema, hcompile, hassemble⟩ := blogTypes_assemble
  have hassembled :
      (assembleTypes ({} : Config).synthesisOptions blogTypes).result = .ok (api, schema) :=
    Action.assembleTypes_of_ok hcompile hassemble
  have htext := Action.schemaText_of_declarationsAt (c := {}) blogTree_declares
  rw [hassembled] at htext
  exact ⟨_, htext⟩

/-- Nothing is in the way of the file that the defaults name. -/
theorem blogTree_takes_schema (bytes : ByteArray) (e : FileError) (t : FileTree) :
    ¬ Action.Undelivered blogTree (.ofText "schema.graphql") bytes e t := by
  have hhere : blogTree.locate (Path.ofText "schema.graphql").parent =
    .ok (["blog"], some .directory) := Except.eq_ok_of_toOption (by decide)
  have hfree : blogTree.locate (Path.ofText "schema.graphql") =
    .ok (["blog", "schema.graphql"], none) := Except.eq_ok_of_toOption (by decide +kernel)
  intro ⟨made, hmade, hfault⟩
  rw [FileTree.makeDirectories_of_locate hhere] at hmade
  obtain ⟨rfl, rfl⟩ := Prod.mk.inj hmade
  rw [FileTree.write, hfree] at hfault
  rcases hfault with hfault | hfault
  · cases hfault
  · cases hfault

theorem blogTree_settingsInForce (schemaPath : String) :
    Action.settingsInForce blogTree (some defaultConfigPath) {} schemaPath =
      .ok (Action.override {} {} schemaPath) := by
  rw [Action.settingsInForce, blogTree_settings]
  rfl

theorem blogTree_is_generated : (run ["generate"] blogTree).ending = .ok 0 := by
  obtain ⟨r, hending, hend⟩ := execute_of_yields (c := .generate {} "")
    (Action.yields_generate blogTree (some defaultConfigPath) {} "")
  obtain ⟨text, htext⟩ := blogTree_has_schema
  rw [blogTree_settingsInForce] at hend
  rw [run_of_request request_generate_to_file, hending,
    hend.succeeds htext (blogTree_takes_schema _)]
  rfl

/-- Where declarations are missing nothing is written. Where there are some, neither a check nor
a schema on the standard output writes a file, and a schema in a file is all that is written. -/
theorem bareTree_and_blogTree_spared :
    ((run ["generate"] bareTree).ending = .ok 1 ∧
      (run ["generate"] bareTree).progress.files = bareTree) ∧
    (run ["check"] blogTree).progress.files = blogTree ∧
    (run ["generate", "-s", "-"] blogTree).progress.files = blogTree ∧
    (run ["generate"] blogTree).ending = .ok 0 ∧
    ∃ text, Action.schemaText blogTree {} = .ok text ∧
      blogTree.Receives (run ["generate"] blogTree).progress.files (.ofText "schema.graphql")
        text.toUTF8 := by
  refine ⟨⟨bareTree_is_rejected, (run_spares_files _ _).rejected bareTree_is_rejected⟩,
    (run_spares_files _ _).checked _ _ request_check, ?_, blogTree_is_generated, ?_⟩
  · exact (run_spares_files _ _).shown _ _ _ _ request_generate (blogTree_settingsInForce _) rfl
  · obtain ⟨c, hc, hwritten⟩ :=
      (run_spares_files _ _).written _ _ _ request_generate_to_file blogTree_is_generated
    rw [blogTree_settingsInForce] at hc
    cases hc
    obtain ⟨text, htext, hreceived⟩ := hwritten (by decide)
    exact ⟨text, htext, hreceived⟩

end CrudSchema.CommandLine
