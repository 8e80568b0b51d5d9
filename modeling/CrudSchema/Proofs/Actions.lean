import CrudSchema.CommandLine.Execution
import CrudSchema.Proofs.Derivation

/-!
# What actions do

**Actions** (`Action.Runs`). Carried out on some files, an action that changes none of them gives a
result and writes a text. Both depend on the files alone: what was written before and which records
are shown makes no difference.

**Preparation** (`Action.prepared`). Commands that work on declarations find the settings, load the
declarations they name and merge them. Where the schema goes plays no part in that
(`Action.prepared_cases`).

**Endings** (`endingOf`). How a run ends is told by the result of its command
(`execute_of_runs`).

**Requests.** The name of a command alone asks for that command with nothing chosen
(`request_name`), and what stands behind `-s` is where a schema goes (`request_generate_to`).
-/

namespace CrudSchema.CommandLine

/-! ## Actions -/

namespace Action

variable {α β : Type} {files : FileTree}

/-- On these files the action gives the result, writes the text and changes no file. -/
def Runs (files : FileTree) (x : Action α) (r : Except Fault α) (text : String) : Prop :=
  ∀ p : Progress, p.files = files → ∃ p' : Progress,
    (ExceptT.run x).run p = (r, p') ∧ p'.files = files ∧ p'.output = p.output ++ text

namespace Runs

theorem pure (a : α) : Runs files (Pure.pure a) (.ok a) "" :=
  fun p hp => ⟨p, rfl, hp, String.append_empty.symm⟩

theorem throw (e : Fault) : Runs files (throw e : Action α) (.error e) "" :=
  fun p hp => ⟨p, rfl, hp, String.append_empty.symm⟩

theorem update {f : Progress → Progress} {text : String} (hfiles : ∀ p, (f p).files = p.files)
    (houtput : ∀ p, (f p).output = p.output ++ text) :
    Runs files (modify f) (.ok ()) text := by
  intro p hp
  exact ⟨f p, rfl, (hfiles p).trans hp, houtput p⟩

theorem get_bind {f : Progress → Action α} {r : Except Fault α} {text : String}
    (h : ∀ p : Progress, p.files = files → Runs files (f p) r text) :
    Runs files (get >>= f) r text := by
  intro p hp
  exact h p hp p hp

theorem bind {x : Action α} {f : α → Action β} {a : α} {r : Except Fault β} {s t : String}
    (hx : Runs files x (.ok a) s) (hf : Runs files (f a) r t) :
    Runs files (x >>= f) r (s ++ t) := by
  intro p hp
  obtain ⟨p₁, hrun₁, hfiles₁, houtput₁⟩ := hx p hp
  obtain ⟨p₂, hrun₂, hfiles₂, houtput₂⟩ := hf p₁ hfiles₁
  refine ⟨p₂, (run_bind_ok hrun₁ f).trans hrun₂, hfiles₂, ?_⟩
  rw [houtput₂, houtput₁, String.append_assoc]

/-- An action that writes nothing comes before another. -/
theorem silent_bind {x : Action α} {f : α → Action β} {a : α} {r : Except Fault β} {t : String}
    (hx : Runs files x (.ok a) "") (hf : Runs files (f a) r t) : Runs files (x >>= f) r t := by
  have h := hx.bind hf
  rwa [String.empty_append] at h

/-- An action that writes nothing comes after another. -/
theorem bind_silent {x : Action α} {f : α → Action β} {a : α} {r : Except Fault β} {s : String}
    (hx : Runs files x (.ok a) s) (hf : Runs files (f a) r "") : Runs files (x >>= f) r s := by
  have h := hx.bind hf
  rwa [String.append_empty] at h

theorem bind_error {x : Action α} {e : Fault} {s : String} (hx : Runs files x (.error e) s)
    (f : α → Action β) : Runs files (x >>= f) (.error e) s := by
  intro p hp
  obtain ⟨p', hrun, hfiles, houtput⟩ := hx p hp
  exact ⟨p', run_bind_error hrun f, hfiles, houtput⟩

/-- Actions that write nothing give one after the other what each gives. -/
theorem silent_seq {x : Action α} {f : α → Action β} {r : Except Fault α}
    {g : α → Except Fault β} (hx : Runs files x r "") (hf : ∀ a, Runs files (f a) (g a) "") :
    Runs files (x >>= f) (r >>= g) "" := by
  rcases r with e | a
  · exact hx.bind_error f
  · exact hx.silent_bind (hf a)

/-- Records are kept and shown, and nothing is written to the output. -/
theorem perform {run : Logged Fault α} {r : Except Fault α} (h : run.result = r) :
    Runs files (perform run) r "" := by
  have hlog : Runs files (modify fun p => p.log run.journal) (.ok ()) "" :=
    update (fun _ => rfl) fun _ => String.append_empty.symm
  refine hlog.silent_bind ?_
  rw [h]
  rcases r with e | a
  · exact throw e
  · exact pure a

theorem complain (messages : List String) : Runs files (complain messages) (.ok ()) "" := by
  have hkeeps : ∀ p : Progress, (messages.foldl Progress.complain p).files = p.files ∧
      (messages.foldl Progress.complain p).output = p.output := by
    induction messages with
    | nil => exact fun p => ⟨rfl, rfl⟩
    | cons message rest ih => exact fun p => ih (p.complain message)
  refine update (fun p => (hkeeps p).1) fun p => ?_
  rw [(hkeeps p).2, String.append_empty]

theorem printLine (line : String) : Runs files (printLine line) (.ok ()) (line ++ "\n") :=
  update (fun _ => rfl) fun _ => rfl

end Runs

/-! ## Preparation -/

/-- The settings that a path to their file leads to. -/
def settingsAt (files : FileTree) : Option String → Except Fault Config
  | none => .error .missingPath
  | some path => (Config.load files (.ofText path)).map fun found =>
      (found.getD {}).relativeTo (Path.ofText path).parent

/-- The merged declarations that some paths lead to. -/
def declarationsAt (files : FileTree) (paths : List String) : Except Fault TypeMap := do
  let documents ← (loadPaths files paths none).result
  (merge documents).result.mapError fun e => .generation (.synthesis e)

/-- What a command begins with: the settings in force, and the declarations they name. -/
def prepare (configPath : Option String) (s : Selection) (schemaPath : String) :
    Action (Config × TypeMap) := do
  let c ← settings configPath s schemaPath
  let types ← declarations c
  return (c, types)

/-- What the preparation of a command gives. -/
def prepared (files : FileTree) (configPath : Option String) (s : Selection)
    (schemaPath : String) : Except Fault (Config × TypeMap) := do
  let c ← (settingsAt files configPath).map fun c => override c s schemaPath
  let types ← declarationsAt files c.types
  return (c, types)

theorem runs_settings (files : FileTree) (configPath : Option String) (s : Selection)
    (schemaPath : String) : Runs files (settings configPath s schemaPath)
      ((settingsAt files configPath).map fun c => override c s schemaPath) "" := by
  rcases configPath with _ | path
  · exact (Runs.throw _).bind_error _
  · refine (Runs.pure (Path.ofText path)).silent_bind (Runs.get_bind fun p hp => ?_)
    subst hp
    rw [settingsAt]
    rcases h : Config.load p.files (.ofText path) with e | found
    · exact (Runs.perform rfl).bind_error _
    · have hload : Runs p.files (perform (.ofExcept (.ok found))) (.ok found) "" :=
        Runs.perform rfl
      have hthreshold : ∀ threshold : LogLevel,
          Runs p.files (modify fun p => { p with threshold }) (.ok ()) "" :=
        fun threshold => Runs.update (fun _ => rfl) fun _ => String.append_empty.symm
      exact hload.silent_bind ((hthreshold _).silent_bind (Runs.pure _))

theorem runs_declarations (files : FileTree) (c : Config) :
    Runs files (declarations c) (declarationsAt files c.types) "" := by
  refine Runs.get_bind fun p hp => ?_
  rw [hp]
  exact (Runs.perform rfl).silent_seq fun documents => Runs.perform rfl

theorem runs_prepare (files : FileTree) (configPath : Option String) (s : Selection)
    (schemaPath : String) :
    Runs files (prepare configPath s schemaPath) (prepared files configPath s schemaPath) "" :=
  (runs_settings files configPath s schemaPath).silent_seq fun c =>
    (runs_declarations files c).silent_seq fun types => Runs.pure (c, types)

theorem prepared_eq_ok {configPath : Option String} {s : Selection} {c : Config} {types : TypeMap}
    (hc : settingsAt files configPath = .ok c)
    (htypes : declarationsAt files (override c s "").types = .ok types) (schemaPath : String) :
    prepared files configPath s schemaPath = .ok (override c s schemaPath, types) := by
  have htypes' : declarationsAt files (override c s schemaPath).types = .ok types := htypes
  simp [prepared, hc, Except.map, bind, Except.bind, htypes', pure, Except.pure]

theorem prepared_eq_error {configPath : Option String} {s : Selection} {c : Config} {e : Fault}
    (hc : settingsAt files configPath = .ok c)
    (htypes : declarationsAt files (override c s "").types = .error e) (schemaPath : String) :
    prepared files configPath s schemaPath = .error e := by
  have htypes' : declarationsAt files (override c s schemaPath).types = .error e := htypes
  simp [prepared, hc, Except.map, bind, Except.bind, htypes']

/-- A preparation fails or succeeds, wherever the schema is to go. -/
theorem prepared_cases (files : FileTree) (configPath : Option String) (s : Selection) :
    (∃ e, ∀ schemaPath, prepared files configPath s schemaPath = .error e) ∨
      ∃ c paths types, declarationsAt files paths = .ok types ∧
        ∀ schemaPath, prepared files configPath s schemaPath =
          .ok (override c s schemaPath, types) := by
  rcases hc : settingsAt files configPath with e | c
  · refine .inl ⟨e, fun schemaPath => ?_⟩
    rw [prepared, hc]
    rfl
  · rcases htypes : declarationsAt files (override c s "").types with e | types
    · exact .inl ⟨e, prepared_eq_error hc htypes⟩
    · exact .inr ⟨c, _, types, htypes, prepared_eq_ok hc htypes⟩

section Next

variable {configPath : Option String} {s : Selection} {schemaPath : String}
  (next : Config → TypeMap → Action α)

theorem prepare_bind : (settings configPath s schemaPath >>= fun c => declarations c >>= next c) =
    prepare configPath s schemaPath >>= fun x => next x.1 x.2 := by
  simp [prepare]

/-- A fault of its preparation is a fault of a command. -/
theorem Runs.of_unprepared {e : Fault} (h : prepared files configPath s schemaPath = .error e) :
    Runs files (settings configPath s schemaPath >>= fun c => declarations c >>= next c)
      (.error e) "" := by
  have hprepare := runs_prepare files configPath s schemaPath
  rw [h] at hprepare
  rw [prepare_bind]
  exact hprepare.bind_error _

/-- Once it is prepared, a command goes on with the settings and the declarations. -/
theorem Runs.of_prepared {c : Config} {types : TypeMap} {r : Except Fault α} {text : String}
    (h : prepared files configPath s schemaPath = .ok (c, types))
    (hnext : Runs files (next c types) r text) :
    Runs files (settings configPath s schemaPath >>= fun c => declarations c >>= next c)
      r text := by
  have hprepare := runs_prepare files configPath s schemaPath
  rw [h] at hprepare
  rw [prepare_bind]
  exact hprepare.silent_bind hnext

end Next

end Action

/-! ## Endings -/

/-- How a run ends whose command comes to the result. -/
def endingOf : Except Fault Nat → Except Fault Nat
  | .ok code => .ok code
  | .error e => if e.isReported then .ok 1 else .error e

/-- Reporting a fault changes no file and no output. -/
theorem execute_of_run {files : FileTree} {configPath : Option String} {c : Command}
    {r : Except Fault Nat} {p : Progress}
    (h : (ExceptT.run (Action.command configPath c)).run { files } = (r, p)) :
    (execute configPath c files).ending = endingOf r ∧
      (execute configPath c files).progress.files = p.files ∧
      (execute configPath c files).progress.output = p.output := by
  rw [execute, h]
  rcases r with e | code
  · by_cases hreported : e.isReported = true
    · simp only [report, endingOf, if_pos hreported, true_and]
      exact ⟨rfl, rfl⟩
    · simp only [report, endingOf, if_neg hreported, and_self]
  · exact ⟨rfl, rfl, rfl⟩

theorem execute_of_runs {files : FileTree} {configPath : Option String} {c : Command}
    {r : Except Fault Nat} {text : String}
    (h : Action.Runs files (Action.command configPath c) r text) :
    (execute configPath c files).ending = endingOf r ∧
      (execute configPath c files).progress.output = text := by
  obtain ⟨p, hrun, -, houtput⟩ := h { files } rfl
  obtain ⟨hending, -, htext⟩ := execute_of_run hrun
  exact ⟨hending, htext.trans (houtput.trans String.empty_append)⟩

theorem run_of_request {words : List String} {configPath : Option String} {c : Command}
    (h : request words = .ok (.run configPath c)) (files : FileTree) :
    run words files = execute configPath c files := by
  rw [run, h]

/-! ## Requests -/

theorem readMarked_command {κ : Type} (switches : List (Switch κ)) (word : String)
    (rest : List (Marked κ)) : readMarked switches true ((word, .plain) :: rest) =
      { events := [.command word (rest.map Prod.fst)] } := by
  rw [readMarked]
  rfl

/-- What stands behind the name of a command is read as that command. -/
theorem request_of_command {words : List String} {name : String}
    {rest : List (Marked ProgramKey)} {form : CommandForm}
    (hmark : mark programSwitches words = .ok ((name, .plain) :: rest))
    (hform : commandForms.find? (fun form => form.name == name) = some form) :
    request words = readCommand form (some defaultConfigPath) [] (rest.map Prod.fst) := by
  rw [request, CommandLine.read, hmark]
  simp only [readMarked_command, ofEvents, hform]

theorem mark_cons {κ : Type} {switches : List (Switch κ)} {word : String} {m : Mark κ}
    {rest : List String} {marked : List (Marked κ)} (hword : classify switches word = .ok m)
    (hdivider : word ≠ "--") (hrest : mark switches rest = .ok marked) :
    mark switches (word :: rest) = .ok ((word, m) :: marked) := by
  rw [mark, if_neg hdivider, hword, hrest]
  rfl

/-- The name of a command alone asks for the command with nothing chosen. -/
theorem request_name {form : CommandForm} (h : form ∈ commandForms) :
    request [form.name] = .ok (.run (some defaultConfigPath) (form.command {})) := by
  obtain ⟨hplain, hdivider, hform⟩ : classify programSwitches form.name = .ok .plain ∧
      form.name ≠ "--" ∧ commandForms.find? (fun f => f.name == form.name) = some form := by
    simp only [commandForms, List.mem_cons, List.not_mem_nil, or_false] at h
    rcases h with rfl | rfl | rfl <;> exact ⟨rfl, by decide, rfl⟩
  rw [request_of_command (mark_cons hplain hdivider rfl) hform]
  simp only [List.map_nil, readCommand, CommandLine.read, mark, readMarked]
  rfl

theorem readCommand_generate_to (configPath : Option String) {given : String}
    (hplain : classify generateSwitches given = .ok .plain) (hdivider : given ≠ "--") :
    readCommand ⟨"generate", .generate, generateSwitches,
        fun c => .generate c.selection c.schemaPath⟩ configPath [] ["-s", given] =
      .ok (.run configPath (.generate {} given)) := by
  have hmark : mark generateSwitches ["-s", given] =
    .ok [("-s", .named ⟨⟨.schema, ["--schema", "-s"], .one⟩, "-s", none⟩), (given, .plain)] :=
    mark_cons rfl (by decide) (mark_cons hplain hdivider rfl)
  simp only [readCommand, CommandLine.read, hmark]
  simp [readMarked, take, takeFollowing, takeWords, Mark.isPlain, Except.map, Reading.after]
  rfl

/-- A word that is plain for the program and for the command alike is where the schema goes. -/
theorem request_generate_to {given : String}
    (hprogram : classify programSwitches given = .ok .plain)
    (hgenerate : classify generateSwitches given = .ok .plain) (hdivider : given ≠ "--") :
    request ["generate", "-s", given] =
      .ok (.run (some defaultConfigPath) (.generate {} given)) := by
  have hmark : mark programSwitches ["generate", "-s", given] =
    .ok [("generate", .plain), ("-s", .unknown), (given, .plain)] :=
    mark_cons rfl (by decide) (mark_cons rfl (by decide) (mark_cons hprogram hdivider rfl))
  rw [request_of_command hmark rfl]
  exact readCommand_generate_to _ hgenerate hdivider

end CrudSchema.CommandLine
