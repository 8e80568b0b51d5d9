import CrudSchema.Proofs.Saving

/-!
# Starting a project

**Beside a file** (`FileTree.locate_beside`). Where a path leads to a file, another name in the same
directory can be looked up, unless that makes the path too long.

**The two steps** (`Action.Writable`, `Action.Obstructed`). The settings file is written if nothing
is at its place, or a file that may be written over. After that the directory beside it is made, or
kept, unless its path is too long or a file has its place; that may be the settings file itself.

**Ends** (`Outcome.Starts`). Nothing takes the first step back if the second one fails. So a project
is started, or all is kept, or there are settings without a directory; which of these it is can be
told from the files that were there before.

Main result: `run_starts`.
-/

namespace CrudSchema

namespace FileTree

variable {t : FileTree} {p q : Path} {location : Location} {found : Option Entry}

/-! ## Beside a file -/

/-- What stands beside a file is found under its own name. -/
theorem locate_beside {name : String} (hp : t.locate p = .ok (location, found))
    (hfound : found ≠ some .directory) (hanchor : q.anchor = p.anchor)
    (hparts : q.parts = p.parts.dropLast ++ [name]) (hname : IsName name)
    (hlong : isOverlong q = false) :
    t.locate q = .ok (t.locationOf q, t.entry? (t.locationOf q)) := by
  obtain ⟨hvisible, -, hfollow⟩ := locate_eq_ok_iff.1 hp
  obtain ⟨directory, hdirectory⟩ :=
    follow_dropLast (names_ne_nil_of_follow hfollow hfound) hfollow
  have hstart : t.start q = t.start p := by rw [start, start, hanchor]
  have hnext : t.follow (t.start q) q.parts =
      .ok (neighbour directory name, t.entry? (neighbour directory name)) := by
    rw [hstart, hparts, follow_append hdirectory (by simp), follow,
      if_neg (Nat.not_lt.2 hname.short)]
  have hplace : neighbour directory name = t.locationOf q := location_of_follow hnext
  rw [hplace] at hnext
  refine locate_eq_ok_iff.2 ⟨?_, hlong, hnext⟩
  intro part hpart
  rw [hparts, List.mem_append, List.mem_singleton] at hpart
  rcases hpart with hpart | rfl
  · exact hvisible part (List.dropLast_subset _ hpart)
  · exact hname.visible

theorem exists_locate_error (h : isOverlong p = true) : ∃ cause, t.locate p = .error cause := by
  rcases hlocate : t.locate p with cause | ⟨location, found⟩
  · exact ⟨cause, rfl⟩
  · rw [isOverlong_of_locate hlocate] at h
    cases h

end FileTree

/-- What is loaded depends on what the path leads to alone. -/
theorem Config.load_congr {t t' : FileTree} {p : Path} (h : t'.locate p = t.locate p) :
    Config.load t' p = Config.load t p := by
  simp only [Config.load, FileTree.exists?, FileTree.find?, FileTree.readText, FileTree.read, h]

namespace CommandLine

open FileTree

/-! ## The two steps -/

namespace Action

variable {files t t' : FileTree} {p : Path} {force : Bool}

/-- The bytes of a settings file that sets the defaults. -/
def defaultBytes : ByteArray := ({} : Config).print.toUTF8

/-- Nothing is at the place of the settings file, or a file that may be written over. -/
def Writable (files : FileTree) (p : Path) (force : Bool) : Prop :=
  ∃ location found, files.locate p = .ok (location, found) ∧ found ≠ some .directory ∧
    (found ≠ none → force = true)

/-- There can be no directory for declarations beside a settings file: its path is too long, or it
is that of a file, perhaps of the settings file itself. -/
def Obstructed (files : FileTree) (p : Path) : Prop :=
  isOverlong (typesDirectory p) = true ∨
    files.locationOf (typesDirectory p) = files.locationOf p ∨
    ∃ bytes, files.entry? (files.locationOf (typesDirectory p)) = some (.file bytes)

theorem typesDirectory_parts (p : Path) : (typesDirectory p).anchor = p.anchor ∧
    (typesDirectory p).parts = p.parts.dropLast ++ ["types"] := by
  obtain ⟨hanchor, hparts⟩ := Path.ofText_of_isPart (by decide : Path.IsPart "types")
  have hname : ({} : Config).types.headD "" = "types" := rfl
  rw [typesDirectory, hname, Path.join]
  simp only [hanchor, hparts]
  exact ⟨rfl, rfl⟩

/-- The default version has few digits. -/
theorem isWritable_default : Notation.isWritable ({} : Config).version = true := by
  have hone : ∀ digits ≠ 0, 1 < Nat.pow 10 digits :=
    fun digits h => Nat.one_lt_pow h (by decide)
  exact decide_eq_true (hone Notation.mostDigits (by decide))

theorem save_default (files : FileTree) (p : Path) :
    ({} : Config).save files p = (files.write p defaultBytes).mapError .file :=
  if_pos isWritable_default

theorem Saves.write (h : Saves files p force t) : files.write p defaultBytes = .ok t :=
  Except.ok_of_mapError (save_default files p ▸ h.saved)

/-- Settings that are written are all that changes. -/
theorem Saves.eq_put (h : Saves files p force t) :
    t = files.put (files.locationOf p) (.file defaultBytes) := by
  obtain ⟨found, -, -, heq⟩ := put_of_write h.write
  exact heq

theorem Saves.writable (h : Saves files p force t) : Writable files p force := by
  obtain ⟨found, hlocate, hfound, -⟩ := put_of_write h.write
  obtain ⟨there, hexists, hforce⟩ := h.allowed
  refine ⟨_, found, hlocate, hfound, fun hsome => hforce ?_⟩
  rw [FileTree.exists?, FileTree.find?, hlocate] at hexists
  cases found with
  | none => exact absurd rfl hsome
  | some e =>
    cases hexists
    rfl

/-- Where the settings file can be written it is. -/
theorem not_writable_of_saves (h : ∀ t, ¬ Saves files p force t) : ¬ Writable files p force := by
  rintro ⟨location, found, hlocate, hfound, hforce⟩
  refine h (files.put location (.file defaultBytes)) ⟨⟨found.isSome, ?_, ?_⟩, ?_⟩
  · rw [FileTree.exists?, FileTree.find?, hlocate]
    cases found <;> rfl
  · intro hsome
    exact hforce (Option.isSome_iff_ne_none.1 hsome)
  · rw [save_default, FileTree.write, hlocate]
    rcases found with _ | _ | _
    · rfl
    · rfl
    · exact absurd rfl hfound

theorem Saves.locationOf_eq (h : Saves files p force t) (q : Path) :
    t.locationOf q = files.locationOf q := by
  rw [h.eq_put]
  rfl

/-- The settings file is found where it was written. -/
theorem Saves.locate (h : Saves files p force t) :
    t.locate p = .ok (files.locationOf p, some (.file defaultBytes)) := by
  obtain ⟨found, hlocate, hfound, rfl⟩ := put_of_write h.write
  exact locate_put _ hlocate hfound

theorem Saves.entry?_eq (h : Saves files p force t) (l : Location) :
    t.entry? l = if l = files.locationOf p then some (.file defaultBytes)
      else files.entry? l := by
  obtain ⟨found, hlocate, hfound, rfl⟩ := put_of_write h.write
  have hentry := entry?_of_locate hlocate hfound
  exact entry?_put (ne_nil_of_not_directory (hentry ▸ hfound)) _ l

theorem Saves.load (h : Saves files p force t) : Config.load t p = .ok (some {}) :=
  Config.load_of_write (List.cons_ne_nil _ _) isWritable_default h.write

/-- **The second step fails just where it is obstructed.** -/
theorem Saves.ensureDirectory_error_iff (h : Saves files p force t) :
    (∃ e, t.ensureDirectory (typesDirectory p) = .error e) ↔ Obstructed files p := by
  obtain ⟨hanchor, hparts⟩ := typesDirectory_parts p
  by_cases hlong : isOverlong (typesDirectory p) = true
  · obtain ⟨cause, hlocate⟩ := exists_locate_error (t := t) hlong
    exact iff_of_true ⟨_, ensureDirectory_of_locate_error hlocate⟩ (.inl hlong)
  have hlocate := locate_beside h.locate nofun hanchor hparts (by decide) (by simpa using hlong)
  rw [h.locationOf_eq, h.entry?_eq] at hlocate
  rw [Obstructed]
  by_cases hsame : files.locationOf (typesDirectory p) = files.locationOf p
  · rw [if_pos hsame] at hlocate
    exact iff_of_true ⟨_, ensureDirectory_of_file hlocate⟩ (.inr (.inl hsame))
  rw [if_neg hsame] at hlocate
  rcases hthere : files.entry? (files.locationOf (typesDirectory p)) with _ | bytes | _
  · rw [hthere] at hlocate
    simp [ensureDirectory_of_missing hlocate, hlong, hsame]
  · rw [hthere] at hlocate
    exact iff_of_true ⟨_, ensureDirectory_of_file hlocate⟩ (.inr (.inr ⟨bytes, rfl⟩))
  · rw [hthere] at hlocate
    simp [ensureDirectory_of_directory hlocate, hlong, hsame]

end Action

/-! ## Ends -/

/-- How a run ends that is to start a project. -/
inductive Outcome.Starts (o : Outcome) (files : FileTree) (configPath : Option String)
    (force : Bool) : Prop where
  /-- There are default settings and a directory for declarations beside them. -/
  | started {path : String} (hpath : configPath = some path)
    (hwritable : Action.Writable files (.ofText path) force)
    (hfree : ¬ Action.Obstructed files (.ofText path)) (hending : o.ending = .ok 0)
    (hload : Config.load o.progress.files (.ofText path) = .ok (some {}))
    (hdirectory : o.progress.files.LeadsToDirectory (Action.typesDirectory (.ofText path)))
    (hothers : ∀ l, l ≠ files.locationOf (.ofText path) →
      l ≠ files.locationOf (Action.typesDirectory (.ofText path)) →
      o.progress.files.entry? l = files.entry? l) : Starts o files configPath force
  /-- All is as it was. -/
  | kept (hpath : ∀ path, configPath = some path → ¬ Action.Writable files (.ofText path) force)
    (hending : o.ending = .ok 1 ∨ ∃ e, o.ending = .error e) (hfiles : o.progress.files = files) :
    Starts o files configPath force
  /-- There are default settings, but no directory, and nothing reports that. -/
  | halted {path : String} {e : FileError} (hpath : configPath = some path)
    (hwritable : Action.Writable files (.ofText path) force)
    (hobstructed : Action.Obstructed files (.ofText path))
    (hending : o.ending = .error (.file e))
    (hload : Config.load o.progress.files (.ofText path) = .ok (some {}))
    (hfiles : o.progress.files =
      files.put (files.locationOf (.ofText path)) (.file Action.defaultBytes)) :
    Starts o files configPath force

theorem execute_starts (files : FileTree) (configPath : Option String) (force : Bool) :
    (execute configPath (.init force) files).Starts files configPath force := by
  obtain ⟨r, hending, hstart⟩ :=
    execute_of_yields (c := .init force) (Action.yields_init files configPath force)
  generalize execute configPath (.init force) files = o at hending hstart ⊢
  generalize hafter : o.progress.files = after at hstart
  cases hstart with
  | present h =>
    exact .kept (fun path hpath => Action.not_writable_of_saves (h path hpath)) (.inl hending)
      hafter
  | @unwritten e h =>
    refine .kept (fun path hpath => Action.not_writable_of_saves (h path hpath)) ?_ hafter
    rw [hending, endingOf]
    by_cases hreported : e.isReported = true
    · exact .inl (if_pos hreported)
    · exact .inr ⟨e, if_neg hreported⟩
  | halted hpath hsaved hfault =>
    refine .halted hpath hsaved.writable (hsaved.ensureDirectory_error_iff.1 ⟨_, hfault⟩) hending
      ?_ ?_
    · rw [hafter]
      exact hsaved.load
    · rw [hafter]
      exact hsaved.eq_put
  | @started path t t' hpath hsaved hmade =>
    have hfurnished := furnished_ensureDirectory hmade
    refine .started hpath hsaved.writable ?_ hending ?_ ?_ ?_
    · intro hobstructed
      obtain ⟨e, hfault⟩ := hsaved.ensureDirectory_error_iff.2 hobstructed
      rw [hmade] at hfault
      cases hfault
    · have hsame := (hfurnished.locate_file hsaved.locate).trans hsaved.locate.symm
      rw [hafter, Config.load_congr hsame]
      exact hsaved.load
    · rw [hafter]
      obtain ⟨location, hlocate⟩ := locate_of_ensureDirectory hmade
      exact ⟨location, find?_of_locate hlocate⟩
    · intro l hsettings hdirectory
      rw [hafter]
      rcases hfurnished.entries l with hsame | ⟨hplace, -⟩
      · rw [hsame, hsaved.entry?_eq, if_neg hsettings]
      · exact absurd (hplace.trans (hsaved.locationOf_eq _)) hdirectory

/-- **A project is started, or all is kept, or there are settings without a directory**: the last
only where there can be no such directory. For every tree, every settings path and with or without
leave to write over a file. -/
theorem run_starts {files : FileTree} {words : List String} {configPath : Option String}
    {force : Bool} (hrequest : request words = .ok (.run configPath (.init force))) :
    (run words files).Starts files configPath force := by
  rw [run_of_request hrequest]
  exact execute_starts files configPath force

/-! ## A file in the way -/

theorem request_init : request ["init"] = .ok (.run (some defaultConfigPath) (.init false)) :=
  request_name (.head _)

/-- A file has the place of the directory for declarations. -/
def fileForTypes : FileTree := ⟨.ofList [(["types"], .file "a file".toUTF8)], []⟩

theorem fileForTypes_starts :
    request ["init"] = .ok (.run (some defaultConfigPath) (.init false)) ∧
      (run ["init"] fileForTypes).Starts fileForTypes (some defaultConfigPath) false :=
  ⟨request_init, run_starts request_init⟩

/-- There are settings then, so neither is the project started nor are the files as they were. -/
theorem fileForTypes_half_started :
    request ["init"] = .ok (.run (some defaultConfigPath) (.init false)) ∧
      ¬ ((run ["init"] fileForTypes).ending = .ok 0 ∧
            Config.load (run ["init"] fileForTypes).progress.files (.ofText defaultConfigPath) =
              .ok (some {}) ∧
            (run ["init"] fileForTypes).progress.files.LeadsToDirectory
              (Action.typesDirectory (.ofText defaultConfigPath)) ∨
          ((run ["init"] fileForTypes).ending = .ok 1 ∨
              ∃ e, (run ["init"] fileForTypes).ending = .error e) ∧
            (run ["init"] fileForTypes).progress.files = fileForTypes) := by
  have hlocate : fileForTypes.locate (.ofText defaultConfigPath) = .ok (["crudgraph.yaml"], none) :=
    Except.eq_ok_of_toOption (by decide +kernel)
  have hwritable : Action.Writable fileForTypes (.ofText defaultConfigPath) false :=
    ⟨_, _, hlocate, nofun, absurd rfl⟩
  have hobstructed : Action.Obstructed fileForTypes (.ofText defaultConfigPath) :=
    .inr (.inr ⟨"a file".toUTF8, by decide⟩)
  refine ⟨request_init, ?_⟩
  rw [run_of_request request_init]
  have hstarts := execute_starts fileForTypes (some defaultConfigPath) false
  generalize execute (some defaultConfigPath) (.init false) fileForTypes = o at hstarts ⊢
  cases hstarts with
  | started hpath _ hfree =>
    cases hpath
    exact absurd hobstructed hfree
  | kept hkept => exact absurd hwritable (hkept _ rfl)
  | halted hpath _ _ hending hload _ =>
    cases hpath
    rintro (⟨hzero, -⟩ | ⟨-, hfiles⟩)
    · rw [hending] at hzero
      cases hzero
    · rw [hfiles, Config.load, FileTree.exists?, FileTree.find?, hlocate] at hload
      cases hload

end CommandLine

end CrudSchema
