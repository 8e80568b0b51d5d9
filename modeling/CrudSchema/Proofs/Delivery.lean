import CrudSchema.Proofs.Collection
import CrudSchema.Proofs.Writing

/-!
# How a schema gets into its file

**Delivery** (`FileTree.Delivered`). The directories on the way to a file are made, then the file is
written. This keeps a tree sound (`Delivered.sound`), and done again it changes nothing
(`Delivered.again`).

**Actions on files** (`Action.run_change`, `Action.run_makeDirectories`). What they come to, what
files they leave and that they write no output.

Main result: `Action.run_generate`, how generating ends that gets as far as writing a file.
-/

namespace CrudSchema

namespace FileTree

variable {t t' : FileTree} {p : Path} {location : Location} {found : Option Entry} {e : Entry}
  {bytes : ByteArray}

/-! ## Sound trees -/

/-- What is not found to be a directory has a name and stands in a directory. -/
theorem Sound.exists_of_follow (h : t.Sound) {here : Location} {names : List String}
    (hhere : t.entry? here = some .directory)
    (hfollow : t.follow here names = .ok (location, found)) (hfound : found ≠ some .directory) :
    ∃ directory, ∃ name ∈ names, t.entry? directory = some .directory ∧ name ≠ ".." ∧
      ¬ longestName < name.utf8ByteSize ∧ location = directory ++ [name] := by
  fun_induction follow t here names with
  | case1 here =>
    cases hfollow
    exact absurd rfl hfound
  | case3 here name hname next =>
    simp only [Except.ok.injEq, Prod.mk.injEq] at hfollow
    obtain ⟨rfl, rfl⟩ := hfollow
    have honward : name ≠ ".." := by
      rintro rfl
      refine hfound ?_
      have hup : next = here.dropLast := if_pos rfl
      rw [hup]
      by_cases hroot : here = []
      · rw [hroot]
        rfl
      · refine h.housed _ (OrderedMap.mem_keys_of_mem_entries ((entry?_eq_some_iff hroot).1 hhere))
    exact ⟨here, name, List.mem_singleton_self _, hhere, honward, hname, if_neg honward⟩
  | case4 here name hname next rest _ hdirectory ih =>
    obtain ⟨directory, name', hmem, hrest⟩ := ih hdirectory hfollow
    exact ⟨directory, name', List.mem_cons_of_mem _ hmem, hrest⟩
  | case2 | case5 | case6 => cases hfollow

theorem Sound.entry?_start (h : t.Sound) (p : Path) : t.entry? (t.start p) = some .directory := by
  rw [start]
  split
  · exact h.current
  · rfl

/-- **A tree stays sound where something is put that is not in place of a directory.** -/
theorem Sound.put (h : t.Sound) (hlocate : t.locate p = .ok (location, found))
    (hfound : found ≠ some .directory) (e : Entry) : (t.put location e).Sound := by
  have hentry : t.entry? location = found := entry?_of_follow (follow_of_locate hlocate) hfound
  obtain ⟨directory, name, hmem, hdirectory, honward, hshort, rfl⟩ :=
    h.exists_of_follow (h.entry?_start p) (follow_of_locate hlocate) hfound
  have hname : IsName name :=
    ⟨p.plain name hmem, honward, (locate_eq_ok_iff.1 hlocate).1 name hmem, Nat.not_lt.1 hshort⟩
  have hput : ∀ l, t.entry? l = some .directory →
      FileTree.entry? (t.put (directory ++ [name]) e) l = some .directory :=
    entry?_put_directory (hentry ▸ hfound) e
  have hkeys : ∀ l ∈ (t.put (directory ++ [name]) e).entries.keys,
      l ∈ t.entries.keys ∨ l = directory ++ [name] := by
    intro l hl
    rw [FileTree.put, OrderedMap.keys_set] at hl
    split at hl
    · exact .inl hl
    · simpa using hl
  constructor
  · intro l hl
    rcases hkeys l hl with hl | rfl
    · exact h.placed l hl
    · simp
  · intro l hl n hn
    rcases hkeys l hl with hl | rfl
    · exact h.named l hl n hn
    · rcases List.mem_append.1 hn with hn | hn
      · have hne : directory ≠ [] := List.ne_nil_of_mem hn
        have hkey := OrderedMap.mem_keys_of_mem_entries ((entry?_eq_some_iff hne).1 hdirectory)
        exact h.named _ hkey n hn
      · exact List.mem_singleton.1 hn ▸ hname
  · intro l hl
    rcases hkeys l hl with hl | rfl
    · exact hput _ (h.housed l hl)
    · rw [List.dropLast_concat]
      exact hput _ hdirectory
  · exact hput _ h.current

theorem Sound.makeDirectory (h : t.Sound) (hmake : t.makeDirectory p = .ok t') : t'.Sound := by
  rw [FileTree.makeDirectory] at hmake
  split at hmake
  next hlocate =>
    cases hmake
    exact h.put hlocate (Option.some_ne_none _).symm _
  · cases hmake
  · cases hmake

theorem Sound.ensureDirectory (h : t.Sound) (hmake : t.ensureDirectory p = .ok t') : t'.Sound := by
  rw [FileTree.ensureDirectory] at hmake
  split at hmake
  next hmade =>
    cases hmake
    exact h.makeDirectory hmade
  · split at hmake
    · cases hmake
      exact h
    · cases hmake

theorem Sound.makeDirectories (h : t.Sound) (p : Path) : (t.makeDirectories p).2.Sound := by
  fun_induction FileTree.makeDirectories t p with
  | case1 p t' hmade => exact h.ensureDirectory hmade
  | case2 p e _ _ e' t' hparent ih =>
    rw [hparent] at ih
    exact ih
  | case3 p e _ _ _ t' hparent t'' hmade ih =>
    rw [hparent] at ih
    exact ih.ensureDirectory hmade
  | case4 p e _ _ _ t' hparent _ _ ih =>
    rw [hparent] at ih
    exact ih
  | case5 p e => exact h

theorem Sound.write (h : t.Sound) (hwrite : t.write p bytes = .ok t') : t'.Sound := by
  obtain ⟨found, hlocate, hfound, rfl⟩ := put_of_write hwrite
  exact h.put hlocate hfound _

/-! ## Delivery -/

/-- The directories on the way to a file are made, then the file is written. -/
def Delivered (t : FileTree) (p : Path) (bytes : ByteArray) (t' : FileTree) : Prop :=
  ∃ made, t.makeDirectories p.parent = (.ok (), made) ∧ made.write p bytes = .ok t'

/-- A new file in a directory that is there can be delivered. -/
theorem delivered_of_locate {directory : Location}
    (hparent : t.locate p.parent = .ok (directory, some .directory))
    (hfree : t.locate p = .ok (location, none)) (bytes : ByteArray) :
    t.Delivered p bytes (t.put location (.file bytes)) := by
  refine ⟨t, makeDirectories_of_locate hparent, ?_⟩
  rw [FileTree.write, hfree]

theorem Delivered.receives (h : t.Delivered p bytes t') : t.Receives t' p bytes := by
  obtain ⟨made, hmade, hwrite⟩ := h
  have hfurnished := t.furnished_makeDirectories p.parent
  rw [hmade] at hfurnished
  exact receives_of_write hfurnished hwrite

theorem Delivered.sound (h : t.Delivered p bytes t') (ht : t.Sound) : t'.Sound := by
  obtain ⟨made, hmade, hwrite⟩ := h
  have hsound := ht.makeDirectories p.parent
  rw [hmade] at hsound
  exact hsound.write hwrite

/-! ### Once more -/

theorem put_self (hne : location ≠ []) (hentry : t.entry? location = some e) :
    t.put location e = t := by
  have hget : t.entries.get? location = some e := by
    rw [FileTree.entry?, if_neg (by simpa using hne)] at hentry
    exact hentry
  have hkey : location ∈ t.entries.keys :=
    OrderedMap.mem_keys_of_mem_entries (OrderedMap.get?_eq_some_iff.1 hget)
  have hset : t.entries.set location e = t.entries := by
    refine OrderedMap.eq_of_get? (by rw [OrderedMap.keys_set, if_pos hkey]) fun key => ?_
    rw [OrderedMap.get?_set]
    split
    next hkey => rw [hkey, hget]
    next => rfl
  rw [put, hset]

/-- What is followed to a file is followed over directories. -/
theorem follow_dropLast {here : Location} {names : List String} (hne : names ≠ [])
    (h : t.follow here names = .ok (location, found)) :
    ∃ directory, t.follow here names.dropLast = .ok (directory, some .directory) := by
  fun_induction follow t here names with
  | case1 here => exact absurd rfl hne
  | case3 here name hname next => exact ⟨here, by rw [List.dropLast_singleton, follow]⟩
  | case4 here name hname next rest hrest hdirectory ih =>
    have hrest' : rest ≠ [] := hrest
    obtain ⟨directory, hfollow⟩ := ih hrest' h
    rw [List.dropLast_cons_of_ne_nil hrest']
    by_cases hlast : rest.dropLast = []
    · rw [hlast, follow, if_neg hname]
      exact ⟨next, by simp only [hdirectory, next]⟩
    · exact ⟨directory, by rw [follow_into hname hlast hdirectory, hfollow]⟩
  | case2 | case5 | case6 => cases h

theorem locate_parent (h : t.locate p = .ok (location, some (.file bytes))) :
    ∃ directory, t.locate p.parent = .ok (directory, some .directory) := by
  obtain ⟨hvisible, hlong, hfollow⟩ := locate_eq_ok_iff.1 h
  have hne : p.parts ≠ [] := names_ne_nil_of_follow hfollow nofun
  obtain ⟨directory, hparent⟩ := follow_dropLast hne hfollow
  refine ⟨directory, locate_eq_ok_iff.2 ⟨?_, ?_, hparent⟩⟩
  · intro name hname
    exact hvisible name (List.dropLast_subset _ hname)
  · have hsize := Path.utf8ByteSize_parent_le hne
    simp only [isOverlong, decide_eq_false_iff_not] at hlong ⊢
    omega

theorem locate_of_read (h : t.read p = .ok bytes) :
    ∃ location, t.locate p = .ok (location, some (.file bytes)) := by
  rw [FileTree.read] at h
  split at h
  next location content hlocate =>
    cases h
    exact ⟨location, hlocate⟩
  · cases h
  · cases h
  · cases h

/-- **A delivery that is done again changes nothing.** -/
theorem Delivered.again (h : t.Delivered p bytes t') : t'.Delivered p bytes t' := by
  obtain ⟨location, hlocate⟩ := locate_of_read h.receives.read
  obtain ⟨directory, hparent⟩ := locate_parent hlocate
  refine ⟨t', makeDirectories_of_locate hparent, ?_⟩
  have hentry := entry?_of_locate hlocate nofun
  have hroot : t'.locationOf p ≠ [] :=
    ne_nil_of_not_directory (t := t') (by rw [hentry]; nofun)
  rw [← location_of_locate hlocate] at hentry hroot
  rw [write, hlocate]
  exact congrArg Except.ok (put_self hroot hentry)

theorem Delivered.unique {t₁ t₂ : FileTree} (h₁ : t.Delivered p bytes t₁)
    (h₂ : t.Delivered p bytes t₂) : t₁ = t₂ := by
  obtain ⟨made₁, hmade₁, hwrite₁⟩ := h₁
  obtain ⟨made₂, hmade₂, hwrite₂⟩ := h₂
  obtain ⟨-, rfl⟩ := Prod.mk.inj (hmade₁.symm.trans hmade₂)
  exact Except.ok.inj (hwrite₁.symm.trans hwrite₂)

theorem Delivered.not_undelivered (h : t.Delivered p bytes t') (e : FileError) (t'' : FileTree) :
    ¬ CommandLine.Action.Undelivered t p bytes e t'' := by
  obtain ⟨made, hmade, hwrite⟩ := h
  rintro ⟨made', hmade', hfault⟩
  obtain ⟨rfl, rfl⟩ := Prod.mk.inj (hmade.symm.trans hmade')
  rcases hfault with hfault | hfault
  · cases hfault
  · rw [hwrite] at hfault
    cases hfault

end FileTree

namespace CommandLine

namespace Action

variable {α : Type} {files : FileTree}

theorem run_perform (run : Logged Fault α) (p : Progress) : ∃ p' : Progress,
    (ExceptT.run (perform run)).run p = (run.result, p') ∧ p'.files = p.files ∧
      p'.output = p.output := by
  have hruns : Runs p.files (perform run) run.result "" := Runs.perform rfl
  obtain ⟨p', hrun, hfiles, houtput⟩ := hruns p rfl
  exact ⟨p', hrun, hfiles, houtput.trans String.append_empty⟩

theorem run_get_bind (f : Progress → Action α) (p : Progress) :
    (ExceptT.run (get >>= f)).run p = (ExceptT.run (f p)).run p := rfl

/-- Files are replaced, or kept if they cannot be. -/
theorem run_change (f : FileTree → Except Fault FileTree) (p : Progress) : ∃ p' : Progress,
    (ExceptT.run (change f)).run p = ((f p.files).map fun _ => (), p') ∧
      p'.files = (f p.files).toOption.getD p.files ∧ p'.output = p.output := by
  obtain ⟨p', hrun, hfiles, houtput⟩ := run_perform (.ofExcept (f p.files)) p
  rw [change, run_get_bind]
  rcases h : f p.files with e | t
  · rw [h] at hrun
    exact ⟨p', run_bind_error hrun _, hfiles, houtput⟩
  · rw [h] at hrun
    exact ⟨{ p' with files := t }, (run_bind_ok hrun _).trans rfl, rfl, houtput⟩

/-- Directories that were made are kept, even if not all of them could be. -/
theorem run_makeDirectories (path : Path) (p : Progress) : ∃ p' : Progress,
    (ExceptT.run (makeDirectories path)).run p =
        ((p.files.makeDirectories path).1.mapError .file, p') ∧
      p'.files = (p.files.makeDirectories path).2 ∧ p'.output = p.output := by
  rw [makeDirectories, run_get_bind]
  exact run_perform _ _

/-- The line that says what was generated. -/
def generatedLine (path : Path) (count : Nat) : String :=
  "Generated " ++ path.text ++ " (" ++ toString count ++ " types)" ++ "\n"

/-- **A schema for a file is delivered and told of, or there is a fault and nothing is told.** -/
theorem run_deliver {c : Config} (hpath : c.schemaPath ≠ Config.standardOutput) (text : String)
    (count : Nat) (p : Progress) : ∃ r p', (ExceptT.run (deliver c text count)).run p = (r, p') ∧
      ((∃ e, r = .error (.file e) ∧
          Undelivered p.files (.ofText c.schemaPath) text.toUTF8 e p'.files ∧
          p'.output = p.output) ∨
        r = .ok () ∧ p.files.Delivered (.ofText c.schemaPath) text.toUTF8 p'.files ∧
          p'.output = p.output ++ generatedLine (.ofText c.schemaPath) count) := by
  obtain ⟨p₁, hrun₁, hfiles₁, houtput₁⟩ :=
    run_makeDirectories (Path.ofText c.schemaPath).parent p
  rw [deliver, if_neg hpath]
  rcases hmade : p.files.makeDirectories (Path.ofText c.schemaPath).parent with ⟨e | u, made⟩
  · rw [hmade] at hrun₁ hfiles₁
    refine ⟨_, p₁, run_bind_error hrun₁ _, .inl ⟨e, rfl, ⟨_, ?_, .inl rfl⟩, houtput₁⟩⟩
    rw [hmade, hfiles₁]
  · rw [hmade] at hrun₁ hfiles₁
    rw [run_bind_ok hrun₁]
    obtain ⟨p₂, hrun₂, hfiles₂, houtput₂⟩ := run_change
      (fun files => (files.write (.ofText c.schemaPath) text.toUTF8).mapError .file) p₁
    rw [hfiles₁] at hrun₂ hfiles₂
    rcases hwrite : made.write (.ofText c.schemaPath) text.toUTF8 with e | t
    · rw [hwrite] at hrun₂ hfiles₂
      have hfiles : p₂.files = made := hfiles₂
      refine ⟨_, p₂, run_bind_error hrun₂ _, .inl ⟨e, rfl, ⟨.ok u, ?_, .inr ?_⟩,
        houtput₂.trans houtput₁⟩⟩
      · rw [hmade, hfiles]
      · rw [hfiles, hwrite]
    · rw [hwrite] at hrun₂ hfiles₂
      have hfiles : p₂.files = t := hfiles₂
      refine ⟨_, _, (run_bind_ok hrun₂ _).trans rfl, .inr ⟨rfl, ⟨made, hmade, ?_⟩, ?_⟩⟩
      · exact hwrite.trans (congrArg Except.ok hfiles.symm)
      · rw [← houtput₁, ← houtput₂]
        rfl

/-- **Generating that gets as far as writing a file delivers the schema or fails to.** -/
theorem run_generate {configPath : Option String} {s : Selection} {given : String} {c : Config}
    {types : TypeMap} {api : Api} {schema : Schema} (hpath : c.schemaPath ≠ Config.standardOutput)
    (hprepared : prepared files configPath s given = .ok (c, types))
    (hassemble : (assembleTypes c.synthesisOptions types).result = .ok (api, schema))
    {text : String}
    (htext : schema.print (if c.header then Schema.generatedHeader else "") = text) :
    ∃ r p, (ExceptT.run (generate configPath s given)).run { files } = (r, p) ∧
      ((∃ e, r = .error (.file e) ∧
          Undelivered files (.ofText c.schemaPath) text.toUTF8 e p.files ∧ p.output = "") ∨
        r = .ok 0 ∧ files.Delivered (.ofText c.schemaPath) text.toUTF8 p.files ∧
          p.output = generatedLine (.ofText c.schemaPath) api.objects.size) := by
  subst htext
  obtain ⟨p₀, hrun₀, hfiles₀, houtput₀⟩ := runs_prepare files configPath s given { files } rfl
  rw [hprepared] at hrun₀
  obtain ⟨p₁, hrun₁, hfiles₁, houtput₁⟩ := run_perform
    ((assembleTypes c.synthesisOptions types).mapError .generation) p₀
  rw [Logged.mapError_of_ok Fault.generation hassemble] at hrun₁
  obtain ⟨r, p₂, hrun₂, hcases⟩ := run_deliver hpath
    (schema.print (if c.header then Schema.generatedHeader else "")) api.objects.size p₁
  rw [hfiles₁, hfiles₀, houtput₁, houtput₀, String.append_empty] at hcases
  have hrun : (ExceptT.run (generate configPath s given)).run { files } =
      (r.map fun _ => 0, p₂) := by
    rw [generate, prepare_bind, run_bind_ok hrun₀, run_bind_ok hrun₁]
    rcases r with e | u
    · exact run_bind_error hrun₂ _
    · exact run_bind_ok hrun₂ _
  rcases hcases with ⟨e, rfl, hcase⟩ | ⟨rfl, hdelivered, houtput⟩
  · exact ⟨_, p₂, hrun, .inl ⟨e, rfl, hcase⟩⟩
  · exact ⟨_, p₂, hrun, .inr ⟨rfl, hdelivered, houtput.trans String.empty_append⟩⟩

end Action

end CommandLine

end CrudSchema
