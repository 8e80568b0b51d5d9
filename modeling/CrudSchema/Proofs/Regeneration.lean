import CrudSchema.Proofs.Delivery
import CrudSchema.Proofs.LineEnds
import CrudSchema.Proofs.Merging
import Mathlib.Data.List.Infix

/-!
# Generating again

**After a delivery** (`Receives.find?`). Whatever a path led to before a file was written, it leads
there still, and to the same, unless that is the file.

**Collecting again** (`collect_after`). The same files are collected with the same contents, unless
the new file is among them.

**The schema among the declarations** (`not_merged_beside_schema`). A generated file declares the
roots, and these names are reserved. So where it is collected, no schema comes of it.

Main result: `generate_again`.
-/

namespace CrudSchema

/-! ## After a delivery -/

namespace FileTree

variable {t t' : FileTree} {p q : Path} {location : Location} {e : Entry} {bytes : ByteArray}

namespace Receives

theorem entry?_directory (h : t.Receives t' p bytes)
    (hl : t.entry? location = some .directory) : t'.entry? location = some .directory := by
  have hne : location ≠ t.locationOf p := by
    rintro rfl
    exact h.place hl
  rcases h.others location hne with hsame | ⟨-, -, hmade⟩
  · rw [hsame, hl]
  · exact hmade

theorem entry?_eq (h : t.Receives t' p bytes) (hne : location ≠ t.locationOf p)
    (hl : t.entry? location = some e) : t'.entry? location = some e := by
  rcases h.others location hne with hsame | ⟨-, hnone, -⟩
  · rw [hsame, hl]
  · rw [hl] at hnone
    cases hnone

/-- No other files are new. -/
theorem entry?_file_iff (h : t.Receives t' p bytes) (hne : location ≠ t.locationOf p)
    {content : ByteArray} :
    t'.entry? location = some (.file content) ↔ t.entry? location = some (.file content) := by
  rcases h.others location hne with hsame | ⟨-, hnone, hmade⟩
  · rw [hsame]
  · rw [hnone, hmade]
    simp

/-- **Whatever was there before is there still**, but perhaps for what the file says. -/
theorem locate (h : t.Receives t' p bytes) (hq : t.locate q = .ok (location, some e)) :
    ∃ e', t'.locate q = .ok (location, some e') ∧
      (e' = e ∨ location = t.locationOf p ∧ e ≠ .directory ∧ e' = .file bytes) := by
  have hfollow := follow_of_locate hq
  by_cases hnames : q.parts = []
  · -- without names one stays where one is
    rw [hnames, FileTree.follow] at hfollow
    cases hfollow
    obtain ⟨hvisible, hlong, -⟩ := locate_eq_ok_iff.1 hq
    refine ⟨.directory, locate_eq_ok_iff.2 ⟨hvisible, hlong, ?_⟩, .inl rfl⟩
    rw [hnames, FileTree.follow, start_eq h.current]
  have hlocate := locate_of_kept h.current (fun _ => h.entry?_directory) hnames hq
  have hentry := entry?_of_follow_names hnames hfollow
  by_cases hplace : location = t.locationOf p
  · subst hplace
    refine ⟨.file bytes, h.file ▸ hlocate, .inr ⟨rfl, ?_, rfl⟩⟩
    rintro rfl
    exact h.place hentry
  · exact ⟨e, h.entry?_eq hplace hentry ▸ hlocate, .inl rfl⟩

theorem find?_directory (h : t.Receives t' p bytes)
    (hq : t.find? q = .ok (some (location, .directory))) :
    t'.find? q = .ok (some (location, .directory)) := by
  obtain ⟨e', hlocate, rfl | ⟨-, hne, -⟩⟩ := h.locate (locate_of_find? hq)
  · exact find?_of_locate hlocate
  · exact absurd rfl hne

theorem find?_file (h : t.Receives t' p bytes) {content : ByteArray}
    (hq : t.find? q = .ok (some (location, .file content))) :
    ∃ content', t'.find? q = .ok (some (location, .file content')) := by
  obtain ⟨e', hlocate, rfl | ⟨-, -, rfl⟩⟩ := h.locate (locate_of_find? hq)
  · exact ⟨_, find?_of_locate hlocate⟩
  · exact ⟨_, find?_of_locate hlocate⟩

/-- A file elsewhere says what it said. -/
theorem readText_eq (h : t.Receives t' p bytes) (hne : t'.locationOf q ≠ t'.locationOf p)
    {text : String} (hq : t.readText q = .ok text) : t'.readText q = .ok text := by
  obtain ⟨content, hread, hdecode⟩ := Except.exists_of_bind hq
  obtain ⟨location, hlocate⟩ := locate_of_read (Except.ok_of_mapError hread)
  rw [locationOf_eq h.current, locationOf_eq h.current, ← location_of_locate hlocate] at hne
  obtain ⟨e', hlocate', rfl | ⟨hsame, -, -⟩⟩ := h.locate hlocate
  · have hread' : t'.read q = .ok content := by rw [FileTree.read, hlocate']
    rw [readText, hread']
    exact hdecode
  · exact absurd hsame hne

end Receives

/-- A path with one part leads to where it led. -/
theorem locate_of_single {name : String} {found : Option Entry} (hparts : q.parts = [name])
    (hcurrent : t'.current = t.current) (h : t.locate q = .ok (location, found)) :
    t'.locate q = .ok (location, t'.entry? location) := by
  obtain ⟨hvisible, hlong, hfollow⟩ := locate_eq_ok_iff.1 h
  refine locate_eq_ok_iff.2 ⟨hvisible, hlong, ?_⟩
  rw [hparts, FileTree.follow] at hfollow
  split at hfollow
  · cases hfollow
  next hname =>
    cases hfollow
    rw [start_eq hcurrent, hparts, FileTree.follow, if_neg hname]

/-! ## Collecting again -/

theorem filesAt_cases {files : List Path} (h : filesAt t q = .ok files) :
    (∃ location content, t.find? q = .ok (some (location, .file content)) ∧ files = [q]) ∨
      ∃ location, t.find? q = .ok (some (location, .directory)) ∧
        files = declarationsBelow t q location := by
  rw [filesAt] at h
  split at h
  next location hfind =>
    split at h
    · cases h
    · cases h
      exact .inr ⟨location, hfind, rfl⟩
  next location content hfind =>
    cases h
    exact .inl ⟨location, content, hfind, rfl⟩
  · cases h
  · cases h

theorem mem_declarationsBelow_iff : q ∈ declarationsBelow t p location ↔
    (∃ names content, (location ++ names, .file content) ∈ t.entries.entries ∧
      q = p.extend names) ∧ q.suffix ∈ declarationSuffixes := by
  simp only [declarationsBelow, List.mem_filter, List.mem_map, mem_filesBelow,
    List.contains_iff_mem]
  constructor
  · rintro ⟨⟨names, ⟨content, hmem⟩, rfl⟩, hsuffix⟩
    exact ⟨⟨names, content, hmem, rfl⟩, hsuffix⟩
  · rintro ⟨⟨names, content, hmem, rfl⟩, hsuffix⟩
    exact ⟨⟨names, ⟨content, hmem⟩, rfl⟩, hsuffix⟩

/-- What is below a directory stands where the path to it says. -/
theorem Sound.locationOf_extend (h : t.Sound) {names : List String}
    (hp : t.locate p = .ok (location, some .directory))
    (hmem : (location ++ names, e) ∈ t.entries.entries) :
    t.locationOf (p.extend names) = location ++ names := by
  have hnamed : ∀ name ∈ names, IsName name := fun name hname =>
    h.named _ (OrderedMap.mem_keys_of_mem_entries hmem) name (List.mem_append_right _ hname)
  obtain ⟨hanchor, hparts⟩ := Path.extend_of_isPart (fun name hname => (hnamed name hname).part) p
  rw [FileTree.locationOf_extend hanchor hparts fun hup => (hnamed _ hup).onward rfl,
    ← location_of_locate hp]

theorem Sound.entry?_of_mem (h : t.Sound) (hmem : (location, e) ∈ t.entries.entries) :
    t.entry? location = some e :=
  (entry?_eq_some_iff (h.placed _ (OrderedMap.mem_keys_of_mem_entries hmem))).2 hmem

theorem mem_of_entry? (hne : location ≠ []) (h : t.entry? location = some e) :
    (location, e) ∈ t.entries.entries :=
  (entry?_eq_some_iff hne).1 h

/-- **One path stands for the same files as before**, unless the new one is among them. -/
theorem Receives.mem_filesAt (h : t.Receives t' p bytes) (hs : t.Sound) (hs' : t'.Sound)
    {files files' : List Path} (hfiles : filesAt t q = .ok files)
    (hfiles' : filesAt t' q = .ok files')
    (hfree : ∀ r ∈ files', t'.locationOf r ≠ t'.locationOf p) (r : Path) :
    r ∈ files' ↔ r ∈ files := by
  rcases filesAt_cases hfiles with ⟨location, content, hfind, rfl⟩ | ⟨location, hfind, rfl⟩
  · obtain ⟨content', hfind'⟩ := h.find?_file hfind
    rw [filesAt, hfind'] at hfiles'
    cases hfiles'
    rfl
  · have hfind' := h.find?_directory hfind
    obtain ⟨_, _, hother, -⟩ | ⟨_, hsame, rfl⟩ := filesAt_cases hfiles'
    · rw [hfind'] at hother
      cases hother
    · rw [hfind'] at hsame
      cases hsame
      rw [mem_declarationsBelow_iff, mem_declarationsBelow_iff]
      refine and_congr_left fun hsuffix => ⟨?_, ?_⟩
      · rintro ⟨names, content, hmem, rfl⟩
        have hplace := hs'.locationOf_extend (locate_of_find? hfind') hmem
        have hne := hfree _ (mem_declarationsBelow_iff.2 ⟨⟨names, content, hmem, rfl⟩, hsuffix⟩)
        rw [hplace, locationOf_eq h.current] at hne
        have hroot := hs'.placed _ (OrderedMap.mem_keys_of_mem_entries hmem)
        have hentry := (h.entry?_file_iff hne).1 (hs'.entry?_of_mem hmem)
        exact ⟨names, content, mem_of_entry? hroot hentry, rfl⟩
      · rintro ⟨names, content, hmem, rfl⟩
        have hroot := hs.placed _ (OrderedMap.mem_keys_of_mem_entries hmem)
        by_cases hne : location ++ names = t.locationOf p
        · exact ⟨names, bytes, mem_of_entry? hroot (hne ▸ h.file), rfl⟩
        · have hentry := (h.entry?_file_iff hne).2 (hs.entry?_of_mem hmem)
          exact ⟨names, content, mem_of_entry? hroot hentry, rfl⟩

end FileTree

theorem Except.forall₂_of_mapM {ε α β : Type} {f : α → Except ε β} {l : List α} {bs : List β}
    (h : l.mapM f = .ok bs) : List.Forall₂ (fun a b => f a = .ok b) l bs := by
  induction l generalizing bs with
  | nil =>
    cases h
    exact .nil
  | cons a rest ih =>
    rw [List.mapM_cons] at h
    obtain ⟨b, hb, h⟩ := Except.exists_of_bind h
    obtain ⟨more, hmore, h⟩ := Except.exists_of_bind h
    cases h
    exact .cons hb (ih hmore)

open FileTree

section Again

variable {t t' : FileTree} {p : Path} {bytes : ByteArray} {paths : List String}
  {files files' : List Path}

theorem exists_of_collect (h : collect t paths = .ok files) : ∃ lists,
    List.Forall₂ (fun path l => filesAt t (.ofText path) = .ok l) paths lists ∧
      files = Path.sorted lists.flatten := by
  obtain ⟨lists, hlists, h⟩ := Except.exists_of_bind h
  cases h
  exact ⟨lists, Except.forall₂_of_mapM hlists, rfl⟩

theorem mem_collect_iff (h : collect t paths = .ok files) {q : Path} :
    q ∈ files ↔ ∃ path ∈ paths, ∃ found, filesAt t (.ofText path) = .ok found ∧ q ∈ found := by
  obtain ⟨lists, hlists, rfl⟩ := exists_of_collect h
  rw [Path.mem_sorted]
  clear h
  induction hlists with
  | nil => simp
  | cons hfirst _ ih => simp [hfirst, ih]

/-- **The same files are collected as before**, unless the new one is among them. -/
theorem collect_after (h : t.Receives t' p bytes) (hs : t.Sound) (hs' : t'.Sound)
    (hfiles : collect t paths = .ok files) (hfiles' : collect t' paths = .ok files')
    (hfree : ∀ r ∈ files', t'.locationOf r ≠ t'.locationOf p) : files' = files := by
  obtain ⟨lists, hlists, rfl⟩ := exists_of_collect hfiles
  obtain ⟨lists', hlists', rfl⟩ := exists_of_collect hfiles'
  simp only [Path.mem_sorted] at hfree
  refine Path.sorted_eq_iff.2 fun r => ?_
  clear hfiles hfiles'
  induction hlists generalizing lists' with
  | nil =>
    cases hlists'
    rfl
  | cons hfirst hrest ih =>
    cases hlists' with
    | cons hfirst' hrest' =>
      simp only [List.flatten_cons, List.mem_append, or_imp, forall_and] at hfree ⊢
      rw [h.mem_filesAt hs hs' hfirst hfirst' hfree.1, ih _ hrest' hfree.2]

end Again

/-! ## The schema among the declarations -/

theorem unreserved_of_merge {documents : List Document} {types : TypeMap}
    (h : (merge documents).result = .ok types) {document : Document} (hmem : document ∈ documents)
    {d : Declaration} (hd : d ∈ document.types) : d.name ∉ reservedNames := by
  have hconsistent := merge_succeeds_iff.1 ⟨types, h⟩
  refine (hconsistent.acceptable ⟨d, document.source⟩ ?_).unreserved
  exact List.mem_flatMap.2 ⟨document, hmem, List.mem_map_of_mem hd⟩

/-- Every text gives a document. -/
theorem exists_document_of_loadTexts {t : FileTree} {files : List Path} {texts : List String}
    {documents : List Document}
    (htexts : List.Forall₂ (fun q text => t.readText q = .ok text) files texts)
    (h : (loadTexts ((files.map Path.text).zip texts)).result = .ok documents) {q : Path}
    (hq : q ∈ files) : ∃ text, t.readText q = .ok text ∧
      ∃ document ∈ documents, (Document.load q.text text).result = .ok document := by
  induction htexts generalizing documents with
  | nil => cases hq
  | @cons q' text files texts htext hrest ih =>
    obtain ⟨document, hdocument, h⟩ := Logged.exists_of_bind h
    obtain ⟨more, hmore, h⟩ := Logged.exists_of_bind h
    cases h
    rcases List.mem_cons.1 hq with rfl | hq
    · exact ⟨text, htext, document, List.mem_cons_self, hdocument⟩
    · obtain ⟨text', htext', document', hmem, hdocument'⟩ := ih hmore hq
      exact ⟨text', htext', document', List.mem_cons_of_mem _ hmem, hdocument'⟩

namespace CommandLine

namespace Action

/-- Declarations come from files that can be collected and read. -/
theorem exists_of_declarationsAt {t : FileTree} {paths : List String} {types : TypeMap}
    (h : declarationsAt t paths = .ok types) : ∃ files texts documents,
      collect t paths = .ok files ∧
      List.Forall₂ (fun q text => t.readText q = .ok text) files texts ∧
      (loadTexts ((files.map Path.text).zip texts)).result = .ok documents ∧
      (merge documents).result = .ok types := by
  obtain ⟨documents, hload, hmerge⟩ := Except.exists_of_bind h
  obtain ⟨files, hfiles, hload⟩ := Logged.exists_of_bind hload
  obtain ⟨⟨⟩, -, hload⟩ := Logged.exists_of_bind hload
  obtain ⟨texts, htexts, hload⟩ := Logged.exists_of_bind hload
  exact ⟨files, texts, documents, hfiles, Except.forall₂_of_mapM htexts,
    Logged.ok_of_mapError hload, Except.ok_of_mapError hmerge⟩

/-- The text of a written schema, with the header of generated files or without one. -/
def Prints (text : String) : Prop :=
  ∃ options types api schema header, Merged types ∧ (∀ d ∈ types.values, d.Shallow) ∧
    (assembleTypes options types).result = .ok (api, schema) ∧ IsHeader header ∧
    text = schema.print header

theorem prints_of_declarationsAt {files : FileTree} {paths : List String}
    {options : SynthesisOptions} {types : TypeMap} {api : Api} {schema : Schema}
    (htypes : declarationsAt files paths = .ok types)
    (hassemble : (assembleTypes options types).result = .ok (api, schema)) {header : Bool} :
    Prints (schema.print (if header then Schema.generatedHeader else "")) := by
  obtain ⟨hmerged, hshallow⟩ := merged_of_declarationsAt htypes
  refine ⟨_, _, _, _, _, hmerged, hshallow, hassemble, ?_, rfl⟩
  split
  · exact isHeader_generatedHeader
  · exact .inl rfl

/-- A written schema is read back as it is, and declares a root. -/
theorem Prints.declares_root {text : String} (h : Prints text) :
    Text.decodeLines text.toUTF8 = .ok text ∧ ∀ source document,
      (Document.load source text).result = .ok document →
      ∃ d ∈ document.types, d.name = "Query" := by
  obtain ⟨options, types, api, schema, header, hmerged, hshallow, hassemble, hheader, rfl⟩ := h
  constructor
  · obtain ⟨ts, hts, hlegal, hs⟩ := exists_assembled hmerged hassemble
    exact Schema.decodeLines_print (hts.readable hlegal hshallow hs) hheader
  · intro source document hload
    obtain ⟨document', hload', htypes⟩ :=
      load_print_types hmerged hshallow hassemble hheader source
    obtain rfl : document = document' := Except.ok.inj (hload.symm.trans hload')
    exact ⟨declared (api.root "Query" api.query), by rw [htypes]; simp, rfl⟩

/-- **Nothing is merged where a written schema is collected.** -/
theorem not_merged_beside_schema {t t' : FileTree} {p q : Path} {text : String}
    {paths : List String} {files : List Path} (h : t.Receives t' p text.toUTF8)
    (hprints : Prints text) (hfiles : collect t' paths = .ok files) (hq : q ∈ files)
    (hplace : t'.locationOf q = t'.locationOf p) (types : TypeMap) :
    declarationsAt t' paths ≠ .ok types := by
  intro htypes
  obtain ⟨hdecode, hroot⟩ := hprints.declares_root
  obtain ⟨files', texts, documents, hfiles', htexts, hload, hmerge⟩ :=
    exists_of_declarationsAt htypes
  obtain rfl : files = files' := Except.ok.inj (hfiles.symm.trans hfiles')
  obtain ⟨text', htext', document, hmem, hdocument⟩ := exists_document_of_loadTexts htexts hload hq
  have hsame : text' = text := by
    obtain ⟨content, hread, hdecode'⟩ := Except.exists_of_bind htext'
    obtain ⟨location, hlocate⟩ := locate_of_read (Except.ok_of_mapError hread)
    have hentry := entry?_of_locate hlocate nofun
    rw [hplace, locationOf_eq h.current, h.file] at hentry
    cases hentry
    rw [hdecode] at hdecode'
    exact (Except.ok.inj hdecode').symm
  subst hsame
  obtain ⟨d, hd, hname⟩ := hroot _ _ hdocument
  refine unreserved_of_merge hmerge hmem hd ?_
  rw [hname]
  decide

/-! ## Two runs -/

theorem prepared_of_settingsInForce {files : FileTree} {configPath : Option String} {s : Selection}
    {given : String} {c : Config} (hc : settingsInForce files configPath s given = .ok c) :
    prepared files configPath s given =
      (declarationsAt files c.types).map fun types => (c, types) := by
  rw [prepared, ← settingsInForce, hc]
  rfl

end Action

theorem endingOf_error_ne (e : Fault) : endingOf (.error e) ≠ .ok 0 := by
  rw [endingOf]
  split
  · simp
  · simp

/-- Generating ends with a fault of its preparation, and changes no file. -/
theorem execute_of_unprepared {files : FileTree} {configPath : Option String} {s : Selection}
    {given : String} {e : Fault} (h : Action.prepared files configPath s given = .error e) :
    (execute configPath (.generate s given) files).ending = endingOf (.error e) ∧
      (execute configPath (.generate s given) files).progress.files = files := by
  have hruns : Action.Runs files (Action.generate configPath s given) (.error e) "" :=
    Action.Runs.of_unprepared _ h
  obtain ⟨-, -, hfiles⟩ := execute_of_yields (c := .generate s given)
    (hruns.yields (Q := fun _ t => t = files) rfl)
  exact ⟨(execute_of_runs (c := .generate s given) hruns).1, hfiles⟩

/-- A run that ends well has put its schema on the standard output or delivered it to its file. -/
theorem exists_of_execute_zero {files : FileTree} {configPath : Option String} {s : Selection}
    {given : String} (h : (execute configPath (.generate s given) files).ending = .ok 0) :
    ∃ c types api schema, Action.settingsInForce files configPath s given = .ok c ∧
      Action.declarationsAt files c.types = .ok types ∧
      (assembleTypes c.synthesisOptions types).result = .ok (api, schema) ∧
      (c.schemaPath = Config.standardOutput ∧
          (execute configPath (.generate s given) files).progress.files = files ∨
        c.schemaPath ≠ Config.standardOutput ∧
          files.Delivered (.ofText c.schemaPath)
            (schema.print (if c.header then Schema.generatedHeader else "")).toUTF8
            (execute configPath (.generate s given) files).progress.files) := by
  rcases hprepared : Action.prepared files configPath s given with e | ⟨c, types⟩
  · exact absurd ((execute_of_unprepared hprepared).1.symm.trans h) (endingOf_error_ne e)
  obtain ⟨c', hc, hrest⟩ := Except.exists_of_bind hprepared
  obtain ⟨types', htypes, hrest⟩ := Except.exists_of_bind hrest
  cases hrest
  rcases hassemble : (assembleTypes c.synthesisOptions types).result with e | ⟨api, schema⟩
  · have hruns := Action.runs_generate_error hprepared hassemble
    have hending := (execute_of_runs (c := .generate s given) hruns).1
    exact absurd (hending.symm.trans h) (endingOf_error_ne _)
  refine ⟨c, types, api, schema, hc, htypes, hassemble, ?_⟩
  by_cases hpath : c.schemaPath = Config.standardOutput
  · have hshown := Action.runs_generate_ok hprepared hpath hassemble
    obtain ⟨-, -, hfiles⟩ := execute_of_yields (c := .generate s given)
      (hshown.yields (Q := fun _ t => t = files) rfl)
    exact .inl ⟨hpath, hfiles⟩
  · obtain ⟨r, p, hrun, hcases⟩ := Action.run_generate hpath hprepared hassemble rfl
    obtain ⟨hending, hfiles, -⟩ := execute_of_run (c := .generate s given) hrun
    rw [h] at hending
    rcases hcases with ⟨e, rfl, -⟩ | ⟨-, hdelivered, -⟩
    · exact absurd hending.symm (endingOf_error_ne _)
    · exact .inr ⟨hpath, hfiles ▸ hdelivered⟩

/-- The schema does not go to a file that is among those collected. -/
def Clear (t : FileTree) (c : Config) : Prop :=
  c.schemaPath = Config.standardOutput ∨ ∃ files, collect t c.types = .ok files ∧
    ∀ q ∈ files, t.locationOf q ≠ t.locationOf (.ofText c.schemaPath)

/-- What a delivery left holds the same declarations, if its file is not among those collected. -/
theorem declarationsAt_after {files t : FileTree} {p : Path} {content : ByteArray}
    {paths : List String} {types : TypeMap} {found : List Path} (hsound : files.Sound)
    (hdelivered : files.Delivered p content t)
    (htypes : Action.declarationsAt files paths = .ok types)
    (hfound : collect t paths = .ok found) (hfree : ∀ q ∈ found, t.locationOf q ≠ t.locationOf p) :
    Action.declarationsAt t paths = .ok types := by
  have hreceives := hdelivered.receives
  obtain ⟨found', texts, documents, hfound', htexts, hload, -⟩ :=
    Action.exists_of_declarationsAt htypes
  obtain rfl := collect_after hreceives hsound (hdelivered.sound hsound) hfound' hfound hfree
  rw [← htypes]
  refine declarationsAt_congr (hfound.trans hfound'.symm) fun files hfiles q hq => ?_
  obtain rfl := Except.ok.inj (hfound'.symm.trans hfiles)
  obtain ⟨text, htext, -⟩ := exists_document_of_loadTexts htexts hload hq
  rw [htext, hreceives.readText_eq (hfree q hq) htext]

/-- Once more, on the files that a delivery left, the same schema is delivered if its file is not
among those collected. Else nothing is. -/
theorem execute_after_delivery {files t : FileTree} {configPath : Option String} {s : Selection}
    {given : String} {c : Config} {types : TypeMap} {api : Api} {schema : Schema}
    (hsound : files.Sound) (hc : Action.settingsInForce t configPath s given = .ok c)
    (htypes : Action.declarationsAt files c.types = .ok types)
    (hassemble : (assembleTypes c.synthesisOptions types).result = .ok (api, schema))
    (hpath : c.schemaPath ≠ Config.standardOutput)
    (hdelivered : files.Delivered (.ofText c.schemaPath)
      (schema.print (if c.header then Schema.generatedHeader else "")).toUTF8 t) :
    (execute configPath (.generate s given) t).progress.files = t ∧
      ((execute configPath (.generate s given) t).ending = .ok 0 ↔ Clear t c) := by
  have hreceives := hdelivered.receives
  have hprepared := Action.prepared_of_settingsInForce hc
  by_cases hclear : Clear t c
  · -- the declarations are the same, and so is the schema
    obtain ⟨found, hfound, hfree⟩ := hclear.resolve_left hpath
    rw [declarationsAt_after hsound hdelivered htypes hfound hfree] at hprepared
    obtain ⟨r, p, hrun, hcases⟩ := Action.run_generate hpath hprepared hassemble rfl
    obtain ⟨hending, hfiles, -⟩ := execute_of_run (c := .generate s given) hrun
    rw [hending, hfiles]
    rcases hcases with ⟨e, -, hfault, -⟩ | ⟨rfl, hagain, -⟩
    · exact absurd hfault (hdelivered.again.not_undelivered _ _)
    · exact ⟨hagain.unique hdelivered.again, fun _ => hclear, fun _ => rfl⟩
  · rcases htypes' : Action.declarationsAt t c.types with e | types'
    · rw [htypes'] at hprepared
      obtain ⟨hending, hfiles⟩ := execute_of_unprepared (e := e) hprepared
      rw [hending]
      exact ⟨hfiles, fun h => absurd h (endingOf_error_ne e), fun h => absurd h hclear⟩
    · -- the schema is collected, so its roots stand among the declarations
      obtain ⟨found, -, -, hfound, -⟩ := Action.exists_of_declarationsAt htypes'
      refine absurd (.inr ⟨found, hfound, fun q hq hplace => ?_⟩) hclear
      exact Action.not_merged_beside_schema hreceives
        (Action.prints_of_declarationsAt htypes hassemble) hfound hq hplace _ htypes'

/-- **Generating again changes nothing.** -/
theorem generate_again {files : FileTree} {words : List String} {configPath : Option String}
    {s : Selection} {given : String} (hsound : files.Sound)
    (hrequest : request words = .ok (.run configPath (.generate s given)))
    (hzero : (run words files).ending = .ok 0)
    (hsettings : Action.settingsInForce (run words files).progress.files configPath s given =
      Action.settingsInForce files configPath s given) :
    (run words (run words files).progress.files).progress.files =
        (run words files).progress.files ∧
      ∃ c, Action.settingsInForce files configPath s given = .ok c ∧
        ((run words (run words files).progress.files).ending = .ok 0 ↔
          Clear (run words files).progress.files c) := by
  simp only [run_of_request hrequest] at hzero hsettings ⊢
  obtain ⟨c, types, api, schema, hc, htypes, hassemble, ⟨hpath, hfiles⟩ | ⟨hpath, hdelivered⟩⟩ :=
    exists_of_execute_zero hzero
  · rw [hfiles]
    exact ⟨hfiles, c, hc, fun _ => .inl hpath, fun _ => hzero⟩
  · obtain ⟨hsame, hending⟩ := execute_after_delivery hsound (hsettings.trans hc) htypes hassemble
      hpath hdelivered
    exact ⟨hsame, c, hc, hending⟩

/-! ## A schema beside its declarations and one among them -/

theorem blogTree_sound : blogTree.Sound := by decide

/-- No settings appear where none were. -/
theorem blogTree_settings_after {t : FileTree} {p : Path} {bytes : ByteArray}
    (h : blogTree.Receives t p bytes) (hplace : blogTree.locationOf p ≠ ["blog", "crudgraph.yaml"])
    (hway : ∀ names ∈ p.parent.parts.inits,
      names.foldl neighbour (blogTree.start p.parent) ≠ ["blog", "crudgraph.yaml"])
    (given : String) : Action.settingsInForce t (some defaultConfigPath) {} given =
      .ok (Action.override {} {} given) := by
  have hfree : blogTree.locate (.ofText defaultConfigPath) =
    .ok (["blog", "crudgraph.yaml"], none) := Except.eq_ok_of_toOption (by decide +kernel)
  have hnone : t.entry? ["blog", "crudgraph.yaml"] = none := by
    rcases h.others _ (Ne.symm hplace) with hsame | ⟨⟨names, hnames, hlocation⟩, -, -⟩
    · rw [hsame]
      decide
    · exact absurd hlocation (hway names ((List.mem_inits _ _).2 hnames))
  have hparts : (Path.ofText defaultConfigPath).parts = ["crudgraph.yaml"] := by decide
  have hlocate := locate_of_single hparts h.current hfree
  rw [hnone] at hlocate
  have hfind : t.find? (.ofText defaultConfigPath) = .ok none := by
    rw [FileTree.find?, hlocate]
    rfl
  have hload : Config.load t (.ofText defaultConfigPath) = .ok none := by
    rw [Config.load, FileTree.exists?, hfind]
    rfl
  rw [Action.settingsInForce, settingsAt_of_absent hload]
  rfl

/-- The default is to write the schema beside the declarations. -/
theorem blogTree_generated_again : blogTree.Sound ∧ (run ["generate"] blogTree).ending = .ok 0 ∧
    (run ["generate"] (run ["generate"] blogTree).progress.files).progress.files =
      (run ["generate"] blogTree).progress.files := by
  refine ⟨blogTree_sound, blogTree_is_generated, ?_⟩
  refine (generate_again blogTree_sound request_generate_to_file blogTree_is_generated ?_).1
  have hzero := blogTree_is_generated
  rw [run_of_request request_generate_to_file] at hzero ⊢
  obtain ⟨c, types, api, schema, hc, -, -, hends⟩ := exists_of_execute_zero hzero
  rw [blogTree_settingsInForce] at hc ⊢
  cases hc
  rcases hends with ⟨hpath, -⟩ | ⟨-, hdelivered⟩
  · exact absurd hpath (by decide)
  · exact blogTree_settings_after hdelivered.receives (by decide) (by decide) ""

theorem request_generate_to_types : request ["generate", "-s", "types/schema.graphql"] =
    .ok (.run (some defaultConfigPath) (.generate {} "types/schema.graphql")) :=
  request_generate_to rfl rfl (by decide)

theorem request_generate_to_out : request ["-c", "out", "generate", "-s", "out/schema.graphql"] =
    .ok (.run (some "out") (.generate {} "out/schema.graphql")) := by
  have hmark : mark programSwitches ["-c", "out", "generate", "-s", "out/schema.graphql"] =
    .ok [("-c", .named ⟨⟨.config, ["--config", "-c"], .one⟩, "-c", none⟩), ("out", .plain),
      ("generate", .plain), ("-s", .unknown), ("out/schema.graphql", .plain)] := rfl
  have hform : commandForms.find? (fun form => form.name == "generate") =
    some ⟨"generate", .generate, generateSwitches,
      fun c => .generate c.selection c.schemaPath⟩ := rfl
  have hplain : classify generateSwitches "out/schema.graphql" = .ok .plain := rfl
  have hread := readCommand_generate_to (some "out") hplain (by decide)
  rw [request, CommandLine.read, hmark]
  simp [readMarked, take, takeFollowing, takeWords, Mark.isPlain, Except.map, Reading.after,
    ofEvents, hform, hread]

/-- Without settings the schema is written wherever it can be delivered. -/
theorem blogTree_is_generated_to {path given : String}
    (hsettings : Action.settingsAt blogTree (some path) = .ok {})
    (hpath : (Action.override {} {} given).schemaPath ≠ Config.standardOutput)
    (hfree : ∀ bytes, ∃ t, blogTree.Delivered
      (.ofText (Action.override {} {} given).schemaPath) bytes t) :
    (execute (some path) (.generate {} given) blogTree).ending = .ok 0 := by
  obtain ⟨api, schema, hcompile, hassemble⟩ := blogTypes_assemble
  have hprepared := Action.prepared_eq_ok (s := {}) hsettings blogTree_declares given
  obtain ⟨r, p, hrun, hcases⟩ := Action.run_generate hpath hprepared
    (Action.assembleTypes_of_ok hcompile hassemble) rfl
  rw [(execute_of_run (c := .generate {} given) hrun).1]
  rcases hcases with ⟨e, -, hfault, -⟩ | ⟨rfl, -⟩
  · obtain ⟨t, hdelivered⟩ := hfree _
    exact absurd hfault (hdelivered.not_undelivered _ _)
  · rfl

/-- A schema that was written among the declarations is collected with them. -/
theorem mem_collect_of_types {t : FileTree} {bytes : ByteArray} {files : List Path}
    (h : blogTree.Receives t (.ofText "types/schema.graphql") bytes)
    (hfiles : collect t ["types"] = .ok files) :
    ∃ q ∈ files, t.locationOf q = t.locationOf (.ofText "types/schema.graphql") := by
  refine ⟨(Path.ofText "types").extend ["schema.graphql"], ?_, ?_⟩
  · have hfind : t.find? (.ofText "types") = .ok (some (["blog", "types"], .directory)) :=
      h.find?_directory (Except.eq_ok_of_toOption (by decide))
    have hentry : t.entry? (["blog", "types"] ++ ["schema.graphql"]) = some (.file bytes) := by
      have hplace : blogTree.locationOf (.ofText "types/schema.graphql") =
        ["blog", "types"] ++ ["schema.graphql"] := by decide
      rw [← hplace]
      exact h.file
    obtain ⟨lists, hlists, -⟩ := exists_of_collect hfiles
    cases hlists with
    | cons hfound _ =>
      refine (mem_collect_iff hfiles).2 ⟨"types", List.mem_singleton_self _, _, hfound, ?_⟩
      rcases filesAt_cases hfound with ⟨location, content, hfile, -⟩ | ⟨location, hsame, rfl⟩
      · rw [hfind] at hfile
        cases hfile
      · rw [hfind] at hsame
        cases hsame
        have hmem := mem_of_entry? (List.append_ne_nil_of_right_ne_nil _ (by simp)) hentry
        exact mem_declarationsBelow_iff.2 ⟨⟨_, _, hmem, rfl⟩, by decide⟩
  · rw [locationOf_eq h.current, locationOf_eq h.current]
    decide

/-- The schema is written among the declarations, and so is one of them the next time. -/
theorem schemaAmongTypes_not_again :
    (execute (some defaultConfigPath) (.generate {} "types/schema.graphql") blogTree).ending =
        .ok 0 ∧
      (execute (some defaultConfigPath) (.generate {} "types/schema.graphql")
        (execute (some defaultConfigPath) (.generate {} "types/schema.graphql")
          blogTree).progress.files).ending ≠ .ok 0 := by
  have hplace : (Action.override {} {} "types/schema.graphql").schemaPath =
    "types/schema.graphql" := by decide
  have hparent : blogTree.locate (Path.ofText "types/schema.graphql").parent =
    .ok (["blog", "types"], some .directory) := Except.eq_ok_of_toOption (by decide)
  have hfree : blogTree.locate (.ofText "types/schema.graphql") =
    .ok (["blog", "types", "schema.graphql"], none) := Except.eq_ok_of_toOption (by decide +kernel)
  have hzero : (execute (some defaultConfigPath) (.generate {} "types/schema.graphql")
      blogTree).ending = .ok 0 := by
    refine blogTree_is_generated_to blogTree_settings (by decide) fun bytes => ?_
    rw [hplace]
    exact ⟨_, delivered_of_locate hparent hfree bytes⟩
  refine ⟨hzero, fun hagain => ?_⟩
  obtain ⟨c, types, api, schema, hc, htypes, hassemble, hends⟩ := exists_of_execute_zero hzero
  rw [blogTree_settingsInForce] at hc
  cases hc
  rcases hends with ⟨hpath, -⟩ | ⟨-, hdelivered⟩
  · exact absurd hpath (by decide)
  · rw [hplace] at hdelivered
    have hreceives := hdelivered.receives
    obtain ⟨c', types', -, -, hc', htypes', -⟩ := exists_of_execute_zero hagain
    rw [blogTree_settings_after hreceives (by decide) (by decide)] at hc'
    cases hc'
    obtain ⟨found, -, -, hfound, -⟩ := Action.exists_of_declarationsAt htypes'
    obtain ⟨q, hq, hsame⟩ := mem_collect_of_types hreceives hfound
    exact Action.not_merged_beside_schema hreceives
      (Action.prints_of_declarationsAt htypes hassemble) hfound hq hsame _ htypes'

theorem load_of_directory {t : FileTree} {p : Path} {location : Location}
    (h : t.locate p = .ok (location, some .directory)) :
    Config.load t p = .error (.file ⟨.isDirectory, p⟩) := by
  rw [Config.load, FileTree.exists?, find?_of_locate h, FileTree.readText, FileTree.read, h]
  rfl

/-- The schema is written into a new directory, which stands where no settings file was. -/
theorem schemaBelowSettings_not_again :
    (execute (some "out") (.generate {} "out/schema.graphql") blogTree).ending = .ok 0 ∧
      (execute (some "out") (.generate {} "out/schema.graphql")
        (execute (some "out") (.generate {} "out/schema.graphql")
          blogTree).progress.files).ending ≠ .ok 0 := by
  have hplace : (Action.override {} {} "out/schema.graphql").schemaPath =
    "out/schema.graphql" := by decide
  have hsettings : Action.settingsAt blogTree (some "out") = .ok {} := by
    have hload : Config.load blogTree (.ofText "out") = .ok none :=
      Except.eq_ok_of_toOption (by decide)
    have hdefaults : ({} : Config).relativeTo (Path.ofText "out").parent = {} := by decide
    rw [Action.settingsAt, hload, Except.map, Option.getD_none, hdefaults]
  have hzero : (execute (some "out") (.generate {} "out/schema.graphql") blogTree).ending =
      .ok 0 := by
    refine blogTree_is_generated_to hsettings (by decide) fun bytes => ?_
    rw [hplace]
    have hmake : blogTree.locate (Path.ofText "out/schema.graphql").parent =
      .ok (["blog", "out"], none) := Except.eq_ok_of_toOption (by decide)
    have hfree : (blogTree.put ["blog", "out"] .directory).locate (.ofText "out/schema.graphql") =
      .ok (["blog", "out", "schema.graphql"], none) := Except.eq_ok_of_toOption (by decide +kernel)
    refine ⟨_, blogTree.put ["blog", "out"] .directory, ?_, by rw [FileTree.write, hfree]⟩
    rw [FileTree.makeDirectories, FileTree.ensureDirectory, FileTree.makeDirectory, hmake]
  refine ⟨hzero, fun hagain => ?_⟩
  obtain ⟨c, types, api, schema, hc, -, -, hends⟩ := exists_of_execute_zero hzero
  rw [Action.settingsInForce, hsettings] at hc
  cases hc
  rcases hends with ⟨hpath, -⟩ | ⟨-, hdelivered⟩
  · exact absurd hpath (by decide)
  · rw [hplace] at hdelivered
    obtain ⟨location, hlocate⟩ := locate_of_read hdelivered.receives.read
    obtain ⟨directory, hparent⟩ := locate_parent hlocate
    have hsame : (Path.ofText "out/schema.graphql").parent = .ofText "out" := by decide
    rw [hsame] at hparent
    obtain ⟨c', -, -, -, hc', -⟩ := exists_of_execute_zero hagain
    rw [Action.settingsInForce, Action.settingsAt, load_of_directory hparent] at hc'
    cases hc'

/-- Generating again may fail: because of what the schema declares, or because of where it is. -/
theorem blogTree_not_generated_again :
    ((run ["generate", "-s", "types/schema.graphql"] blogTree).ending = .ok 0 ∧
      (run ["generate", "-s", "types/schema.graphql"]
        (run ["generate", "-s", "types/schema.graphql"] blogTree).progress.files).ending ≠ .ok 0) ∧
    ((run ["-c", "out", "generate", "-s", "out/schema.graphql"] blogTree).ending = .ok 0 ∧
      (run ["-c", "out", "generate", "-s", "out/schema.graphql"]
        (run ["-c", "out", "generate", "-s", "out/schema.graphql"]
          blogTree).progress.files).ending ≠ .ok 0) := by
  simp only [run_of_request request_generate_to_types, run_of_request request_generate_to_out]
  exact ⟨schemaAmongTypes_not_again, schemaBelowSettings_not_again⟩

end CommandLine

end CrudSchema
