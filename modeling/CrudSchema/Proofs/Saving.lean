import CrudSchema.Proofs.Building
import CrudSchema.Proofs.Destination
import CrudSchema.Proofs.LineEnds
import Mathlib.Algebra.Group.Int.Defs

/-!
# Settings saved and loaded

**Text** (`Config.ofText_print`). The settings that are read from the data of a written document are
those it was written for. There is at least one path of declarations, so the list of them is one.

**Files** (`Config.save_loaded`). A written document is read from its file as it was written, for no
line end in it is changed. So saved settings are loaded again, wherever a file can be written,
unless their version has more digits than can be written at all.
-/

namespace CrudSchema.Config

variable {c : Config} {d : Data}

/-! ## Settings in data -/

theorem nodup_entries (c : Config) : (c.entries.map Prod.fst).Nodup :=
  (by decide : ["version", "types", "schema_path", "logical_filters", "header", "log_level"].Nodup)

theorem isKey_of_mem_entries (c : Config) : ∀ e ∈ c.entries, Yaml.IsKey e.1 := by
  have hkeys : ∀ key ∈ ["version", "types", "schema_path", "logical_filters", "header",
      "log_level"], key.toList ≠ [] ∧ key.toList.all Yaml.isKeyChar = true ∧
        key.toList.length ≤ Yaml.Layout.longestKey ∧ Yaml.Tag.ofPlain key = .text := by
    decide
  intro e he
  obtain ⟨hne, hletters, hshort, htext⟩ := hkeys e.1 (List.mem_map_of_mem (f := Prod.fst) he)
  exact ⟨hne, List.all_eq_true.1 hletters, hshort, htext⟩

/-- Every item is told of, as a text or in an issue. -/
theorem length_readItems {name : String} {index : Nat} {items : List Value}
    (h : (readItems name index items).1 = []) :
    (readItems name index items).2.length = items.length := by
  induction items generalizing index with
  | nil => rfl
  | cons v items ih =>
    rw [readItems] at h ⊢
    cases hv : readText v with
    | ok s =>
      rw [hv] at h
      rw [List.length_cons, List.length_cons, ih h]
    | error complaint =>
      rw [hv] at h
      cases h

theorem types_ne_nil_of_typesSetting {entries : List (Value × Value)} {name : String}
    {default : List String} (hdefault : default ≠ [])
    (h : (typesSetting d entries name default).1 = []) :
    (typesSetting d entries name default).2 ≠ [] := by
  rw [typesSetting] at h ⊢
  split
  next => exact hdefault
  next v hv =>
    rw [hv] at h
    simp only [readTypes] at h ⊢
    split at h
    next => cases h
    next items hne hitems =>
      intro hnil
      have hlength := length_readItems h
      rw [hnil] at hlength
      exact hne (List.length_eq_zero_iff.1 hlength.symm)
    next => cases h

/-- Settings that are read name a path of declarations. -/
theorem types_ne_nil_of_ofData (h : ofData d = .ok c) : c.types ≠ [] := by
  rw [ofData] at h
  split at h
  next entries hentries =>
    simp only [ofEntries] at h
    split at h
    next hissues =>
      simp only [List.append_eq_nil_iff] at hissues
      obtain ⟨⟨⟨⟨⟨-, htypes⟩, -⟩, -⟩, -⟩, -⟩ := hissues
      cases h
      exact types_ne_nil_of_typesSetting (List.cons_ne_nil _ _) htypes
    next => cases h
  next => cases h

/-- The value of a setting in data that show it. -/
theorem exists_field? {entries : List (String × Yaml.Entry)} {found : List (String × Value)}
    (hdistinct : (entries.map Prod.fst).Nodup)
    (h : List.Forall₂ (fun e e' => e'.1 = e.1 ∧ e.2.Is d e'.2) entries found) {name : String}
    {e : Yaml.Entry} (hmem : (name, e) ∈ entries) :
    ∃ v, Value.field? name (found.map fun e => (.text e.1, e.2)) = some v ∧ e.Is d v := by
  induction h with
  | nil => cases hmem
  | @cons e₁ e₂ entries found hfirst hrest ih =>
    rw [List.map_cons, List.nodup_cons] at hdistinct
    rw [Value.field?, List.map_cons, List.lookup_cons]
    rcases List.mem_cons.1 hmem with rfl | hmem
    · exact ⟨e₂.2, by simp [hfirst.1], hfirst.2⟩
    · have hne : e₂.1 ≠ name := by
        rintro rfl
        exact hdistinct.1 (List.mem_map.2 ⟨_, hmem, hfirst.1⟩)
      have hkey : (Value.text name == Value.text e₂.1) = false := by simpa using hne.symm
      rw [hkey]
      exact ih hdistinct.2 hmem

theorem setting_eq {α : Type} {entries : List (Value × Value)} {name : String} {v : Value}
    (hfield : Value.field? name entries = some v) (default : α) (read : Value → Except Complaint α)
    {a : α} (hread : read v = .ok a) : setting entries name default read = ([], a) := by
  rw [setting, hfield]
  simp only [hread]

theorem readItems_texts (name : String) (index : Nat) (texts : List String) :
    readItems name index (texts.map .text) = ([], texts) := by
  induction texts generalizing index with
  | nil => rfl
  | cons s texts ih => rw [List.map_cons, readItems, ih]; rfl

theorem readTypes_texts {v : Value} {name : String} {texts : List String} (hne : texts ≠ [])
    (h : d.compound? v = some (.list (texts.map .text))) : readTypes d name v = ([], texts) := by
  obtain ⟨s, texts, rfl⟩ := List.exists_cons_of_ne_nil hne
  rw [readTypes, h]
  exact readItems_texts name 0 (s :: texts)

theorem readLevel_name (level : LogLevel) : readLevel (.text level.name) = .ok level := by
  cases level <;> exact Except.eq_ok_of_toOption (by decide)

/-- The settings in data that show them. -/
theorem ofEntries_of_shows {found : List (String × Value)} (htypes : c.types ≠ [])
    (h : List.Forall₂ (fun e e' => e'.1 = e.1 ∧ e.2.Is d e'.2) c.entries found) :
    ofEntries d (found.map fun e => (.text e.1, e.2)) = .ok c := by
  have hfield : ∀ e ∈ c.entries, ∃ v,
      Value.field? e.1 (found.map fun e => (.text e.1, e.2)) = some v ∧ e.2.Is d v :=
    fun e he => exists_field? (nodup_entries c) h he
  obtain ⟨⟨_, hversion, rfl⟩, ⟨v, htypesField, hv⟩, ⟨_, hpath, rfl⟩, ⟨_, hfilters, rfl⟩,
    ⟨_, hheader, rfl⟩, ⟨_, hlevel, rfl⟩, -⟩ := by
      simpa only [entries, List.forall_mem_cons] using hfield
  have htexts : readTypes d "types" v = ([], c.types) := by
    refine readTypes_texts htypes ?_
    rw [Yaml.Entry.Is, List.map_map] at hv
    exact hv
  have htruth : ∀ b, readTruth (Yaml.Leaf.bool b).value = .ok b := fun _ => rfl
  rw [ofEntries]
  simp only [setting_eq hversion _ readWhole rfl, setting_eq hpath _ readText rfl,
    setting_eq hfilters _ readTruth (htruth _), setting_eq hheader _ readTruth (htruth _),
    typesSetting, levelSetting,
    htypesField, hlevel, htexts, Yaml.Leaf.value, readLevel_name]
  rfl

/-! ## Text -/

/-- **Settings are read from their text**, unless the version is too long to be read. -/
theorem ofText_print (p : Path) (htypes : c.types ≠ [])
    (hversion : Notation.isWritable c.version = true) : ofText p c.print = .ok c := by
  have hlists : ∀ e ∈ c.entries, e.2 ≠ .list [] := by
    simp [entries, htypes]
  have hreadable : ∀ e ∈ c.entries, ∀ l ∈ e.2.leaves, l.isReadable = true := by
    simp [entries, Yaml.Entry.leaves, Yaml.Leaf.isReadable, hversion]
  have hne : c.entries ≠ [] := List.cons_ne_nil _ _
  obtain ⟨d, hread, found, hroot, hfound⟩ :=
    Yaml.read_print hne (isKey_of_mem_entries c) (nodup_entries c) hlists hreadable
  have hnull : d.root ≠ .null := by
    intro hnull
    rw [hnull] at hroot
    cases hroot
  rw [ofText, print, hread]
  simp only [hnull, if_false, hroot, Option.bind_some, Compound.entries?,
    ofEntries_of_shows htypes hfound]
  rfl

/-! ## Files -/

/-- A file of settings is read as their text. -/
theorem decodeLines_print (c : Config) : Text.decodeLines c.print.toUTF8 = .ok c.print := by
  refine Text.decodeLines_toUTF8 fun hreturn => ?_
  rcases Yaml.isWritten_print (isKey_of_mem_entries c) _ hreturn with hplain | heq
  · exact absurd hplain (by decide)
  · exact absurd heq (by decide)

variable {t t' : FileTree} {p : Path}

theorem load_of_write (htypes : c.types ≠ []) (hversion : Notation.isWritable c.version = true)
    (hwrite : t.write p c.print.toUTF8 = .ok t') : load t' p = .ok (some c) := by
  obtain ⟨found, hlocate, hfound, rfl⟩ := FileTree.put_of_write hwrite
  have hput := FileTree.locate_put (.file c.print.toUTF8) hlocate hfound
  have hread : (t.put (t.locationOf p) (.file c.print.toUTF8)).read p = .ok c.print.toUTF8 := by
    rw [FileTree.read, hput]
  refine load_eq_ok ?_ ?_ (ofText_print p htypes hversion)
  · rw [FileTree.exists?, FileTree.find?, hput]
    rfl
  · rw [FileTree.readText, hread]
    simp only [Except.mapError, bind, Except.bind, decodeLines_print]

/-- **Saved settings are loaded as they were**, wherever a file can be written. Only a version that
has too many digits to be written is refused. -/
theorem save_loaded {location : Location} {found : Option Entry} (hdata : ofData d = .ok c)
    (hlocate : t.locate p = .ok (location, found)) (hfound : found ≠ some .directory) :
    (Notation.isWritable c.version = true →
        ∃ t', c.save t p = .ok t' ∧ load t' p = .ok (some c)) ∧
      (Notation.isWritable c.version = false →
        c.save t p = .error (.conversion .unwritable)) := by
  have hwrite : t.write p c.print.toUTF8 = .ok (t.put location (.file c.print.toUTF8)) := by
    rw [FileTree.write, hlocate]
    split
    next heq => cases heq; exact absurd rfl hfound
    next heq => cases heq; rfl
    next heq => cases heq
  refine ⟨fun hversion => ⟨_, ?_, load_of_write (types_ne_nil_of_ofData hdata) hversion hwrite⟩,
    fun hversion => ?_⟩
  · rw [save, hversion, hwrite]
    rfl
  · rw [save, hversion]
    rfl

/-! ### Settings that look like other things -/

/-- Paths that look like numbers, truth values, dates, nothing and marks, or cannot be shown. -/
def oddPaths : List String :=
  ["", "-12", "0x1F", "Yes", "2020-01-01", "~", "- a", "key: value", "#", "it's", "\"quoted\"",
    " two\n\n lines ", "a\r\nb\tc\x00", "naïve/日本/😀\u2028"]

def oddData : Data where
  root := .compound 1
  compounds := #[.list (oddPaths.map .text),
    .map [(.text "types", .compound 0), (.text "version", .int (-(10 ^ 30))),
      (.text "schema_path", .text "null"), (.text "log_level", .text "debug"),
      (.text "header", .text "off"), (.text "unknown", .null)]]

def oddConfig : Config where
  version := -(10 ^ 30)
  types := oddPaths
  schemaPath := "null"
  header := false
  logLevel := .debug

theorem oddConfig_loaded : ofData oddData = .ok oddConfig ∧
    ∃ t', oddConfig.save ⟨.empty, []⟩ (.ofText "odd.yaml") = .ok t' ∧
      load t' (.ofText "odd.yaml") = .ok (some oddConfig) := by
  have hdata : ofData oddData = .ok oddConfig := Except.eq_ok_of_toOption (by decide)
  have hlocate : FileTree.locate ⟨.empty, []⟩ (.ofText "odd.yaml") = .ok (["odd.yaml"], none) :=
    Except.eq_ok_of_toOption (by decide +kernel)
  have hversion : Notation.isWritable oddConfig.version = true := by decide +kernel
  exact ⟨hdata, (save_loaded hdata hlocate (by decide)).1 hversion⟩

/-- Nothing is set but a version. -/
def versionData (n : Int) : Data where
  root := .compound 0
  compounds := #[.map [(.text "version", .int n)]]

theorem ofData_versionData (n : Int) : ofData (versionData n) = .ok { version := n } := rfl

/-- The smallest number with more digits than can be written. -/
def longVersion : Int := 10 ^ Notation.mostDigits

theorem isWritable_longVersion : Notation.isWritable longVersion = false := by
  have hbound : ∀ digits : Nat, ¬ Int.natAbs (10 ^ digits) < Nat.pow 10 digits := by
    intro digits
    rw [Int.natAbs_pow]
    exact Nat.lt_irrefl _
  exact decide_eq_false (hbound Notation.mostDigits)

/-- Not all settings that are read from data can be saved and loaded. -/
theorem longVersion_not_loaded :
    ¬ ∀ (d : Data) (c : Config), ofData d = .ok c →
      ∀ (t : FileTree) (p : Path) (location : Location) (found : Option Entry),
        t.locate p = .ok (location, found) → found ≠ some .directory →
          ∃ t', c.save t p = .ok t' ∧ load t' p = .ok (some c) := by
  intro h
  have hlocate : FileTree.locate ⟨.empty, []⟩ (.ofText "a.yaml") = .ok (["a.yaml"], none) :=
    Except.eq_ok_of_toOption (by decide +kernel)
  obtain ⟨t', hsave, -⟩ := h _ _ (ofData_versionData longVersion) _ _ _ _ hlocate nofun
  rw [save, isWritable_longVersion] at hsave
  cases hsave

end CrudSchema.Config
