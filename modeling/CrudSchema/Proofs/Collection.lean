import CrudSchema.Proofs.Actions
import CrudSchema.Proofs.FileTree
import CrudSchema.Proofs.Path
import Mathlib.Data.List.Induction

/-!
# Which files some paths stand for

**Trees** (`FileTree.Sound`). What stands in a tree has a name that leads to it, and stands in a
directory. So the declaration files below a directory are just those that paths below its path lead
to (`Sound.mem_declarationsBelow`).

**One path** (`FileTree.StandsFor`). A path to a file stands for itself. A path to a directory
stands for the declaration files below it. A path can be used if it leads to either and nothing
about it is too long to be looked up (`FileTree.Usable`).

**Several paths** (`exists_collect`). They stand for what each of them stands for, and the order
of the result is that of the paths in it. So neither order nor repetition matters, and nothing is
added by a path that was reached already (`Reached`).

Main result: `collect_canonical`.
-/

namespace CrudSchema

namespace FileTree

variable {t : FileTree} {p q : Path} {location : Location} {e : Entry} {err : FileError}
  {names : List String}

/-! ## Trees -/

/-- A name that something in a tree can have. -/
structure IsName (name : String) : Prop where
  part : Path.IsPart name
  onward : name ≠ ".."
  visible : '\x00' ∉ name.toList
  short : name.utf8ByteSize ≤ longestName

/-- Everything has a name and stands in a directory, and so does one who works on the tree. -/
structure Sound (t : FileTree) : Prop where
  placed : ∀ l ∈ t.entries.keys, l ≠ []
  named : ∀ l ∈ t.entries.keys, ∀ name ∈ l, IsName name
  housed : ∀ l ∈ t.entries.keys, t.entry? l.dropLast = some .directory
  current : t.entry? t.current = some .directory

instance (name : String) : Decidable (Path.IsPart name) :=
  inferInstanceAs (Decidable (_ ∧ _ ∧ _))

instance (name : String) : Decidable (IsName name) :=
  decidable_of_iff (Path.IsPart name ∧ name ≠ ".." ∧ '\x00' ∉ name.toList ∧
      name.utf8ByteSize ≤ longestName)
    ⟨fun ⟨hpart, honward, hvisible, hshort⟩ => ⟨hpart, honward, hvisible, hshort⟩,
      fun h => ⟨h.part, h.onward, h.visible, h.short⟩⟩

instance (t : FileTree) : Decidable t.Sound :=
  decidable_of_iff ((∀ l ∈ t.entries.keys, l ≠ []) ∧
      (∀ l ∈ t.entries.keys, ∀ name ∈ l, IsName name) ∧
      (∀ l ∈ t.entries.keys, t.entry? l.dropLast = some .directory) ∧
      t.entry? t.current = some .directory)
    ⟨fun ⟨hplaced, hnamed, hhoused, hcurrent⟩ => ⟨hplaced, hnamed, hhoused, hcurrent⟩,
      fun h => ⟨h.placed, h.named, h.housed, h.current⟩⟩

theorem entry?_eq_some_iff (hne : location ≠ []) :
    t.entry? location = some e ↔ (location, e) ∈ t.entries.entries := by
  rw [FileTree.entry?, if_neg (by simpa using hne)]
  exact OrderedMap.get?_eq_some_iff

theorem namesFrom_eq_some_iff {directory : Location} :
    namesFrom directory location = some names ↔ location = directory ++ names := by
  fun_induction namesFrom directory location with
  | case1 => simp [eq_comm]
  | case2 directory first location ih => simp [ih]
  | case3 name directory first location hne => simpa using fun h => absurd h.symm hne
  | case4 => simp

theorem mem_namesBelow {directory : Location} :
    names ∈ t.namesBelow directory ↔ directory ++ names ∈ t.entries.keys := by
  simp [namesBelow, namesFrom_eq_some_iff]

theorem mem_filesBelow {directory : Location} :
    names ∈ t.filesBelow directory ↔
      ∃ bytes, (directory ++ names, .file bytes) ∈ t.entries.entries := by
  simp only [filesBelow, List.mem_filterMap, Prod.exists]
  constructor
  · rintro ⟨l, e, hmem, hnames⟩
    cases e with
    | directory => cases hnames
    | file bytes => exact ⟨bytes, namesFrom_eq_some_iff.1 hnames ▸ hmem⟩
  · rintro ⟨bytes, hmem⟩
    exact ⟨_, _, hmem, namesFrom_eq_some_iff.2 rfl⟩

namespace Sound

/-- The way to what stands in a tree leads over directories. -/
theorem entry?_prefix (h : t.Sound) {beginning : Location} (hne : names ≠ [])
    (hmem : beginning ++ names ∈ t.entries.keys) : t.entry? beginning = some .directory := by
  induction names using List.reverseRecOn with
  | nil => exact absurd rfl hne
  | append_singleton names name ih =>
    have hhoused := h.housed _ hmem
    rw [← List.append_assoc, List.dropLast_concat] at hhoused
    by_cases hnames : names = []
    · rwa [hnames, List.append_nil] at hhoused
    · have hmem' : (beginning ++ names, Entry.directory) ∈ t.entries.entries :=
        (entry?_eq_some_iff (by simp [hnames])).1 hhoused
      exact ih hnames (OrderedMap.mem_keys_of_mem_entries hmem')

end Sound

theorem foldl_neighbour (h : ".." ∉ names) (here : Location) :
    names.foldl neighbour here = here ++ names := by
  induction names generalizing here with
  | nil => exact (List.append_nil _).symm
  | cons name rest ih =>
    simp only [List.mem_cons, not_or] at h
    rw [List.foldl_cons, ih h.2, neighbour, if_neg (Ne.symm h.1), List.append_assoc]
    rfl

/-- Names are followed from where the names before them lead. -/
theorem follow_append {here : Location} {before : List String}
    (h : t.follow here before = .ok (location, some .directory)) (hne : names ≠ []) :
    t.follow here (before ++ names) = t.follow location names := by
  induction before generalizing here with
  | nil =>
    rw [follow] at h
    cases h
    rfl
  | cons name rest ih =>
    have hname : ¬ longestName < name.utf8ByteSize := by
      intro hlong
      rw [follow, if_pos hlong] at h
      cases h
    have hdirectory : t.entry? (neighbour here name) = some .directory := by
      rw [follow, if_neg hname] at h
      cases rest with
      | nil => exact (Prod.mk.inj (Except.ok.inj h)).2
      | cons second others =>
        cases hentry : t.entry? (neighbour here name) with
        | none => simp [hentry] at h
        | some e =>
          cases e with
          | directory => rfl
          | file => simp [hentry] at h
    rw [List.cons_append, follow_into hname (by simp [hne]) hdirectory]
    cases rest with
    | nil =>
      rw [follow, if_neg hname] at h
      obtain ⟨rfl, -⟩ := Prod.mk.inj (Except.ok.inj h)
      rfl
    | cons second others =>
      rw [follow_into hname (List.cons_ne_nil _ _) hdirectory] at h
      exact ih h

namespace Sound

/-- What stands below a directory is found by the names that lead to it from there. -/
theorem follow_names (h : t.Sound) {here : Location} (hne : names ≠ [])
    (hmem : (here ++ names, e) ∈ t.entries.entries) :
    t.follow here names = .ok (here ++ names, some e) := by
  induction names generalizing here with
  | nil => exact absurd rfl hne
  | cons name rest ih =>
    have hname := h.named _ (OrderedMap.mem_keys_of_mem_entries hmem) name (by simp)
    have hnext : neighbour here name = here ++ [name] := if_neg hname.onward
    cases rest with
    | nil =>
      rw [follow, if_neg (Nat.not_lt.2 hname.short)]
      simp only [hnext, (entry?_eq_some_iff (by simp)).2 hmem]
    | cons second others =>
      have hmem' : (here ++ [name] ++ second :: others, e) ∈ t.entries.entries := by
        simpa using hmem
      have hdirectory : t.entry? (neighbour here name) = some .directory := hnext ▸
        h.entry?_prefix (List.cons_ne_nil _ _) (OrderedMap.mem_keys_of_mem_entries hmem')
      rw [follow_into (Nat.not_lt.2 hname.short) (List.cons_ne_nil _ _) hdirectory, hnext,
        ih (List.cons_ne_nil _ _) hmem', List.append_assoc]
      rfl

/-- Where a path leads to a directory, one stands. -/
theorem entry?_of_directory (h : t.Sound) (hp : t.locate p = .ok (location, some .directory)) :
    t.entry? location = some .directory := by
  have hfollow := follow_of_locate hp
  have hstart : t.entry? (t.start p) = some .directory := by
    rw [start]
    split
    · exact h.current
    · rfl
  generalize t.start p = here, p.parts = names at hfollow hstart
  fun_induction follow t here names with
  | case1 here =>
    cases hfollow
    exact hstart
  | case3 here name _ next =>
    simp only [Except.ok.injEq, Prod.mk.injEq] at hfollow
    exact hfollow.1 ▸ hfollow.2
  | case4 here name _ next rest _ hdirectory ih => exact ih hfollow hdirectory
  | case2 | case5 | case6 => cases hfollow

end Sound

/-! ## One path -/

def LeadsToFile (t : FileTree) (p : Path) : Prop :=
  ∃ location bytes, t.find? p = .ok (some (location, .file bytes))

def LeadsToDirectory (t : FileTree) (p : Path) : Prop :=
  ∃ location, t.find? p = .ok (some (location, .directory))

def LeadsNowhere (t : FileTree) (p : Path) : Prop := t.find? p = .ok none

/-- A path is too long to be looked up, or leads to a directory with something below that has
such a path. -/
def Overlong (t : FileTree) (p : Path) : Prop :=
  (∃ q, t.find? p = .error ⟨.nameTooLong, q⟩) ∨
    t.LeadsToDirectory p ∧ ∃ q, q.Below p ∧ t.entry? (t.locationOf q) ≠ none ∧ isOverlong q = true

/-- A path leads somewhere, and nothing about it is too long. -/
def Usable (t : FileTree) (p : Path) : Prop :=
  (t.LeadsToFile p ∨ t.LeadsToDirectory p) ∧ ¬ t.Overlong p

/-- The files that a path stands for: itself, or the declaration files below it. -/
def StandsFor (t : FileTree) (p q : Path) : Prop :=
  t.LeadsToFile p ∧ q = p ∨
    t.LeadsToDirectory p ∧ q.Below p ∧ t.LeadsToFile q ∧ q.suffix ∈ declarationSuffixes

theorem find?_of_locate (h : t.locate p = .ok (location, some e)) :
    t.find? p = .ok (some (location, e)) := by
  rw [find?, h]
  rfl

theorem locate_of_find? (h : t.find? p = .ok (some (location, e))) :
    t.locate p = .ok (location, some e) := by
  rw [find?] at h
  split at h
  next l found hlocate =>
    cases found with
    | none => cases h
    | some e' =>
      cases h
      exact hlocate
  · cases h
  · cases h

theorem find?_eq_error (h : t.find? p = .error err) : err = ⟨.nameTooLong, p⟩ := by
  rw [find?] at h
  split at h
  · cases h
  · cases h
    rfl
  · cases h

/-- A path can be used, leads nowhere, or is too long. -/
theorem usable_or (t : FileTree) (p : Path) : t.Usable p ∨ t.LeadsNowhere p ∨ t.Overlong p := by
  rcases hfind : t.find? p with err | found
  · exact .inr (.inr (.inl ⟨p, find?_eq_error hfind ▸ hfind⟩))
  · rcases found with _ | ⟨l, e⟩
    · exact .inr (.inl hfind)
    · have hleads : t.LeadsToFile p ∨ t.LeadsToDirectory p := by
        cases e with
        | file bytes => exact .inl ⟨l, bytes, hfind⟩
        | directory => exact .inr ⟨l, hfind⟩
      by_cases hlong : t.Overlong p
      · exact .inr (.inr hlong)
      · exact .inl ⟨hleads, hlong⟩

theorem not_leadsToFile_of_directory (h : t.LeadsToDirectory p) : ¬ t.LeadsToFile p := by
  obtain ⟨l, hfind⟩ := h
  rintro ⟨l', bytes, hfind'⟩
  rw [hfind] at hfind'
  cases hfind'

theorem not_leads_of_error (h : t.find? p = .error err) :
    ¬ t.LeadsToFile p ∧ ¬ t.LeadsToDirectory p := by
  constructor
  · rintro ⟨l, bytes, hfind⟩
    rw [h] at hfind
    cases hfind
  · rintro ⟨l, hfind⟩
    rw [h] at hfind
    cases hfind

/-- A name that is too long is not looked up. -/
theorem find?_of_long (t : FileTree) {name : String} (hpart : Path.IsPart name)
    (hvisible : '\x00' ∉ name.toList) (hlong : longestName < name.utf8ByteSize) :
    t.find? (.ofText name) = .error ⟨.nameTooLong, .ofText name⟩ := by
  have hparts := (Path.ofText_of_isPart hpart).2
  have hlocate : t.locate (.ofText name) = .error .nameTooLong := by
    rw [locate, hparts, if_neg (by simpa using hvisible), follow, if_pos hlong, ite_self]
  rw [find?, hlocate]

theorem filesAt_of_leadsNowhere (h : t.LeadsNowhere p) :
    filesAt t p = .error (.config (.missingDeclarations p)) := by
  have hfind : t.find? p = .ok none := h
  simp only [filesAt, hfind]

/-! ### What is below a directory -/

theorem locationOf_extend (hanchor : q.anchor = p.anchor) (hparts : q.parts = p.parts ++ names)
    (hup : ".." ∉ names) : t.locationOf q = t.locationOf p ++ names := by
  rw [locationOf, locationOf, start, start, hanchor, hparts, List.foldl_append,
    foldl_neighbour hup]

namespace Sound

/-- What is below a directory is found by the path that goes on to it. -/
theorem locate_extend (h : t.Sound) (hp : t.locate p = .ok (location, some .directory))
    (hne : names ≠ []) (hmem : (location ++ names, e) ∈ t.entries.entries)
    (hlong : isOverlong (p.extend names) = false) :
    t.locate (p.extend names) = .ok (location ++ names, some e) := by
  have hnamed : ∀ name ∈ names, IsName name := fun name hname =>
    h.named _ (OrderedMap.mem_keys_of_mem_entries hmem) name (List.mem_append_right _ hname)
  obtain ⟨hanchor, hparts⟩ := Path.extend_of_isPart (fun name hname => (hnamed name hname).part) p
  obtain ⟨hvisible, -, hfollow⟩ := locate_eq_ok_iff.1 hp
  refine locate_eq_ok_iff.2 ⟨?_, hlong, ?_⟩
  · rw [hparts, List.forall_mem_append]
    exact ⟨hvisible, fun name hname => (hnamed name hname).visible⟩
  · rw [start, hanchor, ← start, hparts, follow_append hfollow hne, h.follow_names hne hmem]

theorem names_ne_nil (h : t.Sound) (hp : t.locate p = .ok (location, some .directory))
    {bytes : ByteArray} (hmem : (location ++ names, .file bytes) ∈ t.entries.entries) :
    names ≠ [] := by
  rintro rfl
  rw [List.append_nil] at hmem
  have hne : location ≠ [] := h.placed _ (OrderedMap.mem_keys_of_mem_entries hmem)
  have hdirectory := h.entry?_of_directory hp
  rw [(entry?_eq_some_iff hne).2 hmem] at hdirectory
  cases hdirectory

theorem below_of_mem (h : t.Sound) (hne : names ≠ []) (hmem : location ++ names ∈ t.entries.keys) :
    (p.extend names).Below p :=
  Path.below_extend hne (fun name hname =>
    have hnamed := h.named _ hmem name (List.mem_append_right _ hname)
    ⟨hnamed.part, hnamed.onward⟩) p

/-- What is too long below a directory is what is found to be. -/
theorem overlongBelow?_eq_none (h : t.Sound) (hp : t.locate p = .ok (location, some .directory))
    (hlong : ¬ t.Overlong p) : overlongBelow? t p location = none := by
  rw [overlongBelow?, List.find?_eq_none]
  intro q hq hover
  obtain ⟨names, hnames, rfl⟩ := List.mem_map.1 hq
  rw [mem_namesBelow] at hnames
  by_cases hne : names = []
  · subst hne
    rw [isOverlong_of_locate (show t.locate (p.extend []) = _ from hp)] at hover
    cases hover
  · have hbelow : (p.extend names).Below p := h.below_of_mem hne hnames
    refine hlong (.inr ⟨⟨location, find?_of_locate hp⟩, _, hbelow, ?_, hover⟩)
    obtain ⟨e, hmem⟩ : ∃ e, (location ++ names, e) ∈ t.entries.entries := by
      simpa [OrderedMap.keys] using hnames
    have hnamed : ∀ name ∈ names, IsName name := fun name hname =>
      h.named _ hnames name (List.mem_append_right _ hname)
    obtain ⟨hanchor, hparts⟩ :=
      Path.extend_of_isPart (fun name hname => (hnamed name hname).part) p
    rw [locationOf_extend hanchor hparts fun hup => (hnamed _ hup).onward rfl,
      ← location_of_locate hp, (entry?_eq_some_iff (by simp [hne])).2 hmem]
    exact Option.some_ne_none e

theorem exists_overlongBelow? (h : t.Sound) (hp : t.locate p = .ok (location, some .directory))
    (hbelow : q.Below p) (hentry : t.entry? (t.locationOf q) ≠ none)
    (hlong : isOverlong q = true) :
    ∃ r, r.Below p ∧ overlongBelow? t p location = some r := by
  obtain ⟨names, hne, hup, hparts, rfl⟩ := hbelow.exists_extend
  rw [locationOf_extend hbelow.1 hparts hup, ← location_of_locate hp] at hentry
  obtain ⟨e, hsome⟩ := Option.ne_none_iff_exists'.1 hentry
  have hmem := (entry?_eq_some_iff (by simp [hne])).1 hsome
  have hfound : ((t.namesBelow location).map p.extend).find? isOverlong ≠ none := by
    rw [Ne, List.find?_eq_none]
    intro hall
    refine hall (p.extend names) (List.mem_map.2 ⟨names, ?_, rfl⟩) hlong
    exact mem_namesBelow.2 (OrderedMap.mem_keys_of_mem_entries hmem)
  obtain ⟨r, hr⟩ := Option.ne_none_iff_exists'.1 hfound
  refine ⟨r, ?_, hr⟩
  obtain ⟨names', hnames', rfl⟩ := List.mem_map.1 (List.mem_of_find?_eq_some hr)
  refine h.below_of_mem ?_ (mem_namesBelow.1 hnames')
  rintro rfl
  have hover : isOverlong p = true := List.find?_some hr
  rw [isOverlong_of_locate hp] at hover
  cases hover

/-- **The declaration files below a directory are those that paths below its path lead to.** -/
theorem mem_declarationsBelow (h : t.Sound) (hp : t.locate p = .ok (location, some .directory))
    (hlong : ¬ t.Overlong p) : q ∈ declarationsBelow t p location ↔
      q.Below p ∧ t.LeadsToFile q ∧ q.suffix ∈ declarationSuffixes := by
  simp only [declarationsBelow, List.mem_filter, List.mem_map, mem_filesBelow,
    List.contains_iff_mem]
  constructor
  · rintro ⟨⟨names, ⟨bytes, hmem⟩, rfl⟩, hsuffix⟩
    have hne := h.names_ne_nil hp hmem
    have hbelow := h.below_of_mem (p := p) hne (OrderedMap.mem_keys_of_mem_entries hmem)
    refine ⟨hbelow, ⟨location ++ names, bytes, ?_⟩, hsuffix⟩
    refine find?_of_locate (h.locate_extend hp hne hmem ?_)
    have hnone := h.overlongBelow?_eq_none hp hlong
    rw [overlongBelow?, List.find?_eq_none] at hnone
    have hmem' := mem_namesBelow.2 (OrderedMap.mem_keys_of_mem_entries hmem)
    simpa using hnone _ (List.mem_map.2 ⟨names, hmem', rfl⟩)
  · rintro ⟨hbelow, ⟨l, bytes, hfind⟩, hsuffix⟩
    obtain ⟨names, hne, hup, hparts, rfl⟩ := hbelow.exists_extend
    have hlocate := locate_of_find? hfind
    have hentry := entry?_of_locate hlocate nofun
    rw [locationOf_extend hbelow.1 hparts hup, ← location_of_locate hp] at hentry
    exact ⟨⟨names, ⟨bytes, (entry?_eq_some_iff (by simp [hne])).1 hentry⟩, rfl⟩, hsuffix⟩

/-! ### The files of one path -/

theorem exists_filesAt (h : t.Sound) (hp : t.Usable p) :
    ∃ files, filesAt t p = .ok files ∧ ∀ q, q ∈ files ↔ t.StandsFor p q := by
  obtain ⟨⟨l, bytes, hfind⟩ | ⟨l, hfind⟩, hlong⟩ := hp
  · have hno : ¬ t.LeadsToDirectory p := fun hdirectory =>
      not_leadsToFile_of_directory hdirectory ⟨l, bytes, hfind⟩
    refine ⟨[p], by simp only [filesAt, hfind], fun q => ?_⟩
    rw [List.mem_singleton, StandsFor]
    exact ⟨fun hq => .inl ⟨⟨l, bytes, hfind⟩, hq⟩, fun hq => hq.elim And.right
      fun hd => absurd hd.1 hno⟩
  · have hlocate := locate_of_find? hfind
    have hdirectory : t.LeadsToDirectory p := ⟨l, hfind⟩
    refine ⟨declarationsBelow t p l, ?_, fun q => ?_⟩
    · simp only [filesAt, hfind, h.overlongBelow?_eq_none hlocate hlong]
    · rw [h.mem_declarationsBelow hlocate hlong, StandsFor]
      exact ⟨fun hq => .inr ⟨hdirectory, hq⟩, fun hq => hq.elim
        (fun hfile => absurd hfile.1 (not_leadsToFile_of_directory hdirectory)) And.right⟩

theorem exists_filesAt_of_overlong (h : t.Sound) (hp : t.Overlong p) :
    ∃ q, (q = p ∨ q.Below p) ∧ filesAt t p = .error (.file ⟨.nameTooLong, q⟩) := by
  obtain ⟨q, hfind⟩ | ⟨⟨l, hfind⟩, q, hbelow, hentry, hlong⟩ := hp
  · obtain ⟨-, rfl⟩ := FileError.mk.inj (find?_eq_error hfind)
    exact ⟨q, .inl rfl, by simp only [filesAt, hfind]⟩
  · obtain ⟨r, hr, hfound⟩ := h.exists_overlongBelow? (locate_of_find? hfind) hbelow hentry hlong
    exact ⟨r, .inr hr, by simp only [filesAt, hfind, hfound]⟩

end Sound

end FileTree

/-! ## Several paths -/

theorem Except.exists_mapM {ε α β : Type} {f : α → Except ε β} {R : α → β → Prop} {l : List α}
    (h : ∀ a ∈ l, ∃ b, f a = .ok b ∧ R a b) :
    ∃ bs, l.mapM f = .ok bs ∧ List.Forall₂ R l bs := by
  induction l with
  | nil => exact ⟨[], rfl, .nil⟩
  | cons a rest ih =>
    obtain ⟨b, hb, hR⟩ := h a List.mem_cons_self
    obtain ⟨bs, hbs, hall⟩ := ih fun c hc => h c (List.mem_cons_of_mem _ hc)
    refine ⟨b :: bs, ?_, .cons hR hall⟩
    rw [List.mapM_cons, hb, hbs]
    rfl

theorem Except.mapM_congr {ε α β : Type} {f g : α → Except ε β} {l : List α}
    (h : ∀ a ∈ l, f a = g a) : l.mapM f = l.mapM g := by
  induction l with
  | nil => rfl
  | cons a rest ih =>
    rw [List.mapM_cons, List.mapM_cons, h a List.mem_cons_self,
      ih fun b hb => h b (List.mem_cons_of_mem _ hb)]

/-- The first fault on the way through a list is the fault of all. -/
theorem Except.mapM_of_first_error {ε α β : Type} {f : α → Except ε β} {before after : List α}
    {a : α} {e : ε} (hbefore : ∀ b ∈ before, ∃ c, f b = .ok c) (ha : f a = .error e) :
    (before ++ a :: after).mapM f = .error e := by
  induction before with
  | nil =>
    rw [List.nil_append, List.mapM_cons, ha]
    rfl
  | cons b rest ih =>
    obtain ⟨c, hc⟩ := hbefore b List.mem_cons_self
    rw [List.cons_append, List.mapM_cons, hc, ih fun d hd => hbefore d (List.mem_cons_of_mem _ hd)]
    rfl

open FileTree

variable {t : FileTree} {paths others : List String}

/-- Paths that can be used stand together for what each of them stands for. -/
theorem exists_collect (h : t.Sound) (hpaths : ∀ path ∈ paths, t.Usable (.ofText path)) :
    ∃ found, collect t paths = .ok (Path.sorted found) ∧
      ∀ q, q ∈ found ↔ ∃ path ∈ paths, t.StandsFor (.ofText path) q := by
  obtain ⟨lists, hlists, hall⟩ := Except.exists_mapM (f := fun path => filesAt t (.ofText path))
    (R := fun path files => ∀ q, q ∈ files ↔ t.StandsFor (.ofText path) q)
    fun path hpath => h.exists_filesAt (hpaths path hpath)
  refine ⟨lists.flatten, by rw [collect, hlists]; rfl, fun q => ?_⟩
  clear hlists hpaths
  induction hall with
  | nil => simp
  | cons hfirst _ ih => simp [hfirst, ih]

theorem collect_of_first_error {before : List String} {path : String} (after : List String)
    {e : Fault} (h : t.Sound) (hbefore : ∀ p ∈ before, t.Usable (.ofText p))
    (hpath : filesAt t (.ofText path) = .error e) :
    collect t (before ++ path :: after) = .error e := by
  have hfailed :
      (before ++ path :: after).mapM (fun path => filesAt t (.ofText path)) = .error e := by
    refine Except.mapM_of_first_error (fun p hp => ?_) hpath
    obtain ⟨files, hfiles, -⟩ := h.exists_filesAt (hbefore p hp)
    exact ⟨files, hfiles⟩
  rw [collect, hfailed]
  rfl

theorem Logged.ofExcept_bind_congr {ε α β : Type} {r : Except ε α} {f g : α → Logged ε β}
    (h : ∀ a, r = .ok a → f a = g a) :
    Logged.ofExcept r >>= f = Logged.ofExcept r >>= g := by
  cases r with
  | error => rfl
  | ok a => exact congrArg (fun x => Logged.ofExcept (.ok a) >>= fun _ => x) (h a rfl)

/-- Nothing is loaded if the files are not found. -/
theorem loadPaths_of_collect_error {e : Fault} (h : collect t paths = .error e)
    (workers : Option Int) : loadPaths t paths workers = .fail e := by
  rw [loadPaths, h]
  rfl

/-- What is loaded depends on the files alone. -/
theorem loadPaths_congr {t' : FileTree} (h : collect t' others = collect t paths)
    (hread : ∀ files, collect t paths = .ok files → ∀ q ∈ files, t'.readText q = t.readText q)
    (workers : Option Int) : loadPaths t' others workers = loadPaths t paths workers := by
  rw [loadPaths, loadPaths, h]
  rcases hfiles : collect t paths with e | files
  · rfl
  · have htexts := Except.mapM_congr (hread files hfiles)
    refine Logged.ofExcept_bind_congr fun files' hfiles' => ?_
    cases hfiles'
    simp only [htexts]

theorem declarationsAt_congr {t' : FileTree} (h : collect t' others = collect t paths)
    (hread : ∀ files, collect t paths = .ok files → ∀ q ∈ files, t'.readText q = t.readText q) :
    CommandLine.Action.declarationsAt t' others = CommandLine.Action.declarationsAt t paths := by
  rw [CommandLine.Action.declarationsAt, CommandLine.Action.declarationsAt,
    loadPaths_congr h hread]

/-- The search below a listed directory came by a path: a declaration file, or a directory. -/
def Reached (t : FileTree) (paths : List String) (p : Path) : Prop :=
  ∃ path ∈ paths, t.LeadsToDirectory (.ofText path) ∧ p.Below (.ofText path) ∧
    (t.LeadsToDirectory p ∨ t.LeadsToFile p ∧ p.suffix ∈ declarationSuffixes)

/-- The paths of another list are the same, whatever their order and however often they are there,
or more of them that were reached. -/
structure AddsReached (t : FileTree) (paths others : List String) : Prop where
  kept : ∀ path ∈ paths, Path.ofText path ∈ others.map Path.ofText
  reached : ∀ path ∈ others,
    Path.ofText path ∈ paths.map Path.ofText ∨ Reached t paths (.ofText path)

theorem Reached.usable {p : Path} (hpaths : ∀ path ∈ paths, t.Usable (.ofText path))
    (h : Reached t paths p) : t.Usable p := by
  obtain ⟨path, hpath, hdirectory, hbelow, hleads⟩ := h
  obtain ⟨-, hlong⟩ := hpaths path hpath
  refine ⟨hleads.symm.imp_left And.left, ?_⟩
  rintro (⟨q, hfind⟩ | ⟨-, q, hq, hentry, hover⟩)
  · rcases hleads with ⟨l, hfind'⟩ | ⟨⟨l, bytes, hfind'⟩, -⟩
    · rw [hfind] at hfind'
      cases hfind'
    · rw [hfind] at hfind'
      cases hfind'
  · exact hlong (.inr ⟨hdirectory, q, hq.trans hbelow, hentry, hover⟩)

/-- A path that was reached stands for nothing new. -/
theorem Reached.exists_standsFor {p q : Path} (h : Reached t paths p) (hq : t.StandsFor p q) :
    ∃ path ∈ paths, t.StandsFor (.ofText path) q := by
  obtain ⟨path, hpath, hdirectory, hbelow, hleads⟩ := h
  refine ⟨path, hpath, .inr ⟨hdirectory, ?_⟩⟩
  rcases hq with ⟨hfile, rfl⟩ | ⟨-, hbelow', hfile, hsuffix⟩
  · refine ⟨hbelow, hfile, ?_⟩
    rcases hleads with hno | ⟨-, hsuffix⟩
    · exact absurd hfile (not_leadsToFile_of_directory hno)
    · exact hsuffix
  · exact ⟨hbelow'.trans hbelow, hfile, hsuffix⟩

theorem AddsReached.collect_eq (hadds : AddsReached t paths others) (h : t.Sound)
    (hpaths : ∀ path ∈ paths, t.Usable (.ofText path)) : collect t others = collect t paths := by
  have hothers : ∀ path ∈ others, t.Usable (.ofText path) := by
    intro path hpath
    rcases hadds.reached path hpath with hmem | hreached
    · obtain ⟨path', hpath', heq⟩ := List.mem_map.1 hmem
      exact heq ▸ hpaths path' hpath'
    · exact hreached.usable hpaths
  obtain ⟨found, hfound, hmem⟩ := exists_collect h hpaths
  obtain ⟨found', hfound', hmem'⟩ := exists_collect h hothers
  rw [hfound, hfound', Path.sorted_eq_iff.2 fun q => ?_]
  rw [hmem, hmem']
  constructor
  · rintro ⟨path, hpath, hq⟩
    rcases hadds.reached path hpath with hmem | hreached
    · obtain ⟨path', hpath', heq⟩ := List.mem_map.1 hmem
      exact ⟨path', hpath', heq ▸ hq⟩
    · exact hreached.exists_standsFor hq
  · rintro ⟨path, hpath, hq⟩
    obtain ⟨path', hpath', heq⟩ := List.mem_map.1 (hadds.kept path hpath)
    exact ⟨path', hpath', heq ▸ hq⟩

/-! ## Collecting -/

/-- What collecting comes to: for paths that can be used their files, as a matter of which paths
they are, and else the fault of the first that cannot. -/
structure Canonical (t : FileTree) (paths : List String) : Prop where
  collected : (∀ path ∈ paths, t.Usable (.ofText path)) → ∃ files, collect t paths = .ok files ∧
    files.Pairwise (· < ·) ∧ (∀ q, q ∈ files ↔ ∃ path ∈ paths, t.StandsFor (.ofText path) q) ∧
    ∀ others, AddsReached t paths others → collect t others = .ok files ∧
      (∀ workers, loadPaths t others workers = loadPaths t paths workers) ∧
      CommandLine.Action.declarationsAt t others = CommandLine.Action.declarationsAt t paths
  refused : ∀ before path after, paths = before ++ path :: after →
    (∀ p ∈ before, t.Usable (.ofText p)) → ¬ t.Usable (.ofText path) →
    ∃ e, collect t paths = .error e ∧ (∀ workers, loadPaths t paths workers = .fail e) ∧
      (t.LeadsNowhere (.ofText path) ∧ e = .config (.missingDeclarations (.ofText path)) ∨
        t.Overlong (.ofText path) ∧ ∃ q, (q = .ofText path ∨ q.Below (.ofText path)) ∧
          e = .file ⟨.nameTooLong, q⟩)

/-- **File collection is canonical**, and fails for the first path in order that leads nowhere or is
too long to be looked up. -/
theorem collect_canonical {t : FileTree} (h : t.Sound) (paths : List String) :
    Canonical t paths := by
  constructor
  · intro hpaths
    obtain ⟨found, hfound, hmem⟩ := exists_collect h hpaths
    refine ⟨_, hfound, Path.pairwise_sorted _, fun q => by rw [Path.mem_sorted, hmem], ?_⟩
    intro others hadds
    have hcollect := hadds.collect_eq h hpaths
    exact ⟨hcollect.trans hfound, loadPaths_congr hcollect fun _ _ _ _ => rfl,
      declarationsAt_congr hcollect fun _ _ _ _ => rfl⟩
  · rintro before path after rfl hbefore hpath
    rcases t.usable_or (.ofText path) with husable | hnowhere | hlong
    · exact absurd husable hpath
    · have hcollect := collect_of_first_error after h hbefore
        (filesAt_of_leadsNowhere hnowhere)
      exact ⟨_, hcollect, loadPaths_of_collect_error hcollect, .inl ⟨hnowhere, rfl⟩⟩
    · obtain ⟨q, hq, hfault⟩ := h.exists_filesAt_of_overlong hlong
      have hcollect := collect_of_first_error after h hbefore hfault
      exact ⟨_, hcollect, loadPaths_of_collect_error hcollect, .inr ⟨hlong, q, hq, rfl⟩⟩

/-! ## A shelf of declarations -/

/-- Declarations in a directory and in one within it, with notes beside them. -/
def shelf : FileTree where
  entries := .ofList [(["notes.txt"], .file .empty), (["types"], .directory),
    (["types", "b.gql"], .file .empty), (["types", "drafts"], .directory),
    (["types", "drafts", "a.graphql"], .file .empty),
    (["types", "drafts", "old.txt"], .file .empty)]
  current := []

theorem shelf_sound : shelf.Sound := by decide

/-- The notes count as they are listed, the old draft does not. -/
theorem shelf_canonical :
    shelf.Sound ∧ Canonical shelf ["types", "notes.txt", "types/drafts/"] ∧
      collect shelf ["types", "notes.txt", "types/drafts/"] =
        .ok (["notes.txt", "types/b.gql", "types/drafts/a.graphql"].map .ofText) :=
  ⟨shelf_sound, collect_canonical shelf_sound _, Except.eq_ok_of_toOption (by decide +kernel)⟩

/-- Many letters are a name that is too long. -/
theorem FileTree.find?_replicate (t : FileTree) {n : Nat} (hn : longestName < n) :
    t.find? (.ofText (String.ofList (List.replicate n 'a'))) =
      .error ⟨.nameTooLong, .ofText (String.ofList (List.replicate n 'a'))⟩ := by
  have hone : 1 < n := Nat.lt_trans (by decide) hn
  have hsize : (String.ofList (List.replicate n 'a')).utf8ByteSize = n := by
    rw [String.utf8ByteSize_ofList]
    clear hn hone
    induction n with
    | zero => rfl
    | succ k ih =>
      rw [List.replicate_succ, String.utf8Len_cons, ih, Char.utf8Size_eq_one_iff.2 (by decide)]
  refine t.find?_of_long ⟨?_, ?_, by simp⟩ (by simp) (hsize.symm ▸ hn)
  · intro h
    have hempty : n = 0 := hsize.symm.trans (congrArg String.utf8ByteSize h)
    omega
  · intro h
    have hdot : n = 1 := hsize.symm.trans (congrArg String.utf8ByteSize h)
    omega

/-- A path that leads nowhere is not always said to be missing: it may be too long to tell. -/
theorem longName_not_missing : ¬ ∀ (t : FileTree) (paths : List String), t.Sound →
    (∃ path ∈ paths, ¬ t.LeadsToFile (.ofText path) ∧ ¬ t.LeadsToDirectory (.ofText path)) →
    ∃ path ∈ paths, ¬ t.LeadsToFile (.ofText path) ∧ ¬ t.LeadsToDirectory (.ofText path) ∧
      collect t paths = .error (.config (.missingDeclarations (.ofText path))) := by
  intro h
  obtain ⟨n, hn⟩ : ∃ n, longestName < n := ⟨256, by decide⟩
  have hfind := shelf.find?_replicate hn
  generalize String.ofList (List.replicate n 'a') = name at hfind
  obtain ⟨path, -, -, -, hmissing⟩ := h shelf [name] shelf_sound
    ⟨name, List.mem_singleton_self _, not_leads_of_error hfind⟩
  have hfiles : filesAt shelf (.ofText name) = .error (.file ⟨.nameTooLong, .ofText name⟩) := by
    simp only [filesAt, hfind]
  have hcollect : collect shelf [name] = _ :=
    collect_of_first_error [] shelf_sound (List.forall_mem_nil _) hfiles
  rw [hmissing] at hcollect
  cases hcollect

end CrudSchema
