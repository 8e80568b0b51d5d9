import CrudSchema.FileTree
import CrudSchema.Proofs.OrderedMap

/-!
# What writing does to a file tree

**Where a path leads** (`locationOf`). The tree has no links, so the names of a path alone tell the
location, and what stands on the way only decides whether one gets there. The locations on the way
(`OnWay`) are those that the beginnings of the names lead to.

**Looking up again** (`locate_of_kept`). Everything on the way of a path is a directory, so as long
as directories are kept the path leads where it led. What is put at a location where no directory
stands is found there by the same path (`locate_put`).

**Making directories** (`Furnished`). Directories are made where nothing is, and only on the way to
the one that is asked for, even if not all of them can be made (`furnished_makeDirectories`).

**Writing** (`Receives`). With the directories it is in, a file is all that a tree gains
(`receives_of_write`).
-/

namespace CrudSchema.FileTree

variable {t t' t'' : FileTree} {p : Path} {location : Location} {found : Option Entry}

/-! ## Where a path leads -/

/-- The location a path leads to, whatever stands on the way. -/
def locationOf (t : FileTree) (p : Path) : Location := p.parts.foldl neighbour (t.start p)

/-- The location is the end of a path or on the way to it. -/
def OnWay (t : FileTree) (p : Path) (location : Location) : Prop :=
  ∃ names, names <+: p.parts ∧ names.foldl neighbour (t.start p) = location

theorem start_eq (h : t'.current = t.current) (p : Path) : t'.start p = t.start p := by
  rw [start, start, h]

theorem locationOf_eq (h : t'.current = t.current) (p : Path) :
    t'.locationOf p = t.locationOf p := by
  rw [locationOf, locationOf, start_eq h]

theorem onWay_self (t : FileTree) (p : Path) : t.OnWay p (t.locationOf p) :=
  ⟨p.parts, List.prefix_rfl, rfl⟩

/-- What is on the way to the parent is on the way. -/
theorem OnWay.of_parent (h : t.OnWay p.parent location) : t.OnWay p location := by
  obtain ⟨names, hnames, hlocation⟩ := h
  exact ⟨names, hnames.trans (List.dropLast_prefix _), hlocation⟩

theorem location_of_follow {here : Location} {names : List String}
    (h : t.follow here names = .ok (location, found)) :
    location = names.foldl neighbour here := by
  fun_induction follow t here names with
  | case1 here =>
    cases h
    rfl
  | case3 here name _ next =>
    simp only [Except.ok.injEq, Prod.mk.injEq] at h
    exact h.1.symm
  | case4 here name _ next rest _ _ ih => exact ih h
  | case2 | case5 | case6 => cases h

/-- What is found by names stands at the location. -/
theorem entry?_of_follow_names {here : Location} {names : List String} (hne : names ≠ [])
    (h : t.follow here names = .ok (location, found)) : t.entry? location = found := by
  fun_induction follow t here names with
  | case1 here => exact absurd rfl hne
  | case3 here name _ next =>
    simp only [Except.ok.injEq, Prod.mk.injEq] at h
    rw [← h.1, h.2]
  | case4 here name _ next rest hrest _ ih => exact ih hrest h
  | case2 | case5 | case6 => cases h

/-- Without names one stays in a directory. -/
theorem names_ne_nil_of_follow {here : Location} {names : List String}
    (h : t.follow here names = .ok (location, found)) (hfound : found ≠ some .directory) :
    names ≠ [] := by
  rintro rfl
  rw [follow] at h
  cases h
  exact hfound rfl

/-- Where no directory is found, what is found stands at the location. -/
theorem entry?_of_follow {here : Location} {names : List String}
    (h : t.follow here names = .ok (location, found)) (hfound : found ≠ some .directory) :
    t.entry? location = found :=
  entry?_of_follow_names (names_ne_nil_of_follow h hfound) h

/-- A path leads somewhere if it can be looked up and its names can be followed. -/
theorem locate_eq_ok_iff : t.locate p = .ok (location, found) ↔
    (∀ name ∈ p.parts, '\x00' ∉ name.toList) ∧ isOverlong p = false ∧
      t.follow (t.start p) p.parts = .ok (location, found) := by
  have hnull : (p.parts.any fun name => name.toList.contains '\x00') = true ↔
      ¬ ∀ name ∈ p.parts, '\x00' ∉ name.toList := by simp
  rw [locate]
  by_cases hvisible : ∀ name ∈ p.parts, '\x00' ∉ name.toList
  · rw [if_neg fun h => hnull.1 h hvisible]
    cases isOverlong p with
    | true => simp
    | false => simpa using fun _ => hvisible
  · rw [if_pos (hnull.2 hvisible)]
    simp only [hvisible, false_and, reduceCtorEq]

theorem follow_of_locate (h : t.locate p = .ok (location, found)) :
    t.follow (t.start p) p.parts = .ok (location, found) :=
  (locate_eq_ok_iff.1 h).2.2

theorem isOverlong_of_locate (h : t.locate p = .ok (location, found)) : isOverlong p = false :=
  (locate_eq_ok_iff.1 h).2.1

theorem location_of_locate (h : t.locate p = .ok (location, found)) :
    location = t.locationOf p :=
  location_of_follow (follow_of_locate h)

theorem entry?_of_locate (h : t.locate p = .ok (location, found))
    (hfound : found ≠ some .directory) : t.entry? (t.locationOf p) = found := by
  rw [← location_of_locate h]
  exact entry?_of_follow (follow_of_locate h) hfound

/-! ## Looking up again -/

/-- The root is always a directory. -/
theorem ne_nil_of_not_directory (h : t.entry? location ≠ some .directory) : location ≠ [] := by
  rintro rfl
  exact h rfl

theorem entry?_put (h : location ≠ []) (e : Entry) (l : Location) :
    FileTree.entry? (t.put location e) l = if l = location then some e else t.entry? l := by
  by_cases hl : l = []
  · subst hl
    rw [if_neg (Ne.symm h)]
    rfl
  · have hempty : ¬ l.isEmpty = true := by simpa using hl
    unfold entry?
    rw [if_neg hempty, if_neg hempty, put, OrderedMap.get?_set]

theorem follow_into {here : Location} {name : String} {rest : List String}
    (hname : ¬ longestName < name.utf8ByteSize) (hrest : rest ≠ [])
    (hdirectory : t.entry? (neighbour here name) = some .directory) :
    t.follow here (name :: rest) = t.follow (neighbour here name) rest := by
  rw [follow, if_neg hname]
  cases rest with
  | nil => exact absurd rfl hrest
  | cons next rest => simp only [hdirectory]

/-- **Names lead where they led as long as directories are kept**, and to what stands there now. -/
theorem follow_of_kept (hkept : ∀ l, t.entry? l = some .directory → t'.entry? l = some .directory)
    {here : Location} {names : List String} (hne : names ≠ [])
    (h : t.follow here names = .ok (location, found)) :
    t'.follow here names = .ok (location, t'.entry? location) := by
  fun_induction follow t here names with
  | case1 here => exact absurd rfl hne
  | case3 here name hname next =>
    simp only [Except.ok.injEq, Prod.mk.injEq] at h
    obtain ⟨rfl, -⟩ := h
    rw [follow, if_neg hname]
  | case4 here name hname next rest hrest hdirectory ih =>
    rw [follow_into hname hrest (hkept _ hdirectory)]
    exact ih hrest h
  | case2 | case5 | case6 => cases h

theorem locate_of_kept (hcurrent : t'.current = t.current)
    (hkept : ∀ l, t.entry? l = some .directory → t'.entry? l = some .directory)
    (hne : p.parts ≠ []) (h : t.locate p = .ok (location, found)) :
    t'.locate p = .ok (location, t'.entry? location) := by
  obtain ⟨hvisible, hlong, hfollow⟩ := locate_eq_ok_iff.1 h
  refine locate_eq_ok_iff.2 ⟨hvisible, hlong, ?_⟩
  rw [start_eq hcurrent]
  exact follow_of_kept hkept hne hfollow

/-- A directory cannot be where something else is put. -/
theorem entry?_put_directory (hentry : t.entry? location ≠ some .directory) (e : Entry)
    (l : Location) (hl : t.entry? l = some .directory) :
    FileTree.entry? (t.put location e) l = some .directory := by
  have hne : l ≠ location := by
    rintro rfl
    exact hentry hl
  rw [entry?_put (ne_nil_of_not_directory hentry), if_neg hne, hl]

/-- **What is put where no directory stands is found by the same names.** -/
theorem locate_put (e : Entry) (h : t.locate p = .ok (location, found))
    (hfound : found ≠ some .directory) :
    (t.put location e).locate p = .ok (location, some e) := by
  have hfollow := follow_of_locate h
  have hentry : t.entry? location ≠ some .directory := entry?_of_follow hfollow hfound ▸ hfound
  have hcurrent : (t.put location e).current = t.current := rfl
  rw [locate_of_kept hcurrent (entry?_put_directory hentry e)
    (names_ne_nil_of_follow hfollow hfound) h, entry?_put (ne_nil_of_not_directory hentry),
    if_pos rfl]

/-! ## Making directories -/

/-- One tree is the other one with directories where nothing was, at locations of some kind. -/
structure Furnished (t t' : FileTree) (Within : Location → Prop) : Prop where
  current : t'.current = t.current
  entries : ∀ l, t'.entry? l = t.entry? l ∨
    Within l ∧ t.entry? l = none ∧ t'.entry? l = some .directory

namespace Furnished

variable {P Q : Location → Prop}

theorem refl (t : FileTree) (P : Location → Prop) : t.Furnished t P := ⟨rfl, fun _ => .inl rfl⟩

theorem mono (h : t.Furnished t' P) (hPQ : ∀ l, P l → Q l) : t.Furnished t' Q :=
  ⟨h.current, fun l => (h.entries l).imp_right fun hl => ⟨hPQ l hl.1, hl.2⟩⟩

theorem trans (h : t.Furnished t' P) (h' : t'.Furnished t'' P) : t.Furnished t'' P := by
  refine ⟨h'.current.trans h.current, fun l => ?_⟩
  rcases h.entries l with hl | ⟨hP, hnone, hdirectory⟩
  · rcases h'.entries l with hl' | ⟨hP, hnone, hdirectory⟩
    · exact .inl (hl'.trans hl)
    · exact .inr ⟨hP, hl ▸ hnone, hdirectory⟩
  · rcases h'.entries l with hl' | ⟨-, hnone', -⟩
    · exact .inr ⟨hP, hnone, hl'.trans hdirectory⟩
    · rw [hdirectory] at hnone'
      cases hnone'

/-- What was there is there still. -/
theorem entry?_some (h : t.Furnished t' P) {l : Location} {e : Entry} (hl : t.entry? l = some e) :
    t'.entry? l = some e := by
  rcases h.entries l with hsame | ⟨-, hnone, -⟩
  · rw [hsame, hl]
  · rw [hl] at hnone
    cases hnone

/-- **A file is found where it was found.** -/
theorem locate_file (h : t.Furnished t' P) {bytes : ByteArray}
    (hlocate : t.locate p = .ok (location, some (.file bytes))) :
    t'.locate p = .ok (location, some (.file bytes)) := by
  have hfollow := follow_of_locate hlocate
  rw [locate_of_kept h.current (fun _ => h.entry?_some) (names_ne_nil_of_follow hfollow nofun)
    hlocate, h.entry?_some (entry?_of_follow hfollow nofun)]

/-- Where no directory is in the end, nothing has changed. -/
theorem entry?_eq (h : t.Furnished t' P) {l : Location} (hl : t'.entry? l ≠ some .directory) :
    t'.entry? l = t.entry? l :=
  (h.entries l).resolve_right fun hmade => hl hmade.2.2

end Furnished

theorem furnished_makeDirectory (h : t.makeDirectory p = .ok t') :
    t.Furnished t' fun l => l = t.locationOf p := by
  rw [makeDirectory] at h
  split at h
  next location hlocate =>
    cases h
    have hnone : t.entry? (t.locationOf p) = none := entry?_of_locate hlocate nofun
    have hroot : t.locationOf p ≠ [] := ne_nil_of_not_directory (by rw [hnone]; nofun)
    obtain rfl := location_of_locate hlocate
    refine ⟨rfl, fun l => ?_⟩
    rw [entry?_put hroot]
    by_cases hl : l = t.locationOf p
    · exact .inr ⟨hl, hl ▸ hnone, if_pos hl⟩
    · exact .inl (if_neg hl)
  · cases h
  · cases h

theorem furnished_ensureDirectory (h : t.ensureDirectory p = .ok t') :
    t.Furnished t' fun l => l = t.locationOf p := by
  rw [ensureDirectory] at h
  split at h
  next hmake =>
    cases h
    exact furnished_makeDirectory hmake
  · split at h
    · cases h
      exact .refl t _
    · cases h

theorem ensureDirectory_of_missing (h : t.locate p = .ok (location, none)) :
    t.ensureDirectory p = .ok (t.put location .directory) := by
  rw [ensureDirectory, makeDirectory, h]

theorem ensureDirectory_of_directory (h : t.locate p = .ok (location, some .directory)) :
    t.ensureDirectory p = .ok t := by
  rw [ensureDirectory, makeDirectory, find?, h]
  rfl

theorem ensureDirectory_of_file {bytes : ByteArray}
    (h : t.locate p = .ok (location, some (.file bytes))) :
    t.ensureDirectory p = .error ⟨.alreadyExists, p⟩ := by
  rw [ensureDirectory, makeDirectory, find?, h]
  rfl

theorem ensureDirectory_of_locate_error {cause : FileError.Cause}
    (h : t.locate p = .error cause) : t.ensureDirectory p = .error ⟨cause, p⟩ := by
  rw [ensureDirectory, makeDirectory, find?, h]
  cases cause <;> rfl

/-- A directory that was made or kept is found. -/
theorem locate_of_ensureDirectory (h : t.ensureDirectory p = .ok t') :
    ∃ location, t'.locate p = .ok (location, some .directory) := by
  rcases hlocate : t.locate p with cause | ⟨location, _ | bytes | _⟩
  · rw [ensureDirectory_of_locate_error hlocate] at h
    cases h
  · rw [ensureDirectory_of_missing hlocate] at h
    cases h
    exact ⟨location, locate_put .directory hlocate nofun⟩
  · rw [ensureDirectory_of_file hlocate] at h
    cases h
  · rw [ensureDirectory_of_directory hlocate] at h
    cases h
    exact ⟨location, hlocate⟩

/-- Nothing is made where a directory is. -/
theorem makeDirectories_of_locate (h : t.locate p = .ok (location, some .directory)) :
    t.makeDirectories p = (.ok (), t) := by
  rw [makeDirectories, ensureDirectory_of_directory h]

/-- **Only missing directories on the way are made**, whether or not all of them can be. -/
theorem furnished_makeDirectories (t : FileTree) (p : Path) :
    t.Furnished (t.makeDirectories p).2 (t.OnWay p) := by
  have hensure : ∀ {u u' : FileTree} {q : Path}, u.ensureDirectory q = .ok u' →
      u.Furnished u' (u.OnWay q) := by
    intro u u' q h
    exact (furnished_ensureDirectory h).mono fun l hl => hl ▸ u.onWay_self q
  fun_induction makeDirectories t p with
  | case1 p t' h => exact hensure h
  | case2 p e _ _ e' t' hparent ih =>
    rw [hparent] at ih
    exact ih.mono fun l => OnWay.of_parent
  | case3 p e _ _ _ t' hparent t'' hmade ih =>
    rw [hparent] at ih
    have hway : ∀ l, t'.OnWay p l → t.OnWay p l := fun l ⟨names, hnames, hl⟩ =>
      ⟨names, hnames, start_eq ih.current p ▸ hl⟩
    exact (ih.mono fun l => OnWay.of_parent).trans ((hensure hmade).mono hway)
  | case4 p e _ _ _ t' hparent _ _ ih =>
    rw [hparent] at ih
    exact ih.mono fun l => OnWay.of_parent
  | case5 p e => exact .refl t _

/-! ## Writing -/

/-- One file, new or not, is in the tree afterwards, and besides it only directories that were
missing on the way to the one it is in. -/
structure Receives (before after : FileTree) (p : Path) (bytes : ByteArray) : Prop where
  current : after.current = before.current
  place : before.entry? (before.locationOf p) ≠ some .directory
  file : after.entry? (before.locationOf p) = some (.file bytes)
  read : after.read p = .ok bytes
  others : ∀ l, l ≠ before.locationOf p → after.entry? l = before.entry? l ∨
    before.OnWay p.parent l ∧ before.entry? l = none ∧ after.entry? l = some .directory

theorem put_of_write {bytes : ByteArray} (h : t.write p bytes = .ok t') :
    ∃ found, t.locate p = .ok (t.locationOf p, found) ∧ found ≠ some .directory ∧
      t' = t.put (t.locationOf p) (.file bytes) := by
  rw [write] at h
  split at h
  · cases h
  next location found hdirectory hlocate =>
    cases h
    obtain rfl := location_of_locate hlocate
    exact ⟨found, hlocate, hdirectory, rfl⟩
  · cases h

/-- **A file is written after the directories on the way to it.** -/
theorem receives_of_write {bytes : ByteArray} (hmade : t.Furnished t' (t.OnWay p.parent))
    (h : t'.write p bytes = .ok t'') : t.Receives t'' p bytes := by
  obtain ⟨found, hlocate, hfound, rfl⟩ := put_of_write h
  have hentry := entry?_of_locate hlocate hfound
  have hplace : t'.entry? (t'.locationOf p) ≠ some .directory := hentry ▸ hfound
  have hput := entry?_put (t := t') (ne_nil_of_not_directory hplace) (.file bytes)
  have hlocation := locationOf_eq hmade.current p
  rw [hlocation] at hput hplace ⊢
  refine ⟨hmade.current, ?_, ?_, ?_, fun l hl => ?_⟩
  · rw [← hmade.entry?_eq hplace]
    exact hplace
  · rw [hput, if_pos rfl]
  · have hfinal := locate_put (.file bytes) hlocate hfound
    rw [hlocation] at hfinal
    rw [read, hfinal]
  · rw [hput, if_neg hl]
    exact hmade.entries l

end CrudSchema.FileTree
