import CrudSchema.Proofs.Registry

/-!
# When documents merge, and to what

**Consistent declarations** (`Consistent`). Each is acceptable by itself, and those of one name have
one shape. That is a condition on all pairs, and no order is part of it.

**What is wrong with a declaration** (`Violates`). Among the declarations before it, one can have a
reserved name, else repeat a field, else differ from the first of its name. A list is consistent
exactly when none of its members violates anything (`consistent_concat`).

**Registries as views** (`Registry.Reflects`). A registry compares a declaration with the first one
of its name only. That suffices, because what it holds are the first declarations of a consistent
list in order of first occurrence: a step keeps this or ends the run with a violation
(`Reflects.judge_eq_error_iff`, `Reflects.add`, `Reflects.skip`), and so does a whole run
(`Reflects.registerAll`).

Main result: `merge_exact`.
-/

namespace CrudSchema

/-! ## Consistent declarations -/

/-- The first declaration of a name. -/
def firstNamed? (l : List Sourced) (name : String) : Option Sourced :=
  l.find? fun s => s.declaration.name = name

structure Consistent (l : List Sourced) : Prop where
  acceptable : ∀ s ∈ l, s.declaration.Acceptable
  agree : ∀ s ∈ l, ∀ t ∈ l, s.declaration.name = t.declaration.name →
    s.declaration.shape = t.declaration.shape

instance (d : Declaration) : Decidable d.Acceptable :=
  decidable_of_iff (d.name ∉ reservedNames ∧ d.fieldNames.Nodup)
    ⟨fun h => ⟨h.1, h.2⟩, fun h => ⟨h.unreserved, h.distinct⟩⟩

instance (l : List Sourced) : Decidable (Consistent l) :=
  decidable_of_iff ((∀ s ∈ l, s.declaration.Acceptable) ∧
      ∀ s ∈ l, ∀ t ∈ l, s.declaration.name = t.declaration.name →
        s.declaration.shape = t.declaration.shape)
    ⟨fun h => ⟨h.1, h.2⟩, fun h => ⟨h.acceptable, h.agree⟩⟩

/-- What is wrong with a declaration by itself or beside those before it. The fields before a
repeated one are distinct, so it is the first that repeats another. -/
inductive Violates (before : List Sourced) (s : Sourced) : SynthesisError → Prop where
  | reserved (name : s.declaration.name ∈ reservedNames) :
      Violates before s (.reservedName s.declaration.name)
  | repeated {fields rest : List String} {field : String}
      (unreserved : s.declaration.name ∉ reservedNames)
      (names : s.declaration.fieldNames = fields ++ field :: rest)
      (distinct : fields.Nodup) (again : field ∈ fields) :
      Violates before s (.duplicateField s.declaration.name field (some s.source))
  | differs {first : Sourced} (acceptable : s.declaration.Acceptable)
      (known : firstNamed? before s.declaration.name = some first)
      (differs : first.declaration.shape ≠ s.declaration.shape) :
      Violates before s (.duplicateType s.declaration.name [first.source, s.source] none none)

theorem repeatedName?_eq_some_iff {seen names : List String} {n : String} :
    repeatedName? seen names = some n ↔
      ∃ first rest, names = first ++ n :: rest ∧ first.Nodup ∧ (∀ m ∈ first, m ∉ seen) ∧
        (n ∈ first ∨ n ∈ seen) := by
  induction names generalizing seen with
  | nil => simp [repeatedName?]
  | cons m names ih =>
    rw [repeatedName?]
    by_cases hm : m ∈ seen
    · -- A name already seen ends the search, so no other stands before the one it finds.
      rw [if_pos hm, Option.some.injEq]
      constructor
      · rintro rfl
        exact ⟨[], names, rfl, List.nodup_nil, by simp, .inr hm⟩
      · rintro ⟨first, rest, hnames, -, hfree, -⟩
        cases first with
        | nil => exact (List.cons.inj hnames).1
        | cons a first =>
          obtain rfl := (List.cons.inj hnames).1
          exact absurd hm (hfree _ (List.mem_cons_self ..))
    · rw [if_neg hm, ih]
      constructor
      · rintro ⟨first, rest, rfl, hnodup, hfree, hn⟩
        refine ⟨m :: first, rest, rfl, List.nodup_cons.2 ⟨fun h => ?_, hnodup⟩, ?_, ?_⟩
        · exact hfree m h (List.mem_cons_self ..)
        · exact List.forall_mem_cons.2
            ⟨hm, fun a ha hs => hfree a ha (List.mem_cons_of_mem _ hs)⟩
        · rcases hn with hn | hn
          · exact .inl (List.mem_cons_of_mem _ hn)
          · rcases List.mem_cons.1 hn with rfl | hn
            · exact .inl (List.mem_cons_self ..)
            · exact .inr hn
      · rintro ⟨first, rest, hnames, hnodup, hfree, hn⟩
        cases first with
        | nil =>
          obtain ⟨rfl, -⟩ := List.cons.inj hnames
          exact absurd (hn.resolve_left List.not_mem_nil) hm
        | cons a first =>
          obtain ⟨rfl, rfl⟩ := List.cons.inj hnames
          obtain ⟨ha, hnodup⟩ := List.nodup_cons.1 hnodup
          obtain ⟨-, hfree⟩ := List.forall_mem_cons.1 hfree
          refine ⟨first, rest, rfl, hnodup, fun b hb hs => ?_, ?_⟩
          · rcases List.mem_cons.1 hs with rfl | hs
            · exact ha hb
            · exact hfree b hb hs
          · rcases hn with hn | hn
            · exact (List.mem_cons.1 hn).elim (fun h => .inr (h ▸ List.mem_cons_self ..)) .inl
            · exact .inr (List.mem_cons_of_mem _ hn)

/-- The first name that repeats another stands behind distinct ones. -/
theorem repeatedName?_nil_eq_some_iff {names : List String} {n : String} :
    repeatedName? [] names = some n ↔
      ∃ first rest, names = first ++ n :: rest ∧ first.Nodup ∧ n ∈ first := by
  simp [repeatedName?_eq_some_iff]

section FirstNamed

variable {l : List Sourced} {s : Sourced} {n : String}

theorem name_of_firstNamed? (h : firstNamed? l n = some s) : s.declaration.name = n := by
  simpa using List.find?_some h

theorem mem_of_firstNamed? (h : firstNamed? l n = some s) : s ∈ l := List.mem_of_find?_eq_some h

theorem name_mem_of_firstNamed? (h : firstNamed? l n = some s) :
    n ∈ l.map fun s => s.declaration.name :=
  List.mem_map.2 ⟨s, mem_of_firstNamed? h, name_of_firstNamed? h⟩

theorem firstNamed?_eq_none_iff :
    firstNamed? l n = none ↔ n ∉ l.map fun s => s.declaration.name := by
  simp [firstNamed?]

theorem firstNamed?_singleton (s : Sourced) (n : String) :
    firstNamed? [s] n = if n = s.declaration.name then some s else none := by
  by_cases hn : n = s.declaration.name
  · simp [firstNamed?, hn]
  · simp [firstNamed?, hn, Ne.symm hn]

theorem firstNamed?_append (l l' : List Sourced) (n : String) :
    firstNamed? (l ++ l') n = (firstNamed? l n).or (firstNamed? l' n) := List.find?_append

/-- Declarations of known names are not the first. -/
theorem firstNamed?_append_of_known {more : List Sourced}
    (hknown : ∀ n ∈ more.map fun s => s.declaration.name, n ∈ l.map fun s => s.declaration.name) :
    firstNamed? (l ++ more) n = firstNamed? l n := by
  rw [firstNamed?_append]
  rcases hfirst : firstNamed? l n with _ | first
  · have hnone : firstNamed? more n = none :=
      firstNamed?_eq_none_iff.2 fun hn => firstNamed?_eq_none_iff.1 hfirst (hknown n hn)
    rw [hnone, Option.or_none]
  · rfl

/-- Declarations of one name in a consistent list have the shape of the first. -/
theorem Consistent.exists_first (h : Consistent l) (hs : s ∈ l) :
    ∃ first, firstNamed? l s.declaration.name = some first ∧
      first.declaration.shape = s.declaration.shape := by
  rcases hfirst : firstNamed? l s.declaration.name with _ | first
  · exact absurd (List.mem_map_of_mem hs) (firstNamed?_eq_none_iff.1 hfirst)
  · exact ⟨first, rfl,
      h.agree first (mem_of_firstNamed? hfirst) s hs (name_of_firstNamed? hfirst)⟩

theorem Consistent.of_append {l' : List Sourced} (h : Consistent (l ++ l')) : Consistent l where
  acceptable s hs := h.acceptable s (List.mem_append_left _ hs)
  agree s hs t ht := h.agree s (List.mem_append_left _ hs) t (List.mem_append_left _ ht)

theorem Consistent.concat (h : Consistent l) (hs : s.declaration.Acceptable)
    (hagree : ∀ t ∈ l, t.declaration.name = s.declaration.name →
      t.declaration.shape = s.declaration.shape) : Consistent (l ++ [s]) where
  acceptable t ht := by
    rcases List.mem_append.1 ht with ht | ht
    · exact h.acceptable t ht
    · rw [List.mem_singleton.1 ht]
      exact hs
  -- A pair is old, or the new declaration is in it and has the shape of the others of its name.
  agree t ht u hu hname := by
    rcases List.mem_append.1 ht with ht | ht <;> rcases List.mem_append.1 hu with hu | hu
    · exact h.agree t ht u hu hname
    · rw [List.mem_singleton.1 hu] at hname ⊢
      exact hagree t ht hname
    · rw [List.mem_singleton.1 ht] at hname ⊢
      exact (hagree u hu hname.symm).symm
    · rw [List.mem_singleton.1 ht, List.mem_singleton.1 hu]

theorem acceptable_of_not_violates (h : ∀ e, ¬ Violates l s e) : s.declaration.Acceptable := by
  have hunreserved : s.declaration.name ∉ reservedNames := fun hr => h _ (.reserved hr)
  refine ⟨hunreserved, ?_⟩
  rcases hrepeated : repeatedName? [] s.declaration.fieldNames with _ | field
  · exact (repeatedName?_eq_none_iff.1 hrepeated).1
  · obtain ⟨fields, rest, hnames, hnodup, hagain⟩ := repeatedName?_nil_eq_some_iff.1 hrepeated
    exact absurd (.repeated hunreserved hnames hnodup hagain) (h _)

/-- **A list stays consistent as long as nothing violates it.** -/
theorem consistent_concat :
    Consistent (l ++ [s]) ↔ Consistent l ∧ ∀ e, ¬ Violates l s e := by
  constructor
  · intro h
    have hacceptable := h.acceptable s (by simp)
    refine ⟨h.of_append, fun e hviolates => ?_⟩
    cases hviolates with
    | reserved name => exact hacceptable.unreserved name
    | repeated unreserved names distinct again =>
      have hnodup := hacceptable.distinct
      rw [names, List.nodup_append] at hnodup
      exact hnodup.2.2 _ again _ (List.mem_cons_self ..) rfl
    | differs acceptable known differs =>
      exact differs (h.agree _ (List.mem_append_left _ (mem_of_firstNamed? known)) s (by simp)
        (name_of_firstNamed? known))
  · rintro ⟨h, hfree⟩
    have hacceptable := acceptable_of_not_violates hfree
    refine h.concat hacceptable fun t ht hname => ?_
    obtain ⟨first, hfirst, hshape⟩ := h.exists_first ht
    rw [← hshape]
    by_contra hdiffers
    exact hfree _ (.differs hacceptable (hname ▸ hfirst) hdiffers)

/-- Consistent declarations do not reach past a violation. -/
theorem Violates.eq_nil {e : SynthesisError} {inside after rest : List Sourced}
    (h : Violates l s e) (hc : Consistent (l ++ inside)) (horder : s :: after = inside ++ rest) :
    inside = [] := by
  cases inside with
  | nil => rfl
  | cons t inside =>
    obtain rfl := (List.cons.inj horder).1
    rw [← List.singleton_append, ← List.append_assoc] at hc
    exact absurd h ((consistent_concat.1 hc.of_append).2 e)

theorem Violates.not_consistent {e : SynthesisError} (h : Violates l s e) (after : List Sourced) :
    ¬ Consistent (l ++ s :: after) := by
  intro hc
  have hnil := h.eq_nil hc (List.append_nil (s :: after)).symm
  cases hnil

/-- There is one first violation only. -/
theorem Violates.unique {e e' : SynthesisError} {l' after after' : List Sourced} {s' : Sourced}
    (h : Violates l s e) (h' : Violates l' s' e') (hc : Consistent l) (hc' : Consistent l')
    (horder : l ++ s :: after = l' ++ s' :: after') : l = l' ∧ s = s' := by
  rcases List.append_eq_append_iff.1 horder with ⟨inside, rfl, hrest⟩ | ⟨inside, rfl, hrest⟩
  · obtain rfl := h.eq_nil hc' hrest
    exact ⟨(List.append_nil _).symm, (List.cons.inj hrest).1⟩
  · obtain rfl := h'.eq_nil hc hrest
    exact ⟨List.append_nil _, (List.cons.inj hrest).1.symm⟩

/-- Declarations are consistent if each has the name and the shape of some consistent one. -/
theorem Consistent.of_counterparts {l' : List Sourced} (h : Consistent l)
    (hl' : ∀ s ∈ l', ∃ t ∈ l, t.declaration.name = s.declaration.name ∧
      t.declaration.shape = s.declaration.shape) : Consistent l' where
  acceptable s hs := by
    obtain ⟨t, ht, hname, hshape⟩ := hl' s hs
    have hacceptable := h.acceptable t ht
    refine ⟨hname ▸ hacceptable.unreserved, ?_⟩
    have hfields : s.declaration.fieldNames = t.declaration.fieldNames :=
      congrArg (List.map Field.name) hshape.symm
    exact hfields ▸ hacceptable.distinct
  agree s hs s' hs' hnames := by
    obtain ⟨t, ht, hname, hshape⟩ := hl' s hs
    obtain ⟨t', ht', hname', hshape'⟩ := hl' s' hs'
    rw [← hshape, ← hshape']
    exact h.agree t ht t' ht' (by rw [hname, hname', hnames])

end FirstNamed

/-! ## Names in order of first occurrence -/

theorem eraseDups_append_of_subset {names more : List String} (h : ∀ n ∈ more, n ∈ names) :
    (names ++ more).eraseDups = names.eraseDups := by
  have hnone : more.removeAll names = [] := by
    rw [List.removeAll, List.filter_eq_nil_iff]
    exact fun n hn => by simp [h n hn]
  rw [List.eraseDups_append, hnone, List.eraseDups_nil, List.append_nil]

theorem eraseDups_concat_of_not_mem {names : List String} {n : String} (h : n ∉ names) :
    (names ++ [n]).eraseDups = names.eraseDups ++ [n] := by
  have hone : [n].removeAll names = [n] := by
    rw [List.removeAll, List.filter_eq_self]
    exact fun m hm => by simp [List.mem_singleton.1 hm, h]
  rw [List.eraseDups_append, hone]
  rfl

/-! ## Registries as views -/

namespace Registry

/-- The registry holds the first declarations of a consistent list, in order of first occurrence. -/
structure Reflects (r : Registry) (l : List Sourced) : Prop where
  consistent : Consistent l
  keys : r.types.keys = (l.map fun s => s.declaration.name).eraseDups
  get? : ∀ n, r.types.get? n = firstNamed? l n

theorem reflects_empty : Reflects empty [] where
  consistent := ⟨by simp, by simp⟩
  keys := rfl
  get? _ := rfl

namespace Reflects

variable {r : Registry} {l : List Sourced} {s : Sourced}

/-- **A registry refuses exactly the declarations that violate what it reflects.** -/
theorem judge_eq_error_iff (h : Reflects r l) {e : SynthesisError} :
    r.judge s = .error e ↔ Violates l s e := by
  rw [judge, h.get?]
  constructor
  · intro hjudge
    split at hjudge
    next hreserved =>
      cases hjudge
      exact .reserved hreserved
    next hunreserved =>
      split at hjudge
      next field hrepeated =>
        cases hjudge
        obtain ⟨fields, rest, hnames, hnodup, hagain⟩ := repeatedName?_nil_eq_some_iff.1 hrepeated
        exact .repeated hunreserved hnames hnodup hagain
      next hnone =>
        split at hjudge
        · cases hjudge
        next first hfirst =>
          split at hjudge
          · cases hjudge
          next hdiffers =>
            cases hjudge
            exact .differs ⟨hunreserved, (repeatedName?_eq_none_iff.1 hnone).1⟩ hfirst hdiffers
  · intro hviolates
    cases hviolates with
    | reserved name => rw [if_pos name]
    | @repeated fields rest field unreserved names distinct again =>
      have hrepeated : repeatedName? [] s.declaration.fieldNames = some field :=
        repeatedName?_nil_eq_some_iff.2 ⟨fields, rest, names, distinct, again⟩
      rw [if_neg unreserved, hrepeated]
    | differs acceptable known differs =>
      have hnone : repeatedName? [] s.declaration.fieldNames = none :=
        repeatedName?_eq_none_iff.2 ⟨acceptable.distinct, by simp⟩
      simp only [if_neg acceptable.unreserved, hnone, known, if_neg differs]

theorem consistent_of_judge (h : Reflects r l) {standing : Standing}
    (hjudge : r.judge s = .ok standing) : Consistent (l ++ [s]) := by
  refine consistent_concat.2 ⟨h.consistent, fun e hviolates => ?_⟩
  rw [h.judge_eq_error_iff.2 hviolates] at hjudge
  cases hjudge

/-- Taking in a new declaration. -/
theorem add (h : Reflects r l) (hjudge : r.judge s = .ok .new) :
    Reflects (r.add s) (l ++ [s]) := by
  have hkey := not_mem_keys_of_judge hjudge
  have hnew : s.declaration.name ∉ l.map fun s => s.declaration.name := by
    rwa [h.keys, List.mem_eraseDups] at hkey
  refine ⟨h.consistent_of_judge hjudge, ?_, fun n => ?_⟩
  · rw [Registry.add, OrderedMap.keys_set, if_neg hkey, h.keys, List.map_append, List.map_singleton,
      eraseDups_concat_of_not_mem hnew]
  · rw [Registry.add, OrderedMap.get?_set, h.get?, firstNamed?_append, firstNamed?_singleton]
    by_cases hn : n = s.declaration.name
    · rw [if_pos hn, if_pos hn, hn, firstNamed?_eq_none_iff.2 hnew, Option.none_or]
    · rw [if_neg hn, if_neg hn, Option.or_none]

/-- Passing over a repetition. -/
theorem skip (h : Reflects r l) (hjudge : r.judge s = .ok .repeated) : Reflects r (l ++ [s]) := by
  have hknown : ∀ n ∈ [s].map fun s => s.declaration.name,
      n ∈ l.map fun s => s.declaration.name := by
    intro n hn
    rw [List.map_singleton, List.mem_singleton] at hn
    have hkey := mem_keys_of_judge hjudge
    rwa [h.keys, List.mem_eraseDups, ← hn] at hkey
  refine ⟨h.consistent_of_judge hjudge, ?_, fun n => ?_⟩
  · rw [h.keys, List.map_append, eraseDups_append_of_subset hknown]
  · rw [h.get?, firstNamed?_append_of_known hknown]

end Reflects

/-- How a run over more declarations ends: it reflects them all, or those before the first
violation. -/
inductive Ends (l more : List Sourced) (r : Registry) : Option SynthesisError → Prop where
  | through (reflects : Reflects r (l ++ more)) : Ends l more r none
  | stopped {before after : List Sourced} {s : Sourced} {e : SynthesisError}
      (order : more = before ++ s :: after) (reflects : Reflects r (l ++ before))
      (violates : Violates (l ++ before) s e) : Ends l more r (some e)

theorem Ends.cons {l more : List Sourced} {s : Sourced} {r : Registry}
    {fault : Option SynthesisError} (h : Ends (l ++ [s]) more r fault) :
    Ends l (s :: more) r fault := by
  cases h with
  | through reflects => exact .through (by rwa [List.append_assoc] at reflects)
  | @stopped before after t e order reflects violates =>
    rw [List.append_assoc] at reflects violates
    exact .stopped (by rw [order]; rfl : s :: more = (s :: before) ++ t :: after) reflects violates

/-- **A run ends after all declarations or at the first violation.** -/
theorem Reflects.registerAll {r : Registry} {l : List Sourced} (h : Reflects r l)
    (more : List Sourced) :
    Ends l more (r.registerAll more).registry (r.registerAll more).fault := by
  -- A step reflects one declaration more, so the rest is a run from a longer list.
  induction more generalizing r l with
  | nil => exact .through (by rwa [List.append_nil])
  | cons s rest ih =>
    rw [Registry.registerAll]
    split
    next e hjudge =>
      refine .stopped (List.nil_append (s :: rest)).symm (by rwa [List.append_nil]) ?_
      rw [List.append_nil]
      exact h.judge_eq_error_iff.1 hjudge
    next hjudge => exact (ih (h.add hjudge)).cons
    next hjudge => exact (ih (h.skip hjudge)).cons

/-- Consistent declarations are all taken in. -/
theorem reflects_of_consistent {l : List Sourced} (h : Consistent l) :
    Reflects (empty.registerAll l).registry l := by
  have hends := reflects_empty.registerAll l
  generalize (empty.registerAll l).fault = fault at hends
  cases hends with
  | through reflects => exact reflects
  | stopped order reflects violates => exact absurd (order ▸ h) (violates.not_consistent _)

end Registry

/-- What is wrong with a declaration is one thing. -/
theorem Violates.error_unique {l : List Sourced} {s : Sourced} {e e' : SynthesisError}
    (hc : Consistent l) (h : Violates l s e) (h' : Violates l s e') : e = e' := by
  have hreflects := Registry.reflects_of_consistent hc
  have hjudge := hreflects.judge_eq_error_iff.2 h
  rw [hreflects.judge_eq_error_iff.2 h'] at hjudge
  exact (Except.error.inj hjudge).symm

/-! ## Merging -/

/-- The declarations of documents, one document after the other, each with its source. -/
def allSourced (documents : List Document) : List Sourced := documents.flatMap Document.sourced

theorem allSourced_append (documents more : List Document) :
    allSourced (documents ++ more) = allSourced documents ++ allSourced more := List.flatMap_append

/-- The map holds the first declaration of every name, in order of first occurrence. -/
structure HoldsFirst (types : TypeMap) (l : List Sourced) : Prop where
  keys : types.keys = (l.map fun s => s.declaration.name).eraseDups
  get? : ∀ n, types.get? n = (firstNamed? l n).map Sourced.declaration

theorem Registry.Reflects.holdsFirst {r : Registry} {l : List Sourced} (h : r.Reflects l) :
    HoldsFirst r.build l where
  keys := by rw [Registry.build, OrderedMap.keys_mapValues, h.keys]
  get? n := by rw [Registry.build, OrderedMap.get?_mapValues, h.get?]

theorem HoldsFirst.unique {types types' : TypeMap} {l : List Sourced} (h : HoldsFirst types l)
    (h' : HoldsFirst types' l) : types = types' :=
  OrderedMap.eq_of_get? (h.keys.trans h'.keys.symm) fun n => (h.get? n).trans (h'.get? n).symm

/-- More declarations of known names are of no consequence. -/
theorem HoldsFirst.append {types : TypeMap} {l more : List Sourced} (h : HoldsFirst types l)
    (hmore : ∀ s ∈ more, s.declaration.name ∈ types.keys) : HoldsFirst types (l ++ more) := by
  have hknown : ∀ n ∈ more.map fun s => s.declaration.name,
      n ∈ l.map fun s => s.declaration.name := by
    intro n hn
    obtain ⟨s, hs, rfl⟩ := List.mem_map.1 hn
    have hkey := hmore s hs
    rwa [h.keys, List.mem_eraseDups] at hkey
  constructor
  · rw [List.map_append, eraseDups_append_of_subset hknown, h.keys]
  · intro n
    rw [h.get?, firstNamed?_append_of_known hknown]

/-- Merging gives the first declarations of consistent ones, or the first violation. -/
theorem merge_cases (documents : List Document) :
    (∃ types, (merge documents).result = .ok types ∧ Consistent (allSourced documents) ∧
      HoldsFirst types (allSourced documents)) ∨
    ∃ e before s after, (merge documents).result = .error e ∧
      allSourced documents = before ++ s :: after ∧ Consistent before ∧ Violates before s e := by
  have hends := Registry.reflects_empty.registerAll (allSourced documents)
  rw [merge, ← allSourced]
  rcases hfault : (Registry.empty.registerAll (allSourced documents)).fault with _ | e
  · rw [hfault] at hends
    cases hends with
    | through reflects => exact .inl ⟨_, rfl, reflects.consistent, reflects.holdsFirst⟩
  · rw [hfault] at hends
    cases hends with
    | stopped order reflects violates =>
      exact .inr ⟨e, _, _, _, rfl, order, reflects.consistent, violates⟩

section Merge

variable {documents : List Document} {types : TypeMap}

theorem merge_succeeds_iff :
    (∃ types, (merge documents).result = .ok types) ↔ Consistent (allSourced documents) := by
  rcases merge_cases documents with
    ⟨types, hok, hc, -⟩ | ⟨e, before, s, after, herror, horder, -, hviolates⟩
  · exact ⟨fun _ => hc, fun _ => ⟨types, hok⟩⟩
  · refine ⟨fun ⟨types, hok⟩ => ?_, fun hc => ?_⟩
    · rw [herror] at hok
      cases hok
    · exact absurd (horder ▸ hc) (hviolates.not_consistent after)

theorem holdsFirst_of_merge (h : (merge documents).result = .ok types) :
    HoldsFirst types (allSourced documents) := by
  rcases merge_cases documents with ⟨types', hok, -, hfirst⟩ | ⟨e, -, -, -, herror, -⟩
  · rw [hok] at h
    cases h
    exact hfirst
  · rw [herror] at h
    cases h

theorem merge_eq_error_iff {e : SynthesisError} :
    (merge documents).result = .error e ↔ ∃ before s after,
      allSourced documents = before ++ s :: after ∧ Consistent before ∧ Violates before s e := by
  rcases merge_cases documents with
    ⟨types, hok, hc, -⟩ | ⟨e', before', s', after', herror, horder', hc', hviolates'⟩
  · rw [hok]
    constructor
    · intro h
      cases h
    · rintro ⟨before, s, after, horder, -, hviolates⟩
      exact absurd (horder ▸ hc) (hviolates.not_consistent after)
  · rw [herror, Except.error.injEq]
    constructor
    · rintro rfl
      exact ⟨before', s', after', horder', hc', hviolates'⟩
    · rintro ⟨before, s, after, horder, hc, hviolates⟩
      obtain ⟨rfl, rfl⟩ := hviolates'.unique hviolates hc' hc (horder'.symm.trans horder)
      exact hviolates'.error_unique hc hviolates

/-- Documents that only repeat known shapes change nothing. -/
theorem merge_append_of_repeated (h : (merge documents).result = .ok types) {more : List Document}
    (hmore : ∀ d ∈ more.flatMap Document.types,
      (types.get? d.name).map Declaration.shape = some d.shape) :
    (merge (documents ++ more)).result = .ok types := by
  have hfirst := holdsFirst_of_merge h
  have hknown : ∀ s ∈ allSourced more, ∃ d, types.get? s.declaration.name = some d ∧
      d.shape = s.declaration.shape := by
    intro s hs
    obtain ⟨document, hdocument, hs⟩ := List.mem_flatMap.1 hs
    obtain ⟨d, hd, rfl⟩ := List.mem_map.1 hs
    exact Option.map_eq_some_iff.1 (hmore d (List.mem_flatMap.2 ⟨document, hdocument, hd⟩))
  have hc : Consistent (allSourced (documents ++ more)) := by
    refine (merge_succeeds_iff.1 ⟨types, h⟩).of_counterparts fun s hs => ?_
    rw [allSourced_append] at hs
    rcases List.mem_append.1 hs with hs | hs
    · exact ⟨s, hs, rfl, rfl⟩
    · obtain ⟨d, hd, hshape⟩ := hknown s hs
      rw [hfirst.get?] at hd
      obtain ⟨t, ht, rfl⟩ := Option.map_eq_some_iff.1 hd
      exact ⟨t, mem_of_firstNamed? ht, name_of_firstNamed? ht, hshape⟩
  obtain ⟨types', hok⟩ := merge_succeeds_iff.2 hc
  have hwhole : HoldsFirst types (allSourced (documents ++ more)) := by
    rw [allSourced_append]
    refine hfirst.append fun s hs => ?_
    obtain ⟨d, hd, -⟩ := hknown s hs
    exact OrderedMap.mem_keys_of_mem_entries (OrderedMap.get?_eq_some_iff.1 hd)
  rw [hok, (holdsFirst_of_merge hok).unique hwhole]

end Merge

/-- **Documents merge exactly when their declarations are consistent.** The map then holds the first
declaration of every name in order of first occurrence, and repetitions to come leave it as it is.
Otherwise the fault is the first violation. -/
theorem merge_exact (documents : List Document) :
    ((∃ types, (merge documents).result = .ok types) ↔ Consistent (allSourced documents)) ∧
    (∀ types, (merge documents).result = .ok types →
      types.keys = ((allSourced documents).map fun s => s.declaration.name).eraseDups ∧
      (∀ n, types.get? n = (firstNamed? (allSourced documents) n).map Sourced.declaration) ∧
      ∀ more : List Document, (∀ d ∈ more.flatMap Document.types,
          (types.get? d.name).map Declaration.shape = some d.shape) →
        (merge (documents ++ more)).result = .ok types) ∧
    ∀ e, (merge documents).result = .error e ↔ ∃ before s after,
      allSourced documents = before ++ s :: after ∧ Consistent before ∧ Violates before s e := by
  refine ⟨merge_succeeds_iff, fun types h => ?_, fun e => merge_eq_error_iff⟩
  have hfirst := holdsFirst_of_merge h
  exact ⟨hfirst.keys, hfirst.get?, fun more hmore => merge_append_of_repeated h hmore⟩

/-- Three declarations of one type, the last of another shape. -/
def userThrice : List Document :=
  [{ source := "a", types := [{ name := "User", fields := [⟨"id", .named "ID", false⟩] }] },
    { source := "b", types := [{ name := "Tag", fields := [⟨"id", .named "ID", false⟩] },
      { name := "User", fields := [⟨"id", .named "ID", false⟩], description := some "Again" }] },
    { source := "c", types := [{ name := "User", fields := [⟨"id", .named "ID", true⟩] }] }]

/-- The first two documents merge, and the third is at odds with the first. -/
theorem userThrice_differs :
    (∃ types, (merge (userThrice.take 2)).result = .ok types ∧ types.keys = ["User", "Tag"]) ∧
      (merge userThrice).result = .error (.duplicateType "User" ["a", "c"] none none) := by
  constructor
  · obtain ⟨types, h⟩ := (merge_exact (userThrice.take 2)).1.2 (by decide)
    exact ⟨types, h, ((merge_exact (userThrice.take 2)).2.1 types h).1⟩
  · refine ((merge_exact userThrice).2.2 _).2 ⟨allSourced (userThrice.take 2),
      ⟨{ name := "User", fields := [⟨"id", .named "ID", true⟩] }, "c"⟩, [], rfl,
      by decide, ?_⟩
    exact @Violates.differs _ _ ⟨{ name := "User", fields := [⟨"id", .named "ID", false⟩] }, "a"⟩
      (by decide) rfl (by decide)

end CrudSchema
