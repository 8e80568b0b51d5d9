import CrudSchema.Proofs.Validity

/-!
# The flaw of an input without fields

**Where it is found** (`noInputFields_mem_flaws`). A search for circles finds circles only, and the
checks of names find names only. So the flaw stands in the list exactly for the inputs without
fields.

**How it is told** (`Flaw.eq_noInputFields_of_message`). Each kind of flaw has a message with a
beginning of its own, so no other flaw is told in the same words.

**Who is told** (`judge_eq_invalid_iff`). A schema whose types have names of their own is refused
with the messages of all its flaws.
-/

namespace CrudSchema.Schema

variable {s : Schema} {n : String} {flaw : Flaw}

/-! ## Finding -/

/-- What a search for circles finds are circles. -/
theorem exists_circle_of_mem {fresh : List String} {visits : List Visit}
    (h : flaw ∈ (searchCircles s fresh visits).1) : ∃ n path, flaw = .circle n path := by
  induction fresh, visits using searchCircles.induct s with
  | case1 fresh =>
    rw [searchCircles] at h
    cases h
  | case2 fresh visit rest step more hmeets found left hrest ih =>
    rw [searchCircles, hmeets] at h
    rcases List.mem_cons.1 h with rfl | h
    · exact ⟨_, _, rfl⟩
    · exact ih h
  | case3 fresh visit rest hnone hfresh next ih =>
    rw [searchCircles, hnone] at h
    simp only [dif_pos hfresh] at h
    exact ih h
  | case4 fresh visit rest hnone hfresh ih =>
    rw [searchCircles, hnone] at h
    simp only [dif_neg hfresh] at h
    exact ih h

theorem noInputFields_not_mem_nameFlaws (names : List String) :
    .noInputFields n ∉ nameFlaws names := by
  intro h
  obtain ⟨name, -, hname⟩ := List.mem_map.1 h
  cases hname

theorem noInputFields_mem_memberFlaws {t : NamedType} :
    .noInputFields n ∈ memberFlaws t ↔ ∃ i, t = .input i ∧ i.name = n ∧ i.fields.entries = [] := by
  have hempty : .noInputFields n ∈ memberFlaws t ↔
      ((memberNames t).isEmpty && !isScalar t) = true ∧ emptyFlaw t = .noInputFields n := by
    rw [memberFlaws, List.mem_append, or_iff_left (noInputFields_not_mem_nameFlaws _)]
    split
    next h => exact List.mem_singleton.trans ⟨fun he => ⟨h, he.symm⟩, fun he => he.2.symm⟩
    next h => exact ⟨fun he => absurd he List.not_mem_nil, fun he => absurd he.1 h⟩
  rw [hempty]
  constructor
  · rintro ⟨hnone, hflaw⟩
    cases t with
    | scalar kind => cases hflaw
    | object o => cases hflaw
    | enum e => cases hflaw
    | input i =>
      cases hflaw
      refine ⟨i, rfl, rfl, ?_⟩
      rw [Bool.and_eq_true, List.isEmpty_iff] at hnone
      exact List.map_eq_nil_iff.1 hnone.1
  · rintro ⟨i, rfl, rfl, hnone⟩
    refine ⟨?_, rfl⟩
    rw [memberNames, OrderedMap.keys, hnone]
    rfl

theorem noInputFields_mem_flawsFrom {fresh : List String} {ts : List NamedType} :
    .noInputFields n ∈ flawsFrom s fresh ts ↔
      ∃ i, .input i ∈ ts ∧ i.name = n ∧ i.fields.entries = [] := by
  have hsplit : ∀ {t : NamedType} {circles more : List Flaw}, .noInputFields n ∉ circles →
      (.noInputFields n ∈ nameFlaws [t.name] ++ memberFlaws t ++ circles ++ more ↔
        .noInputFields n ∈ memberFlaws t ∨ .noInputFields n ∈ more) := by
    intro t circles more hcircles
    rw [List.mem_append, List.mem_append, List.mem_append, or_iff_left hcircles,
      or_iff_right (noInputFields_not_mem_nameFlaws _)]
  induction ts generalizing fresh with
  | nil =>
    constructor
    · exact fun h => absurd h List.not_mem_nil
    · rintro ⟨i, hi, -⟩
      exact absurd hi List.not_mem_nil
  | cons t rest ih =>
    have hstep : .noInputFields n ∈ flawsFrom s fresh (t :: rest) ↔
        .noInputFields n ∈ memberFlaws t ∨
          ∃ i, .input i ∈ rest ∧ i.name = n ∧ i.fields.entries = [] := by
      cases t with
      | input i =>
        have hcircles : .noInputFields n ∉ (searchCircles s fresh [⟨[], i.name⟩]).1 := by
          intro hcircle
          obtain ⟨m, path, hm⟩ := exists_circle_of_mem hcircle
          cases hm
        exact (hsplit hcircles).trans (or_congr_right ih)
      | scalar kind => exact (hsplit List.not_mem_nil).trans (or_congr_right ih)
      | object o => exact (hsplit List.not_mem_nil).trans (or_congr_right ih)
      | enum e => exact (hsplit List.not_mem_nil).trans (or_congr_right ih)
    rw [hstep, noInputFields_mem_memberFlaws]
    constructor
    · rintro (⟨i, rfl, hi⟩ | ⟨i, hmem, hi⟩)
      · exact ⟨i, List.mem_cons_self, hi⟩
      · exact ⟨i, List.mem_cons_of_mem _ hmem, hi⟩
    · rintro ⟨i, hmem, hi⟩
      rcases List.mem_cons.1 hmem with rfl | hmem
      · exact .inl ⟨i, rfl, hi⟩
      · exact .inr ⟨i, hmem, hi⟩

/-- An input without fields is a flaw, and nothing else is that flaw. -/
theorem noInputFields_mem_flaws :
    .noInputFields n ∈ flaws s ↔ ∃ i, .input i ∈ s.types ∧ i.name = n ∧ i.fields.entries = [] :=
  noInputFields_mem_flawsFrom

/-! ## Telling -/

theorem head?_append_of_eq_some {a : String} {c : Char} (h : a.toList.head? = some c) (b : String) :
    (a ++ b).toList.head? = some c := by
  rw [String.toList_append, List.head?_append, h]
  rfl

/-- How the message of a flaw begins. -/
def Flaw.initial : Flaw → Char
  | .introspectiveName _ => 'N'
  | .noFields _ => 'T'
  | .noValues _ => 'E'
  | .noInputFields _ => 'I'
  | .circle _ _ => 'C'

theorem Flaw.head?_message (flaw : Flaw) : flaw.message.toList.head? = some flaw.initial := by
  have hbegin : ∀ {a : String} {c : Char}, a.toList.head? = some c → ∀ b b' : String,
      (a ++ b ++ b').toList.head? = some c :=
    fun h b b' => head?_append_of_eq_some (head?_append_of_eq_some h b) b'
  cases flaw with
  | introspectiveName n =>
    exact hbegin (show "Name ".toList.head? = some 'N' by decide) _ _
  | noFields n => exact hbegin (show "Type ".toList.head? = some 'T' by decide) _ _
  | noValues n => exact hbegin (show "Enum type ".toList.head? = some 'E' by decide) _ _
  | noInputFields n =>
    exact hbegin (show "Input Object type ".toList.head? = some 'I' by decide) _ _
  | circle n path =>
    exact hbegin (hbegin
      (show "Cannot reference Input Object '".toList.head? = some 'C' by decide) _ _) _ _

/-- No other flaw is told in the words for an input without fields. -/
theorem Flaw.eq_noInputFields_of_message (h : flaw.message = (noInputFields n).message) :
    flaw = .noInputFields n := by
  have hinitial : flaw.initial = 'I' := by
    have hhead := flaw.head?_message
    rw [h, head?_message] at hhead
    exact (Option.some.inj hhead).symm
  cases flaw with
  | noInputFields m =>
    unfold message at h
    have hname : m = n := (String.append_right_inj _).1 ((String.append_left_inj _).1 h)
    rw [hname]
  | introspectiveName m => exact absurd hinitial (show 'N' ≠ 'I' by decide)
  | noFields m => exact absurd hinitial (show 'T' ≠ 'I' by decide)
  | noValues m => exact absurd hinitial (show 'E' ≠ 'I' by decide)
  | circle m path => exact absurd hinitial (show 'C' ≠ 'I' by decide)

/-- A schema whose types have names of their own is told its flaws. -/
theorem judge_eq_invalid_iff (hnodup : s.typeNames.Nodup) {message : String} :
    (∃ messages, judge s = .error (.invalid messages) ∧ message ∈ messages) ↔
      ∃ flaw ∈ flaws s, flaw.message = message := by
  have hnames : repeated? [] s.typeNames = none :=
    Api.repeated?_eq_none hnodup fun n _ => List.not_mem_nil
  rw [judge, hnames]
  cases hflaws : flaws s with
  | nil => simp
  | cons first rest =>
    constructor
    · rintro ⟨messages, hinvalid, hmessage⟩
      cases hinvalid
      exact List.mem_map.1 hmessage
    · intro hflaw
      exact ⟨_, rfl, List.mem_map.2 hflaw⟩

end CrudSchema.Schema
