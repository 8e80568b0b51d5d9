import CrudSchema.Yaml.Conversion
import Mathlib.Data.List.Basic
import Mathlib.Data.List.TakeWhile

/-!
# Whole numbers read back

A whole number is written in decimal digits, behind a sign if it is negative. The digits do not
begin with a zero, unless the number is zero (`head?_toDigits_ne`). So the text is a number in base
ten and nothing else (`Tag.ofPlain_toString`), and it is read as the number if it is not too long.

Main result: `integerOf_toString`.
-/

namespace CrudSchema.Yaml

/-! ## Digits -/

theorem isDigit_of_mem_toDigits {n : Nat} : ∀ c ∈ Nat.toDigits 10 n, c.isDigit = true :=
  fun _ => Nat.isDigit_of_mem_toDigits (by decide) (by decide)

/-- Digits do not begin with a zero. -/
theorem head?_toDigits_ne {n : Nat} (h : n ≠ 0) : (Nat.toDigits 10 n).head? ≠ some '0' := by
  induction n using Nat.strong_induction_on with
  | _ n ih =>
    by_cases hn : n < 10
    · have hdigit : ∀ d < 10, d ≠ 0 → Nat.digitChar d ≠ '0' := by decide
      rw [Nat.toDigits_of_lt_base hn]
      simpa using hdigit n hn h
    · have hquotient : n / 10 ≠ 0 := by omega
      rw [Nat.toDigits_of_base_le (by decide) (Nat.le_of_not_lt hn),
        List.head?_append_of_ne_nil _ Nat.toDigits_ne_nil]
      exact ih (n / 10) (by omega) hquotient

theorem toList_toString_int (n : Int) :
    (toString n).toList = (if 0 ≤ n then [] else ['-']) ++ Nat.toDigits 10 n.natAbs := by
  rw [Int.toString_eq_repr, Int.repr_eq_if]
  split
  next hn =>
    have hnat : n.toNat = n.natAbs := by omega
    rw [Nat.repr_eq_ofList_toDigits, String.toList_ofList, hnat]
    rfl
  next hn =>
    have hnat : (-n).toNat = n.natAbs := by omega
    rw [Nat.repr_eq_ofList_toDigits, String.toList_append, hnat,
      String.toList_ofList (l := Nat.toDigits 10 n.natAbs)]
    rfl

theorem exists_digits (n : Nat) : ∃ ch digits, Nat.toDigits 10 n = ch :: digits ∧
    ch.isDigit = true ∧ (∀ c ∈ digits, c.isDigit = true) ∧ (n ≠ 0 → ch ≠ '0') := by
  obtain ⟨ch, digits, h⟩ := List.exists_cons_of_ne_nil (Nat.toDigits_ne_nil (b := 10) (n := n))
  have hall := isDigit_of_mem_toDigits (n := n)
  have hhead := head?_toDigits_ne (n := n)
  rw [h] at hall hhead
  obtain ⟨hch, hdigits⟩ := List.forall_mem_cons.1 hall
  exact ⟨ch, digits, h, hch, hdigits, by simpa using hhead⟩

/-- The characters of a whole number. -/
theorem of_mem_toString {n : Int} {c : Char} (h : c ∈ (toString n).toList) :
    c.isDigit = true ∨ c = '-' := by
  rw [toList_toString_int] at h
  rcases List.mem_append.1 h with h | h
  · split at h
    · cases h
    · exact .inr (List.mem_singleton.1 h)
  · exact .inl (isDigit_of_mem_toDigits c h)

theorem ne_of_mem_toString {n : Int} {c d : Char} (hd : d.isDigit = false) (hminus : d ≠ '-')
    (h : c ∈ (toString n).toList) : c ≠ d := by
  rintro rfl
  rcases of_mem_toString h with h | h
  · rw [hd] at h
    cases h
  · exact hminus h

theorem ne_of_isDigit {c d : Char} (h : c.isDigit = true) (hd : d.isDigit = false) : c ≠ d := by
  rintro rfl
  rw [h] at hd
  cases hd

/-! ## The type of a number -/

theorem unsigned_toString (n : Int) :
    Tag.unsigned (toString n).toList = Nat.toDigits 10 n.natAbs := by
  obtain ⟨ch, digits, h, hch, -⟩ := exists_digits n.natAbs
  rw [toList_toString_int, h]
  split
  · have hplus : ch ≠ '+' := ne_of_isDigit hch (by decide)
    have hminus : ch ≠ '-' := ne_of_isDigit hch (by decide)
    rw [List.nil_append, Tag.unsigned]
    · rintro rest ⟨⟩
      exact hplus rfl
    · rintro rest ⟨⟩
      exact hminus rfl
  · rfl

theorem colonParts_digits {digits : List Char} (h : ∀ c ∈ digits, c.isDigit = true) :
    Tag.colonParts digits = [digits] :=
  List.splitOn_eq_singleton fun hc => ne_of_isDigit (h _ hc) (by decide) rfl

theorem isWholeDigits_toDigits (n : Nat) : Tag.isWholeDigits (Nat.toDigits 10 n) = true := by
  by_cases hn : n = 0
  · rw [hn]
    decide
  · obtain ⟨ch, digits, h, hch, hdigits, hzero⟩ := exists_digits n
    have hparts := colonParts_digits (List.forall_mem_cons.2 ⟨hch, hdigits⟩)
    have hgrouped : Tag.isGrouped (ch :: digits) = true := by
      rw [Tag.isGrouped, hch, Bool.true_and, List.all_eq_true]
      exact fun c hc => by rw [hdigits c hc, Bool.true_or]
    rw [h]
    unfold Tag.isWholeDigits
    split
    next heq => exact absurd (List.cons.inj heq).1 (hzero hn)
    next heq => exact absurd (List.cons.inj heq).1 (hzero hn)
    next heq => exact absurd (List.cons.inj heq).1 (hzero hn)
    next heq => exact absurd (List.cons.inj heq).1 (hzero hn)
    next => simp [hparts, hgrouped]

/-- A whole number has no point. -/
theorem isFractional_toString (n : Int) : Tag.isFractional (toString n).toList = false := by
  have hpoint : ∀ c ∈ (toString n).toList, c ≠ '.' := fun c =>
    ne_of_mem_toString (by decide) (by decide)
  have hdigits : ∀ c ∈ Nat.toDigits 10 n.natAbs, c ≠ '.' := fun c hc =>
    ne_of_isDigit (isDigit_of_mem_toDigits c hc) (by decide)
  have hwords : ∀ word ∈ Tag.infinityWords ++ Tag.nanWords, '.' ∈ word := by decide
  have hinfinity : Tag.infinityWords.contains (Tag.unsigned (toString n).toList) = false := by
    rw [Bool.eq_false_iff, unsigned_toString]
    intro hmem
    have := hwords _ (List.mem_append_left _ (List.contains_iff_mem.1 hmem))
    exact hdigits _ this rfl
  have hnan : Tag.nanWords.contains (toString n).toList = false := by
    rw [Bool.eq_false_iff]
    intro hmem
    have := hwords _ (List.mem_append_right _ (List.contains_iff_mem.1 hmem))
    exact hpoint _ this rfl
  have hparts : Tag.pointParts? (toString n).toList = none := by
    have hdrop : (toString n).toList.dropWhile (· ≠ '.') = [] :=
      List.dropWhile_eq_nil_iff.2 fun c hc => by simpa using hpoint c hc
    rw [Tag.pointParts?, hdrop]
  rw [Tag.isFractional, hinfinity, hnan, hparts]
  rfl

theorem dropLineFeed_toString (n : Int) :
    dropLineFeed (toString n).toList = (toString n).toList := by
  have hlast : (toString n).toList.getLast? ≠ some '\n' := fun h =>
    ne_of_mem_toString (d := '\n') (by decide) (by decide) (List.mem_of_mem_getLast? h) rfl
  rw [dropLineFeed, if_neg]
  simp only [hlast, decide_false, Bool.false_and, Bool.false_eq_true, not_false_eq_true]

theorem Tag.ofPlain_toString (n : Int) : Tag.ofPlain (toString n) = .int := by
  have hwords : ((trueWords ++ falseWords).all fun word =>
      word.toList.any fun c => !c.isDigit && c ≠ '-') = true := by
    decide
  have hnone : toString n ∉ trueWords ∧ toString n ∉ falseWords := by
    have h : toString n ∉ trueWords ++ falseWords := by
      intro hmem
      obtain ⟨c, hc, hother⟩ := List.any_eq_true.1 (List.all_eq_true.1 hwords _ hmem)
      simp only [Bool.and_eq_true, Bool.not_eq_true', decide_eq_true_eq] at hother
      exact ne_of_mem_toString hother.1 hother.2 hc rfl
    simpa using h
  have hwhole : isWhole (toString n).toList = true := by
    rw [isWhole, unsigned_toString, isWholeDigits_toDigits]
  rw [ofPlain, dropLineFeed_toString]
  simp only [String.ofList_toList, hnone, isFractional_toString, hwhole, decide_false, Bool.or_self,
    Bool.false_eq_true, if_false, if_true]

/-! ## The value of a number -/

theorem splitSign_digits {ch : Char} {digits : List Char} (h : ch.isDigit = true) :
    Notation.splitSign (ch :: digits) = (false, ch :: digits) := by
  have hplus : ch ≠ '+' := ne_of_isDigit h (by decide)
  have hminus : ch ≠ '-' := ne_of_isDigit h (by decide)
  rw [Notation.splitSign]
  · rintro rest ⟨⟩
    exact hplus rfl
  · rintro rest ⟨⟩
    exact hminus rfl

theorem splitSign_toString (n : Int) :
    Notation.splitSign (toString n).toList = (decide (n < 0), Nat.toDigits 10 n.natAbs) := by
  obtain ⟨ch, digits, h, hch, -⟩ := exists_digits n.natAbs
  rw [toList_toString_int, h]
  split
  next hn =>
    rw [List.nil_append, splitSign_digits hch, decide_eq_false (Int.not_lt.2 hn)]
  next hn =>
    rw [decide_eq_true (Int.not_le.1 hn)]
    rfl

theorem digitIn?_of_isDigit {c : Char} (h : c.isDigit = true) :
    Notation.digitIn? 10 c = some (c.toNat - 48) := by
  have hvalue : Text.hexValue? c = some (c.toNat - 48) := by rw [Text.hexValue?, if_pos h]
  have hsmall : c.toNat - 48 < 10 := by
    have hhigh : c.toNat ≤ 57 := (Char.isDigit_iff_toNat.1 h).2
    omega
  rw [Notation.digitIn?, hvalue, Option.filter_some, if_pos (decide_eq_true hsmall)]

theorem numberIn_toDigits (n : Nat) : Notation.numberIn 10 (Nat.toDigits 10 n) = n := by
  have hfold : ∀ (digits : List Char) (m : Nat), (∀ c ∈ digits, c.isDigit = true) →
      digits.foldl (fun n c => 10 * n + (Notation.digitIn? 10 c).getD 0) m =
        Nat.ofDigitChars 10 digits m := by
    intro digits
    induction digits with
    | nil => exact fun _ _ => rfl
    | cons c digits ih =>
      intro m h
      obtain ⟨hc, hdigits⟩ := List.forall_mem_cons.1 h
      rw [List.foldl_cons, Nat.ofDigitChars_cons, digitIn?_of_isDigit hc, ih _ hdigits]
      rfl
  rw [Notation.numberIn, hfold _ _ isDigit_of_mem_toDigits, Nat.ofDigitChars_ten_toDigits]

/-- A number in base ten has no mark. -/
theorem dropBaseMark_ten (cs : List Char) : Notation.dropBaseMark 10 cs = cs := by
  unfold Notation.dropBaseMark
  split
  next => exact if_neg nofun
  next => rfl

/-- Digits are read as the number they are written for, unless they are too many. -/
theorem readWhole_toDigits {n : Nat} (h : Notation.isWritable n = true) :
    Notation.readWhole 10 (Nat.toDigits 10 n) = .ok n := by
  obtain ⟨ch, digits, hn, hch, hdigits, -⟩ := exists_digits n
  have hall := isDigit_of_mem_toDigits (n := n)
  have hplain : Notation.plainForm (Nat.toDigits 10 n) = Nat.toDigits 10 n := by
    rw [Notation.plainForm, if_pos]
    refine List.all_eq_true.2 fun c hc => decide_eq_true ?_
    have := (Char.isDigit_iff_toNat.1 (hall c hc)).2
    change c.toNat ≤ 57 at this
    omega
  have hblank : Notation.isBlank ch = false := by
    have hspace : ch ≠ ' ' := ne_of_isDigit hch (by decide)
    have hlow : ¬ ch ≤ '\r' := fun h => by
      have h₁ : ch.toNat ≤ 13 := h
      have h₂ : 48 ≤ ch.toNat := (Char.isDigit_iff_toNat.1 hch).1
      omega
    simp [Notation.isBlank, hspace, hlow]
  have hin : ∀ c ∈ Nat.toDigits 10 n, Notation.isDigitIn 10 c = true := fun c hc => by
    rw [Notation.isDigitIn, digitIn?_of_isDigit (hall c hc)]
    rfl
  have hbound : ∀ m, decide ((n : Int).natAbs < Nat.pow 10 m) = true → n < 10 ^ m := fun _ =>
    of_decide_eq_true
  have hshort : (Nat.toDigits 10 n).length ≤ Notation.mostDigits :=
    (Nat.length_toDigits_le_iff (by decide) (by decide)).2 (hbound _ h)
  have hlong : decide (Notation.mostDigits < (Nat.toDigits 10 n).length) = false :=
    decide_eq_false (Nat.not_lt.2 hshort)
  have hsign : Notation.splitSign ((Nat.toDigits 10 n).dropWhile Notation.isBlank) =
      (false, Nat.toDigits 10 n) := by
    rw [hn, List.dropWhile_cons_of_neg (by simp [hblank]), splitSign_digits hch]
  have hempty : (Nat.toDigits 10 n).isEmpty = false := by rw [hn]; rfl
  rw [Notation.readWhole, hplain, hsign]
  simp only [dropBaseMark_ten, List.takeWhile_eq_self_iff.2 hin, List.dropWhile_eq_nil_iff.2 hin,
    hlong, hempty, numberIn_toDigits]
  rfl

theorem wholeIn_toDigits {n : Nat} (h : Notation.isWritable n = true) :
    wholeIn 10 (Nat.toDigits 10 n) = .ok n := by
  rw [wholeIn, readWhole_toDigits h]
  rfl

theorem magnitudeOf_toDigits {n : Nat} (h : Notation.isWritable n = true) :
    magnitudeOf (Nat.toDigits 10 n) = .ok n := by
  by_cases hn : n = 0
  · rw [hn]
    rfl
  · obtain ⟨ch, digits, heq, hch, hdigits, hzero⟩ := exists_digits n
    have hwhole := wholeIn_toDigits h
    have hparts := colonParts_digits (List.forall_mem_cons.2 ⟨hch, hdigits⟩)
    rw [heq] at hwhole ⊢
    unfold magnitudeOf
    split
    next hnil => cases hnil
    next hcons => exact absurd (List.cons.inj hcons).1 (hzero hn)
    next hcons => exact absurd (List.cons.inj hcons).1 (hzero hn)
    next hcons => exact absurd (List.cons.inj hcons).1 (hzero hn)
    next hcons => exact absurd (List.cons.inj hcons).1 (hzero hn)
    next => rw [hparts]; exact hwhole

/-- **A whole number is read as it was written**, if it is not too long. -/
theorem integerOf_toString {n : Int} (h : Notation.isWritable n = true) :
    integerOf (toString n).toList = .ok n := by
  have hnumeral : numeralOf (toString n).toList = .ok (toString n).toList := by
    have hfilter : (toString n).toList.filter (· ≠ '_') = (toString n).toList :=
      List.filter_eq_self.2 fun c hc =>
        decide_eq_true (ne_of_mem_toString (by decide) (by decide) hc)
    obtain ⟨ch, digits, hn, -⟩ := exists_digits n.natAbs
    have hne : (toString n).toList ≠ [] := by
      rw [toList_toString_int, hn]
      exact List.append_ne_nil_of_right_ne_nil _ (List.cons_ne_nil _ _)
    rw [numeralOf, hfilter]
    split
    next hnil => exact absurd hnil hne
    next => rfl
  have hmagnitude : magnitudeOf (Nat.toDigits 10 n.natAbs) = .ok (n.natAbs : Int) :=
    magnitudeOf_toDigits (n := n.natAbs) (by rw [Notation.isWritable, Int.natAbs_natCast]; exact h)
  have hsign : (if n < 0 then -(n.natAbs : Int) else n.natAbs) = n := by
    split <;> omega
  rw [integerOf, hnumeral]
  simp only [bind, Except.bind, splitSign_toString, hmagnitude, decide_eq_true_eq, hsign]
  rfl

end CrudSchema.Yaml
