import CrudSchema.Proofs.LegalName
import CrudSchema.Sdl.Lexer

/-!
# Texts that give certain tokens

**Lexing** (`Lexes`). A text has certain tokens and no fault, whatever the limit, as long as that is
long enough. What stands in front of such a text adds its own tokens: nothing for what separates
tokens, else the token that is read there.

**Ends of names** (`Stops`). A name goes on as long as it can, so what follows it must not go on
with it.
-/

namespace CrudSchema.Sdl

/-- The text has these tokens and no fault. -/
def Lexes (cs : List Char) (ts : List Token) : Prop :=
  ∀ limit, cs.length < limit → lexAtMost limit cs = ts.map .ok

/-- No name goes on into the text. -/
def Stops (cs : List Char) : Prop := ∀ c, cs.head? = some c → isNameChar c = false

theorem stops_cons {c : Char} (h : isNameChar c = false) (cs : List Char) : Stops (c :: cs) := by
  intro d hd
  obtain rfl := Option.some.inj hd
  exact h

theorem Stops.append {cs : List Char} (h : Stops cs) (hne : cs ≠ []) (more : List Char) :
    Stops (cs ++ more) := by
  obtain ⟨c, rest, rfl⟩ := List.exists_cons_of_ne_nil hne
  exact stops_cons (h c rfl) _

namespace Lexes

variable {c : Char} {cs rest : List Char} {t : Token} {ts : List Token}

theorem lex_eq (h : Lexes cs ts) : lex cs = ts.map .ok := h _ (Nat.lt_succ_self _)

theorem nil : Lexes [] [.ending] := by
  intro limit hlimit
  cases limit with
  | zero => cases hlimit
  | succ n => rfl

/-! ## What separates tokens -/

theorem ignore (hc : isIgnored c = true) (h : Lexes cs ts) : Lexes (c :: cs) ts := by
  intro limit hlimit
  cases limit with
  | zero => cases hlimit
  | succ n =>
    have hskip : skipIgnored false (c :: cs) = skipIgnored false cs := by
      rw [skipIgnored, if_neg Bool.false_ne_true, if_pos hc]
    rw [← h (n + 1) (by simp at hlimit; omega), lexAtMost, hskip, lexAtMost]

theorem ignoreAll (hcs : ∀ c ∈ cs, isIgnored c = true) (h : Lexes rest ts) :
    Lexes (cs ++ rest) ts := by
  induction cs with
  | nil => exact h
  | cons c more ih =>
    obtain ⟨hc, hmore⟩ := List.forall_mem_cons.1 hcs
    exact ignore hc (ih hmore)

theorem skipIgnored_comment (hcs : ∀ c ∈ cs, c ≠ '\n' ∧ c ≠ '\r') :
    skipIgnored true (cs ++ '\n' :: rest) = skipIgnored false rest := by
  induction cs with
  | nil => rfl
  | cons c more ih =>
    obtain ⟨⟨hfeed, hreturn⟩, hmore⟩ := List.forall_mem_cons.1 hcs
    rw [List.cons_append, skipIgnored, if_pos rfl]
    simpa [hfeed, hreturn] using ih hmore

theorem comment (hcs : ∀ c ∈ cs, c ≠ '\n' ∧ c ≠ '\r') (h : Lexes rest ts) :
    Lexes ('#' :: (cs ++ '\n' :: rest)) ts := by
  intro limit hlimit
  cases limit with
  | zero => cases hlimit
  | succ n =>
    have hskip : skipIgnored false ('#' :: (cs ++ '\n' :: rest)) = skipIgnored false rest :=
      skipIgnored_comment hcs
    rw [← h (n + 1) (by simp at hlimit; omega), lexAtMost, hskip, lexAtMost]

/-! ## Tokens -/

/-- **What is read in front is the first token.** -/
theorem token (hc : isIgnored c = false) (hcomment : c ≠ '#')
    (hread : readToken (c :: cs) = .ok (t, rest)) (ht : t ≠ .ending)
    (hlength : rest.length ≤ cs.length) (h : Lexes rest ts) : Lexes (c :: cs) (t :: ts) := by
  intro limit hlimit
  cases limit with
  | zero => cases hlimit
  | succ n =>
    have hskip : skipIgnored false (c :: cs) = c :: cs := by
      rw [skipIgnored, if_neg Bool.false_ne_true, if_neg (by simp [hc]), if_neg hcomment]
    have hrest := h n (by simp at hlimit; omega)
    rw [lexAtMost, hskip, hread, List.map_cons, ← hrest]
    cases t with
    | ending => exact absurd rfl ht
    | _ => rfl

theorem punctuator (p : Punctuator) (hp : p.text = [c]) (h : Lexes cs ts) :
    Lexes (c :: cs) (.punctuator p :: ts) := by
  have hne : Token.punctuator p ≠ .ending := by
    intro heq
    cases heq
  cases p with
  | spread => cases hp
  | _ =>
    cases hp
    exact token (by decide) (by decide) rfl hne (Nat.le_refl _) h

theorem takeWhile_name {n : List Char} (hn : ∀ c ∈ n, isNameChar c = true) (hrest : Stops rest) :
    (n ++ rest).takeWhile isNameChar = n ∧ (n ++ rest).dropWhile isNameChar = rest := by
  have hstop : rest.takeWhile isNameChar = [] ∧ rest.dropWhile isNameChar = rest := by
    cases rest with
    | nil => exact ⟨rfl, rfl⟩
    | cons c more =>
      have hc := hrest c rfl
      exact ⟨List.takeWhile_cons_of_neg (by simp [hc]), List.dropWhile_cons_of_neg (by simp [hc])⟩
  rw [List.takeWhile_append_of_pos hn, List.dropWhile_append_of_pos hn, hstop.1, hstop.2]
  exact ⟨List.append_nil n, rfl⟩

/-- The first character of a name begins nothing else. -/
theorem isNameStart_cases (hc : isNameStart c = true) : c ≠ '.' ∧ c ≠ '"' ∧ c ≠ '#' ∧
    isIgnored c = false ∧ Punctuator.ofChar? c = none ∧ (c.isDigit || c = '-') = false := by
  have hcontinue : Schema.isNameContinue c = true := Schema.isNameContinue_of_isNameStart hc
  exact forall_isNameContinue (P := fun c => isNameStart c = true → c ≠ '.' ∧ c ≠ '"' ∧ c ≠ '#' ∧
    isIgnored c = false ∧ Punctuator.ofChar? c = none ∧ (c.isDigit || c = '-') = false)
    (by decide) hcontinue hc

theorem name {n : String} (hn : IsName n) (hrest : Stops rest) (h : Lexes rest ts) :
    Lexes (n.toList ++ rest) (.name n :: ts) := by
  obtain ⟨first, more, hlist, hfirst, hmore⟩ := id hn
  obtain ⟨hpoint, hquote, hcomment, hignored, hpunctuator, hnumber⟩ := isNameStart_cases hfirst
  have hall : ∀ c ∈ n.toList, isNameChar c = true := fun c hc => hn.continues hc
  obtain ⟨htake, -⟩ := takeWhile_name hall hrest
  obtain ⟨-, hdrop⟩ := takeWhile_name hmore hrest
  rw [hlist] at htake ⊢
  rw [List.cons_append] at htake
  show Lexes (first :: (more ++ rest)) (.name n :: ts)
  refine token hignored hcomment ?_ (by simp) (by simp) h
  unfold readToken
  split
  next heq => cases heq
  next heq => exact absurd (List.cons.inj heq).1 hpoint
  next heq => exact absurd (List.cons.inj heq).1 hquote
  next heq => exact absurd (List.cons.inj heq).1 hquote
  next heq =>
    obtain ⟨rfl, rfl⟩ := List.cons.inj heq
    rw [hpunctuator]
    simp only [hnumber, htake, hdrop]
    have hstart : isNameStart first = true := hfirst
    rw [if_neg Bool.false_ne_true, if_pos hstart, ← hlist, String.ofList_toList]

end Lexes

end CrudSchema.Sdl
