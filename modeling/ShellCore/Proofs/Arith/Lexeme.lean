import Mathlib.Data.List.TakeWhile
import ShellCore.Proofs.Arith.Lexing

/-! A token is read from its own text: what stands after it only ends it. -/

namespace ShellCore.Arith

open Text

variable {α : Type} {p : α → Bool} {a d : Char} {s t l : List Char} {n : Nat}
  {v : TokenValue}

theorem isDelimiter_of_isBlank (hd : isBlank d) : IsDelimiter d := by
  refine ⟨?_, ?_, ?_, fun q hq hmem => ?_⟩
  · by_contra hn
    rw [isBlank_of_isNameChar (by simpa using hn)] at hd
    cases hd
  · rintro rfl
    cases hd
  · rintro rfl
    cases hd
  · have hall : Symbol.spellings.all fun q => q.1.tail.all fun c => !isBlank c := by decide
    have hc := List.all_eq_true.mp (List.all_eq_true.mp hall q hq) d hmem
    rw [hd] at hc
    cases hc

/-- A prefix of a longer text is what it takes up of that text. -/
theorem eq_of_isPrefix_append {l q t : List α} (h : q <+: l ++ t) (hl : q.length = l.length) :
    q = l := by
  obtain ⟨r, hr⟩ := h
  exact (List.append_inj hr hl).1

theorem takeWhile_eq_of_append {l t : List α} (h : ((l ++ t).takeWhile p).length = l.length) :
    (l ++ t).takeWhile p = l ∧ l.takeWhile p = l := by
  have hl := eq_of_isPrefix_append (List.takeWhile_prefix p) h
  refine ⟨hl, ?_⟩
  have hi := List.takeWhile_idem (p := p) (l := l ++ t)
  rwa [hl] at hi

theorem takeWhile_of_append {l t : List α} (h : ((l ++ t).takeWhile p).length < l.length) :
    (l ++ t).takeWhile p = l.takeWhile p := by
  induction l with
  | nil => cases h
  | cons a l ih =>
    by_cases ha : p a
    · simp only [List.cons_append, List.takeWhile_cons, ha, if_true, List.length_cons] at h ⊢
      rw [ih (Nat.lt_of_succ_lt_succ h)]
    · simp [ha]

theorem exists_of_lexDollar_parens (h : lexDollar ('(' :: s) = (.ok v, n)) :
    ∃ m body, s = '(' :: m ∧ beforeParens? 0 m = some body ∧ v = .nested body 3 ∧
      n = body.length + 5 := by
  unfold lexDollar at h
  split at h
  · rename_i m he
    cases he
    split at h <;> cases h
    exact ⟨m, _, rfl, ‹_›, rfl, rfl⟩
  · rename_i he
    cases he
  · rename_i he
    cases he
  · rename_i he
    cases he
    cases h
  · cases h

theorem exists_of_lexDollar_bracket (h : lexDollar ('[' :: s) = (.ok v, n)) :
    ∃ body, beforeBracket? 0 s = some body ∧ v = .nested body 2 ∧ n = body.length + 3 := by
  rw [lexDollar] at h
  split at h <;> cases h
  exact ⟨_, ‹_›, rfl, rfl⟩

theorem lexDollar_brace_eq (s : List Char) :
    lexDollar ('\x7b' :: s) =
      if s.contains '\x7d' && isParameterName (s.takeWhile (· != '\x7d')) then
        (.ok (.variable (String.ofList (s.takeWhile (· != '\x7d')))),
          (s.takeWhile (· != '\x7d')).length + 3)
      else (.error .strayCharacter, 1) := rfl

/-- No token is a dollar sign alone. -/
theorem two_le_of_lexDollar (h : lexDollar s = (.ok v, n)) : 2 ≤ n := by
  cases s with
  | nil => cases h
  | cons c s =>
    by_cases h₁ : c = '('
    · subst h₁
      obtain ⟨m, body, -, -, -, rfl⟩ := exists_of_lexDollar_parens h
      omega
    · by_cases h₂ : c = '['
      · subst h₂
        obtain ⟨body, -, -, rfl⟩ := exists_of_lexDollar_bracket h
        omega
      · by_cases h₃ : c = '\x7b'
        · subst h₃
          rw [lexDollar_brace_eq] at h
          split at h <;> cases h
          omega
        · rw [lexDollar_cons h₁ h₂ h₃] at h
          split at h
          · cases h
            exact Nat.le_refl 2
          · split at h
            · rename_i hc
              cases h
              simp [hc]
            · cases h

theorem lexDollar_parens_of_append (h : lexDollar ('(' :: (l ++ t)) = (.ok v, l.length + 2)) :
    lexDollar ('(' :: l) = (.ok v, l.length + 2) := by
  obtain ⟨m, body, hm, -, -, hn⟩ := exists_of_lexDollar_parens h
  cases l with
  | nil => simp at hn
  | cons c l =>
    rw [List.cons_append] at hm
    injection hm with hc hm
    subst hc
    exact Brackets.parens.lexDollar_opener_of_append h rfl

theorem lexDollar_brace_of_append
    (h : lexDollar ('\x7b' :: (l ++ t)) = (.ok v, l.length + 2)) :
    lexDollar ('\x7b' :: l) = (.ok v, l.length + 2) := by
  rw [lexDollar_brace_eq] at h ⊢
  split at h
  · rename_i hc
    injection h with hv hn
    have hlt : ((l ++ t).takeWhile (· != '\x7d')).length < l.length := by omega
    -- The name ends inside the shorter text, and so the brace after it is there.
    have hmem : '\x7d' ∈ l := by
      by_contra hmem
      have hall : ∀ c ∈ l, c != '\x7d' := fun c hc => by
        rw [bne_iff_ne]
        rintro rfl
        exact hmem hc
      rw [List.takeWhile_append_of_pos hall, List.length_append] at hlt
      omega
    rw [takeWhile_of_append hlt] at hv hn hc
    rw [Bool.and_eq_true] at hc
    rw [if_pos (by simp [hmem, hc.2]), ← hv, hn]
  · cases h

/-- What makes a token of a text lies inside the token. -/
theorem lexDollar_of_append (h : lexDollar (l ++ t) = (.ok v, l.length + 1)) :
    lexDollar l = (.ok v, l.length + 1) := by
  cases l with
  | nil =>
    have hn := two_le_of_lexDollar h
    simp at hn
  | cons c l =>
    by_cases h₁ : c = '('
    · subst h₁
      exact lexDollar_parens_of_append h
    · by_cases h₂ : c = '['
      · subst h₂
        exact Brackets.square.lexDollar_opener_of_append h rfl
      · by_cases h₃ : c = '\x7b'
        · subst h₃
          exact lexDollar_brace_of_append h
        · rw [List.cons_append, lexDollar_cons h₁ h₂ h₃, ← List.cons_append] at h
          rw [lexDollar_cons h₁ h₂ h₃]
          by_cases hs : isSpecialParameter c
          · rw [if_pos hs] at h ⊢
            exact h
          · rw [if_neg hs] at h ⊢
            by_cases hc : isNameChar c
            · rw [if_pos hc] at h ⊢
              injection h with hv hn
              obtain ⟨hw, hw'⟩ := takeWhile_eq_of_append (Nat.succ.inj hn)
              rw [hw'] at ⊢
              rw [hw] at hv
              rw [hv]
            · rw [if_neg hc] at h
              cases h

theorem dropWhile_takeWhile (s : List α) : (s.takeWhile p).dropWhile p = [] :=
  List.dropWhile_eq_nil_iff.mpr fun _ hc => List.mem_takeWhile_imp hc

/-- The text of a constant is a constant to its end. -/
theorem constantText_constantText (s : List Char) :
    constantText (constantText s) = constantText s := by
  have hrun : constantText (s.takeWhile isNameChar) = s.takeWhile isNameChar := by
    rw [constantText.eq_def, List.takeWhile_idem, dropWhile_takeWhile]
  rw [constantText.eq_def s]
  dsimp only
  split
  · split
    · rename_i digits hd hall
      have hsign : isNameChar '#' = false := by decide
      rw [constantText.eq_def, takeWhile_append_cons hsign, dropWhile_append_cons hsign,
        List.takeWhile_idem, dropWhile_takeWhile]
      refine Eq.trans (if_pos hall) ?_
      rw [List.takeWhile_idem]
    · exact hrun
  · exact hrun

theorem lexTerm_of_append (h : lexTerm (a :: l ++ t) = (.ok v, l.length + 1)) :
    lexTerm (a :: l) = (.ok v, l.length + 1) := by
  simp only [List.cons_append, lexTerm] at h ⊢
  by_cases hd : a.isDigit
  · rw [if_pos hd] at h ⊢
    split at h
    · rename_i k hk
      injection h with hv hn
      have hl : constantText (a :: (l ++ t)) = a :: l :=
        eq_of_isPrefix_append (t := t) (isPrefix_constantText _) hn
      have hl' : constantText (a :: l) = a :: l := by rw [← hl, constantText_constantText]
      rw [hl] at hk
      rw [hl', hk]
      exact Prod.ext hv rfl
    · cases h
  · rw [if_neg hd] at h ⊢
    by_cases hn : isNameChar a
    · rw [if_pos hn] at h ⊢
      injection h with hv hlen
      obtain ⟨hw, hw'⟩ := takeWhile_eq_of_append (l := a :: l) (t := t) hlen
      rw [List.cons_append] at hw
      rw [hw] at hv
      rw [hw', hv]
      rfl
    · rw [if_neg hn] at h
      cases h

/-- The first spelling that fits a longer text is the first one that fits what it takes up. -/
theorem find?_spellings_of_append {q : List Char × Symbol}
    (h : Symbol.spellings.find? (fun r => r.1.isPrefixOf (l ++ t)) = some q)
    (hq : q.1.length = l.length) :
    Symbol.spellings.find? (fun r => r.1.isPrefixOf l) = some q := by
  obtain ⟨hp, before, after, hs, hall⟩ := List.find?_eq_some_iff_append.mp h
  have hl : q.1 = l := eq_of_isPrefix_append (List.isPrefixOf_iff_prefix.mp hp) hq
  refine List.find?_eq_some_iff_append.mpr ⟨by simp [hl], before, after, hs, fun r hr => ?_⟩
  have hn := hall r hr
  rw [Bool.not_eq_true', Bool.eq_false_iff, Ne, List.isPrefixOf_iff_prefix] at hn ⊢
  exact fun hp => hn (hp.trans (List.prefix_append l t))

theorem find?_spellings_eq_none_of_append
    (h : Symbol.spellings.find? (fun r => r.1.isPrefixOf (l ++ t)) = none) :
    Symbol.spellings.find? (fun r => r.1.isPrefixOf l) = none := by
  refine List.find?_eq_none.mpr fun r hr => ?_
  have hn := List.find?_eq_none.mp h r hr
  rw [List.isPrefixOf_iff_prefix] at hn ⊢
  exact fun hp => hn (hp.trans (List.prefix_append l t))

/-- What makes a token of a text lies inside the token. -/
theorem lex_of_append (h : lex (a :: l ++ t) = (.ok v, l.length + 1)) :
    lex (a :: l) = (.ok v, l.length + 1) := by
  by_cases ha : a = '$'
  · subst ha
    exact lexDollar_of_append h
  · rw [List.cons_append, lex_of_ne_dollar ha, ← List.cons_append] at h
    rw [lex_of_ne_dollar ha]
    split at h
    · rename_i spelling symbol hf
      injection h with hv hn
      rw [find?_spellings_of_append hf hn]
      exact Prod.ext hv hn
    · rename_i hf
      rw [find?_spellings_eq_none_of_append hf]
      exact lexTerm_of_append h

theorem constantText_ne_nil (ha : isNameChar a) (s : List Char) : constantText (a :: s) ≠ [] := by
  unfold constantText
  dsimp only
  split
  · split <;> simp [ha]
  · simp [ha]

theorem lexDollar_pos {r : Except TokenError TokenValue} (h : lexDollar s = (r, n)) : 0 < n := by
  unfold lexDollar at h
  split at h
  · split at h <;> cases h <;> exact Nat.succ_pos _
  · split at h <;> cases h <;> exact Nat.succ_pos _
  · dsimp only at h
    split at h <;> cases h <;> exact Nat.succ_pos _
  · split at h
    · cases h
      exact Nat.succ_pos _
    · split at h <;> cases h <;> exact Nat.succ_pos _
  · cases h
    exact Nat.succ_pos _

theorem lexTerm_pos {r : Except TokenError TokenValue} (h : lexTerm (a :: s) = (r, n)) :
    0 < n := by
  simp only [lexTerm] at h
  split at h
  · rename_i hd
    have hn : isNameChar a := by simp [isNameChar, Char.isAlphanum, hd]
    split at h <;> cases h <;> exact List.length_pos_iff.mpr (constantText_ne_nil hn s)
  · split at h
    · rename_i hn
      cases h
      simp [hn]
    · cases h
      exact Nat.one_pos

/-- A token takes up some text, and so does what is none. -/
theorem lex_pos {r : Except TokenError TokenValue} (h : lex (a :: s) = (r, n)) : 0 < n := by
  by_cases ha : a = '$'
  · subst ha
    exact lexDollar_pos h
  · rw [lex_of_ne_dollar ha] at h
    split at h
    · rename_i spelling symbol hf
      have hall : Symbol.spellings.all fun q => decide (0 < q.1.length) := by decide
      cases h
      exact of_decide_eq_true (List.all_eq_true.mp hall _ (List.mem_of_find?_eq_some hf))
    · exact lexTerm_pos h

end ShellCore.Arith
