import ShellCore.Proofs.Arith.Lexeme

/-! How a text is read: lexeme by lexeme, each behind blanks. -/

namespace ShellCore.Arith

open Text

variable {a : Char} {s l rest gap : List Char} {n start : Nat} {v : TokenValue} {e : TokenError}
  {r : Except TokenError TokenValue}

theorem lexDollar_length_le (h : lexDollar s = (r, n)) : n ≤ s.length + 1 := by
  cases r with
  | ok v => exact (lexDollar_append (t := []) isDelimiter_closeParen h).2
  | error e =>
    unfold lexDollar at h
    split at h
    · split at h <;> cases h
      exact Nat.le_refl _
    · split at h <;> cases h
      exact Nat.le_refl _
    · dsimp only at h
      split at h <;> cases h
      exact Nat.le_add_left 1 _
    · split at h
      · cases h
      · split at h <;> cases h
        exact Nat.le_add_left 1 _
    · cases h
      exact Nat.le_refl 1

theorem lexTerm_length_le (h : lexTerm (a :: s) = (r, n)) : n ≤ s.length + 1 := by
  cases r with
  | ok v => exact (lexTerm_append (t := []) isDelimiter_closeParen h).2
  | error e =>
    simp only [lexTerm] at h
    split at h
    · split at h <;> cases h
      exact (isPrefix_constantText (a :: s)).length_le
    · split at h <;> cases h
      exact Nat.le_add_left 1 _

/-- A lexeme is part of its text, even one that is no token. -/
theorem lex_length_le (h : lex (a :: s) = (r, n)) : n ≤ s.length + 1 := by
  by_cases ha : a = '$'
  · subst ha
    exact lexDollar_length_le h
  · rw [lex_of_ne_dollar ha] at h
    split at h
    · rename_i hf
      cases h
      have hfits := List.find?_some hf
      exact (List.isPrefixOf_iff_prefix.mp hfits).length_le
    · exact lexTerm_length_le h

/-- How a text is read: blanks, a lexeme, and so on, up to the end or to a lexeme that is no
token. -/
inductive Segmented : List Char → Prop
  | blank {gap : List Char} (hg : ∀ c ∈ gap, isBlank c) : Segmented gap
  | token {gap l rest : List Char} {a : Char} {v : TokenValue} (hg : ∀ c ∈ gap, isBlank c)
    (ha : isBlank a = false) (hl : lex (a :: l ++ rest) = (.ok v, l.length + 1))
    (hr : Segmented rest) : Segmented (gap ++ (a :: l ++ rest))
  | error {gap l rest : List Char} {a : Char} {e : TokenError} (hg : ∀ c ∈ gap, isBlank c)
    (ha : isBlank a = false) (hl : lex (a :: l ++ rest) = (.error e, l.length + 1)) :
    Segmented (gap ++ (a :: l ++ rest))

theorem exists_of_not_blank (h : ¬ ∀ c ∈ s, isBlank c) :
    ∃ gap a t, s = gap ++ a :: t ∧ (∀ c ∈ gap, isBlank c) ∧ isBlank a = false := by
  have hs := List.takeWhile_append_dropWhile (p := isBlank) (l := s)
  have hn := List.head?_dropWhile_not isBlank s
  cases ht : s.dropWhile isBlank with
  | nil => exact absurd (List.dropWhile_eq_nil_iff.mp ht) h
  | cons a t =>
    rw [ht] at hs hn
    exact ⟨_, a, t, hs.symm, fun c hc => List.mem_takeWhile_imp hc, by simpa using hn⟩

theorem exists_of_lex (h : lex (a :: s) = (r, n)) :
    ∃ l rest, s = l ++ rest ∧ n = l.length + 1 := by
  have hpos := lex_pos h
  have hle := lex_length_le h
  refine ⟨s.take (n - 1), s.drop (n - 1), (List.take_append_drop _ _).symm, ?_⟩
  rw [List.length_take_of_le (by omega)]
  omega

theorem segmented (s : List Char) : Segmented s := by
  -- What follows a lexeme is shorter.
  induction hn : s.length using Nat.strongRecOn generalizing s with
  | _ n ih =>
    by_cases hb : ∀ c ∈ s, isBlank c
    · exact .blank hb
    · obtain ⟨gap, a, t, rfl, hg, ha⟩ := exists_of_not_blank hb
      rcases hl : lex (a :: t) with ⟨e | v, k⟩
      · obtain ⟨l, rest, rfl, rfl⟩ := exists_of_lex hl
        exact .error hg ha hl
      · obtain ⟨l, rest, rfl, rfl⟩ := exists_of_lex hl
        refine .token hg ha hl (ih rest.length ?_ rest rfl)
        rw [← hn]
        simp only [List.length_append, List.length_cons]
        omega

theorem tokensFrom_gap (hg : ∀ c ∈ gap, isBlank c) (start : Nat) (s : List Char) :
    tokensFrom start 0 (gap ++ s) = tokensFrom (start + byteLength gap) 0 s := by
  induction gap generalizing start with
  | nil => rfl
  | cons c gap ih =>
    rw [List.cons_append, tokensFrom, if_pos (hg c List.mem_cons_self),
      ih fun c hc => hg c (List.mem_cons_of_mem _ hc), byteLength_cons, Nat.add_assoc]

theorem tokensFrom_blank (hg : ∀ c ∈ gap, isBlank c) (start : Nat) :
    tokensFrom start 0 gap = [] := by
  have h := tokensFrom_gap hg start []
  rwa [List.append_nil] at h

theorem tokensFrom_token (hg : ∀ c ∈ gap, isBlank c) (ha : isBlank a = false)
    (hl : lex (a :: l ++ rest) = (.ok v, l.length + 1)) (start : Nat) :
    tokensFrom start 0 (gap ++ (a :: l ++ rest)) =
      .ok ⟨v, ⟨start + byteLength gap, start + byteLength gap + byteLength (a :: l)⟩⟩ ::
        tokensFrom (start + byteLength gap + byteLength (a :: l)) 0 rest := by
  rw [tokensFrom_gap hg, tokensFrom_lexeme ha hl]

theorem tokensFrom_error (hg : ∀ c ∈ gap, isBlank c) (ha : isBlank a = false)
    (hl : lex (a :: l ++ rest) = (.error e, l.length + 1)) (start : Nat) :
    tokensFrom start 0 (gap ++ (a :: l ++ rest)) =
      [.error (e, ⟨start + byteLength gap, start + byteLength gap + byteLength (a :: l)⟩)] := by
  rw [List.cons_append] at hl
  rw [tokensFrom_gap hg, List.cons_append, tokensFrom, if_neg (by simp [ha]), hl]
  simp

/-- The first token of a text stands behind blanks and is read from its own characters. -/
theorem exists_of_tokensFrom {b : Token} {rs : List Reading}
    (h : tokensFrom start 0 s = .ok b :: rs) :
    ∃ gap a l rest, s = gap ++ (a :: l ++ rest) ∧ (∀ c ∈ gap, isBlank c) ∧ isBlank a = false ∧
      lex (a :: l) = (.ok b.value, l.length + 1) ∧
      b.span = ⟨start + byteLength gap, start + byteLength gap + byteLength (a :: l)⟩ ∧
      tokensFrom (start + byteLength gap + byteLength (a :: l)) 0 rest = rs := by
  cases segmented s with
  | blank hg =>
    rw [tokensFrom_blank hg] at h
    cases h
  | token hg ha hl hr =>
    rw [tokensFrom_token hg ha hl] at h
    injection h with hb hrest
    cases hb
    exact ⟨_, _, _, _, rfl, hg, ha, lex_of_append hl, rfl, hrest⟩
  | error hg ha hl =>
    rw [tokensFrom_error hg ha hl] at h
    cases h

/-- What an error is about stands behind blanks, and nothing is read after it. -/
theorem exists_of_tokensFrom_error {span : Span} {rs : List Reading}
    (h : tokensFrom start 0 s = .error (e, span) :: rs) :
    ∃ gap l rest, s = gap ++ (l ++ rest) ∧ l ≠ [] ∧
      span = ⟨start + byteLength gap, start + byteLength gap + byteLength l⟩ ∧ rs = [] := by
  cases segmented s with
  | blank hg =>
    rw [tokensFrom_blank hg] at h
    cases h
  | token hg ha hl hr =>
    rw [tokensFrom_token hg ha hl] at h
    cases h
  | error hg ha hl =>
    rw [tokensFrom_error hg ha hl] at h
    cases h
    exact ⟨_, _, _, rfl, List.cons_ne_nil _ _, rfl, rfl⟩

end ShellCore.Arith
