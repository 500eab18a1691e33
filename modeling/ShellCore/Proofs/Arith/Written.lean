import ShellCore.Proofs.Arith.Lexeme

/-! How the tokens of an expression are written. -/

namespace ShellCore.Arith

open Text

variable {a c : Char} {l s t rest body : List Char} {n : Nat} {v : TokenValue} {name : String}

/-- Nothing that follows goes on with a name. -/
def EndsWord (rest : List Char) : Prop := ∀ c ∈ rest.head?, isNameChar c = false

/-- The token is written as the first text, where the second one follows. -/
inductive Written : TokenValue → List Char → List Char → Prop
  | constant {n : Int64} {l rest : List Char} (h : unsigned? l = some n) (hr : EndsWord rest) :
    Written (.constant n) l rest
  | name {l rest : List Char} (hne : l ≠ []) (hl : ∀ c ∈ l, isNameChar c) (hr : EndsWord rest) :
    Written (.variable (String.ofList l)) l rest
  | dollar {l rest : List Char} (hne : l ≠ []) (hl : ∀ c ∈ l, isNameChar c) :
    Written (.variable (String.ofList l)) ('$' :: l) rest
  | special {c : Char} {rest : List Char} (h : c ∈ ['@', '*', '#', '?', '-', '$', '!']) :
    Written (.variable (String.ofList [c])) ['$', c] rest
  | braces {l rest : List Char} (h : isParameterName l) :
    Written (.variable (String.ofList l)) ('$' :: '\x7b' :: (l ++ ['\x7d'])) rest
  | parens {body rest : List Char} (h : openAfter '(' ')' 0 body = some 0) :
    Written (.nested body 3) ('$' :: '(' :: '(' :: (body ++ [')', ')'])) rest
  | bracket {body rest : List Char} (h : openAfter '[' ']' 0 body = some 0) :
    Written (.nested body 2) ('$' :: '[' :: (body ++ [']'])) rest
  | symbol {l rest : List Char} {s : Symbol} (h : (l, s) ∈ Symbol.spellings)
    (hlong : ∀ q ∈ Symbol.spellings, q.1 <+: l ++ rest → q.1.length ≤ l.length) :
    Written (.symbol s) l rest

/-- A run ends before a character that does not belong to it. -/
theorem head?_behind_takeWhile {α : Type} {p : α → Bool} {l t : List α}
    (h : (l ++ t).takeWhile p = l) : ∀ c ∈ t.head?, p c = false := by
  intro c hc
  obtain ⟨t, rfl⟩ := List.head?_eq_some_iff.mp hc
  have hl : ∀ c ∈ l, p c := by
    rw [← h]
    exact fun c hc => List.mem_takeWhile_imp hc
  rw [List.takeWhile_append_of_pos hl] at h
  have hnil : (c :: t).takeWhile p = [] := List.append_right_eq_self.mp h
  by_cases hp : p c
  · rw [List.takeWhile_cons_of_pos hp] at hnil
    cases hnil
  · simpa using hp

theorem endsWord_of_constantText (h : constantText (l ++ rest) = l) : EndsWord rest := by
  have hs := List.takeWhile_append_dropWhile (p := isNameChar) (l := l ++ rest)
  have hrun := head?_behind_takeWhile (p := isNameChar) (l := l) (t := rest)
  unfold constantText at h
  dsimp only at h
  split at h
  · rename_i digits hd
    split at h
    · rw [hd] at hs
      have he : (l ++ rest).takeWhile isNameChar ++ '#' :: digits =
          (l ++ rest).takeWhile isNameChar ++
            '#' :: (digits.takeWhile (fun c => isNameChar c || c == '@') ++ rest) := by
        refine hs.trans ?_
        rw [← List.cons_append, ← List.append_assoc, h]
      have hdigits := (List.cons.inj (List.append_cancel_left he)).2
      have hrest := head?_behind_takeWhile (congrArg (List.takeWhile _) hdigits.symm)
      exact fun c hc => (Bool.or_eq_false_iff.mp (hrest c hc)).1
    · exact hrun h
  · exact hrun h

/-- Of two spellings that fit, the longer one stands first. -/
theorem length_le_of_find?_spellings {p q : List Char × Symbol}
    (h : Symbol.spellings.find? (fun r => r.1.isPrefixOf s) = some p)
    (hq : q ∈ Symbol.spellings) (hs : q.1 <+: s) : q.1.length ≤ p.1.length := by
  have horder : Symbol.spellings.Pairwise fun p q => p.1 <+: q.1 → q.1.length ≤ p.1.length := by
    decide
  obtain ⟨hp, before, after, he, hall⟩ := List.find?_eq_some_iff_append.mp h
  rw [he] at hq horder
  rcases List.mem_append.mp hq with hb | hb
  · have hn := hall q hb
    rw [List.isPrefixOf_iff_prefix.mpr hs] at hn
    cases hn
  · rcases List.mem_cons.mp hb with rfl | ha
    · exact Nat.le_refl _
    · refine Nat.le_of_not_lt fun hlt => ?_
      have hpq := List.prefix_of_prefix_length_le (List.isPrefixOf_iff_prefix.mp hp) hs
        (Nat.le_of_lt hlt)
      have hle := (List.pairwise_cons.mp (List.pairwise_append.mp horder).2.1).1 q ha hpq
      omega

theorem eq_takeWhile_brace (hc : '\x7d' ∈ s)
    (hl : s.length = (s.takeWhile (· != '\x7d')).length + 1) :
    s = s.takeWhile (· != '\x7d') ++ ['\x7d'] := by
  induction s with
  | nil => cases hc
  | cons c s ih =>
    by_cases h : c = '\x7d'
    · subst h
      obtain rfl : s = [] := List.eq_nil_of_length_eq_zero (by simpa using hl)
      rfl
    · have hc' : '\x7d' ∈ s := (List.mem_cons.mp hc).resolve_left (Ne.symm h)
      rw [List.takeWhile_cons_of_pos (by simpa using h)] at hl ⊢
      exact congrArg (c :: ·) (ih hc' (Nat.succ.inj hl))

theorem special_of_isSpecialParameter (h : isSpecialParameter c) (hd : ¬ c.isDigit) :
    c ∈ ['@', '*', '#', '?', '-', '$', '!'] := by
  simpa [isSpecialParameter, hd] using h

/-- A dollar sign and all that belongs to it. -/
theorem written_of_lexDollar (h : lexDollar l = (.ok v, l.length + 1)) (rest : List Char) :
    Written v ('$' :: l) rest := by
  cases l with
  | nil => cases h
  | cons c l =>
    by_cases h₁ : c = '('
    · subst h₁
      obtain ⟨m, body, rfl, hb, rfl, hn⟩ := exists_of_lexDollar_parens h
      obtain ⟨hp, ho⟩ := beforeParens?_eq_some_iff.mp hb
      rw [← hp.eq_of_length (by simpa using hn.symm)]
      exact .parens ho
    · by_cases h₂ : c = '['
      · subst h₂
        obtain ⟨body, hb, rfl, hn⟩ := exists_of_lexDollar_bracket h
        obtain ⟨hp, ho⟩ := beforeBracket?_eq_some_iff.mp hb
        rw [← hp.eq_of_length (by simpa using hn.symm)]
        exact .bracket ho
      · by_cases h₃ : c = '\x7b'
        · subst h₃
          rw [lexDollar_brace_eq] at h
          split at h
          · next hc =>
            obtain ⟨hc, hname⟩ := Bool.and_eq_true_iff.mp hc
            injection h with hv hn
            cases hv
            have hl := eq_takeWhile_brace (List.contains_iff_mem.mp hc) (by simpa using hn.symm)
            generalize l.takeWhile (· != '\x7d') = name at hl hname ⊢
            subst hl
            exact .braces hname
          · cases h
        · rw [lexDollar_cons h₁ h₂ h₃] at h
          split at h
          · next hs =>
            injection h with hv hn
            cases hv
            obtain rfl : l = [] := List.eq_nil_of_length_eq_zero (by simpa using hn.symm)
            by_cases hd : c.isDigit
            · exact .dollar (List.cons_ne_nil c []) (by simp [isNameChar, Char.isAlphanum, hd])
            · exact .special (special_of_isSpecialParameter hs hd)
          · split at h
            · injection h with hv hn
              cases hv
              have hl := (List.takeWhile_prefix isNameChar).eq_of_length (Nat.succ.inj hn)
              rw [hl]
              exact .dollar (List.cons_ne_nil c l) (List.takeWhile_eq_self_iff.mp hl)
            · cases h

/-- Each token is written in one of these ways. -/
theorem written_of_lex (h : lex (a :: l ++ rest) = (.ok v, l.length + 1)) :
    Written v (a :: l) rest := by
  by_cases ha : a = '$'
  · subst ha
    exact written_of_lexDollar (lexDollar_of_append h) rest
  · rw [List.cons_append, lex_of_ne_dollar ha, ← List.cons_append] at h
    split at h
    · next spelling symbol hf =>
      injection h with hv hn
      cases hv
      have hfits := List.find?_some hf
      have hp := List.isPrefixOf_iff_prefix.mp hfits
      have hl : spelling = a :: l := eq_of_isPrefix_append hp hn
      have hmem := List.mem_of_find?_eq_some hf
      rw [hl] at hmem
      refine .symbol hmem fun q hq hs => ?_
      rw [← hl]
      exact length_le_of_find?_spellings hf hq hs
    · simp only [List.cons_append, lexTerm] at h
      split at h
      · split at h
        · next k hk =>
          injection h with hv hn
          cases hv
          have hl : constantText (a :: l ++ rest) = a :: l :=
            eq_of_isPrefix_append (isPrefix_constantText _) hn
          rw [← List.cons_append, hl] at hk
          exact .constant hk (endsWord_of_constantText hl)
        · cases h
      · split at h
        · injection h with hv hn
          cases hv
          obtain ⟨hl, hl'⟩ := takeWhile_eq_of_append (l := a :: l) (t := rest) hn
          rw [← List.cons_append, hl]
          exact .name (List.cons_ne_nil a l) (List.takeWhile_eq_self_iff.mp hl')
            (head?_behind_takeWhile hl)
        · cases h

theorem written_of_lex_self (h : lex l = (.ok v, l.length)) : Written v l [] := by
  cases l with
  | nil => cases h
  | cons a l => exact written_of_lex (by rwa [List.append_nil])

end ShellCore.Arith
