import ShellCore.Proofs.Arith.Dereference
import ShellCore.Proofs.Arith.Fallback
import ShellCore.Proofs.Arith.Moves
import ShellCore.Proofs.Arith.Placement

/-! What a step takes for its variable, told by the character before it, and what token that
character belongs to. -/

namespace ShellCore.Arith

open Text

variable {c : Char} {source l rest s : List Char} {v : TokenValue} {t : Token} {r : Reading}
  {before after : List Reading} {start : Nat} {σ ρ ω : Type}

/-- The variables, written without braces, whose last character is also one of operators. -/
def unsteppable : List (List Char) := [['$', '*'], ['$', '-'], ['$', '!']]

theorem endsWithName_char (hc : isBlank c = false) (s : List Char) :
    endsWithName (s ++ [c]) = (isNameChar c || ['\x7d', '@', '#', '?', '$'].contains c) := by
  have ht : trimEnd [c] = [c] := by simp [trimEnd, hc]
  rw [endsWithName_lexeme hc, endsWithName, ht]
  rfl

theorem endsWithName_of_symbols (hne : l ≠ []) (hl : ∀ c ∈ l, isNameChar c ∨ c = '@')
    (s : List Char) : endsWithName (s ++ l) := by
  have hlast := hl (l.getLast hne) (List.getLast_mem hne)
  rw [← List.dropLast_append_getLast hne, ← List.append_assoc]
  rcases hlast with hc | hc
  · rw [endsWithName_char (isBlank_of_isNameChar hc), hc, Bool.true_or]
  · rw [hc, endsWithName_char (by decide)]
    rfl

theorem endsWithName_of_magnitude {n : Nat} (h : Magnitude l n) : endsWithName l := by
  have hend : ∀ {base n : Nat} {digits : List Char}, Denotes base digits n →
      ∀ s, endsWithName (s ++ digits) := by
    intro base n digits hd
    refine endsWithName_of_symbols hd.1 fun c hc => ?_
    obtain ⟨d, hc⟩ := hd.isDigit c hc
    exact (isNameChar_of_isDigit hc).imp_right And.left
  cases h with
  | @based _ _ b digits _ _ _ hd =>
    have h := hend hd (b ++ ['#'])
    rwa [List.append_assoc] at h
  | hexadecimal _ hd | binary _ hd => exact hend hd ['0', _]
  | octal hd => exact hend hd ['0']
  | zero => rfl
  | decimal _ hd => exact hend hd []

/-- The last character tells apart what a token is, but for three variables. -/
theorem endsWithName_iff_of_written (hw : Written v l rest) :
    endsWithName l ↔
      (∃ n, v = .constant n) ∨ (∃ name, v = .variable name) ∧ l ∉ unsteppable := by
  cases hw with
  | constant h hr =>
    obtain ⟨n, hn, -⟩ := unsigned?_eq_some_iff.mp h
    exact iff_of_true (endsWithName_of_magnitude hn) (.inl ⟨_, rfl⟩)
  | name hne hl hr =>
    refine iff_of_true (endsWithName_of_symbols hne (fun c hc => .inl (hl c hc)) [])
      (.inr ⟨⟨_, rfl⟩, fun hmem => ?_⟩)
    have hdollar : '$' ∈ l := by
      simp only [unsteppable, List.mem_cons, List.not_mem_nil, or_false] at hmem
      rcases hmem with rfl | rfl | rfl <;> exact List.mem_cons_self
    cases hl '$' hdollar
  | @dollar l _ hne hl =>
    refine iff_of_true (endsWithName_of_symbols hne (fun c hc => .inl (hl c hc)) ['$'])
      (.inr ⟨⟨_, rfl⟩, fun hmem => ?_⟩)
    simp only [unsteppable, List.mem_cons, List.cons.injEq, true_and, List.not_mem_nil,
      or_false] at hmem
    rcases hmem with rfl | rfl | rfl <;> cases hl _ List.mem_cons_self
  | @special c _ h =>
    have hlast : endsWithName ['$', c] ↔ ['$', c] ∉ unsteppable := by
      simp only [List.mem_cons, List.not_mem_nil, or_false] at h
      rcases h with rfl | rfl | rfl | rfl | rfl | rfl | rfl <;> decide
    simp [hlast]
  | @braces l _ h =>
    refine iff_of_true (endsWithName_char (c := '\x7d') (by decide) ('$' :: '\x7b' :: l))
      (.inr ⟨⟨_, rfl⟩, ?_⟩)
    simp [unsteppable]
  | @parens body _ h =>
    have hlast := endsWithName_char (c := ')') (by decide) ('$' :: '(' :: '(' :: (body ++ [')']))
    have hparen : isNameChar ')' = false := by decide
    have hfalse : endsWithName ('$' :: '(' :: '(' :: (body ++ [')', ')'])) = false := by
      simpa [hparen] using hlast
    simp [hfalse]
  | @bracket body _ h =>
    have hfalse : endsWithName ('$' :: '[' :: (body ++ [']'])) = false :=
      endsWithName_char (c := ']') (by decide) ('$' :: '[' :: body)
    simp [hfalse]
  | symbol h hlong =>
    have hall : ∀ q ∈ Symbol.spellings, endsWithName q.1 = false := by decide
    rw [hall _ h]
    simp

theorem exists_of_first (h : tokensFrom start 0 s = r :: after) :
    ∃ gap rest, s = gap ++ rest ∧ (∀ c ∈ gap, isBlank c) ∧
      r.span.start = start + byteLength gap := by
  cases segmented s with
  | blank hg =>
    rw [tokensFrom_blank hg] at h
    cases h
  | token hg ha hl hr =>
    rw [tokensFrom_token hg ha hl] at h
    cases h
    exact ⟨_, _, rfl, hg, rfl⟩
  | error hg ha hl =>
    rw [tokensFrom_error hg ha hl] at h
    cases h
    exact ⟨_, _, rfl, hg, rfl⟩

/-- Between a token and what is read next there are only blanks. -/
theorem exists_of_adjacent (h : tokensFrom start 0 s = before ++ .ok t :: r :: after) :
    ∃ front a l gap rest, s = front ++ (a :: l ++ (gap ++ rest)) ∧ isBlank a = false ∧
      (∀ c ∈ gap, isBlank c) ∧ lex (a :: l) = (.ok t.value, l.length + 1) ∧
      t.span = ⟨start + byteLength front, start + byteLength front + byteLength (a :: l)⟩ ∧
      r.span.start = start + byteLength (front ++ a :: l ++ gap) := by
  induction before generalizing start s with
  | nil =>
    obtain ⟨front, a, l, rest, rfl, -, ha, hl, hspan, hnext⟩ := exists_of_tokensFrom h
    obtain ⟨gap, rest, rfl, hg, hstart⟩ := exists_of_first hnext
    refine ⟨front, a, l, gap, rest, rfl, ha, hg, hl, hspan, ?_⟩
    rw [hstart]
    simp only [byteLength_append, Nat.add_assoc]
  | cons r' before ih =>
    rcases r' with ⟨e, span⟩ | b
    · obtain ⟨-, -, -, -, -, -, hnil⟩ := exists_of_tokensFrom_error h
      simp at hnil
    · obtain ⟨gap', a', l', rest', rfl, -, -, -, -, hrest⟩ := exists_of_tokensFrom h
      obtain ⟨front, a, l, gap, rest, rfl, ha, hg, hl, hspan, hstart⟩ := ih hrest
      refine ⟨gap' ++ (a' :: l' ++ front), a, l, gap, rest, by simp, ha, hg, hl, ?_, ?_⟩
      · rw [hspan]
        simp only [byteLength_append, Nat.add_assoc]
      · rw [hstart]
        simp only [byteLength_append, Nat.add_assoc]

theorem endsWithName_iff_of_adjacent (h : tokens source = before ++ .ok t :: r :: after) :
    endsWithName (takeBytes r.span.start source) ↔
      (∃ n, t.value = .constant n) ∨
        (∃ name, t.value = .variable name) ∧ t.text source ∉ unsteppable := by
  obtain ⟨front, a, l, gap, rest, rfl, ha, hg, hl, hspan, hnext⟩ := exists_of_adjacent h
  rw [Nat.zero_add] at hspan hnext
  have htake : takeBytes r.span.start (front ++ (a :: l ++ (gap ++ rest))) =
      front ++ a :: l ++ gap := by
    have hsource : front ++ (a :: l ++ (gap ++ rest)) = front ++ a :: l ++ gap ++ rest := by
      simp
    rw [hnext, hsource, takeBytes_byteLength_append]
  rw [htake, endsWithName_gap hg, endsWithName_lexeme ha, text_of_span _ _ hspan]
  exact endsWithName_iff_of_written (written_of_lex_self hl)

/-- No evaluation gets past a step that is not seen to stand behind its variable. -/
theorem not_yields_of_step {f : Frame σ ρ ω} {name : String} {q : Step} {span : Span}
    (h : tokens f.source = before ++ .ok t :: .ok ⟨.symbol (.step q), span⟩ :: after)
    (hv : t.value = .variable name) (hends : ¬ endsWithName (takeBytes span.start f.source))
    (o : Option Operand) : ¬ Yields f.run o := by
  intro hy
  rw [Frame.run, h, readAll_append] at hy
  obtain ⟨m, hy, -⟩ := yields_bind hy
  obtain ⟨m, -, hy⟩ := yields_bind hy
  obtain ⟨m', hread, hy⟩ := yields_bind hy
  obtain ⟨m'', hstep, -⟩ := yields_bind hy
  simp only [Frame.read, hv] at hread
  obtain ⟨-, rfl⟩ := f.pushOperand_yields hread
  simp only [Frame.read, Frame.readSymbol, Machine.hold, Bool.false_eq_true, if_false, if_neg hends,
    Frame.readBinary, Symbol.asBinary?] at hstep
  exact not_yields_fail hstep

/-- The character before a step tells whether the token there is a constant or a variable, but
for three variables without braces. Behind one of these a step is refused, and so no evaluation of
the text has a result. -/
theorem step_position_iff (h : tokens source = before ++ .ok t :: r :: after) :
    (endsWithName (takeBytes r.span.start source) ↔
      (∃ n, t.value = .constant n) ∨
        (∃ name, t.value = .variable name) ∧ t.text source ∉ unsteppable) ∧
    ∀ (f : Frame σ ρ ω) (name : String) (q : Step), f.source = source →
      t.value = .variable name → t.text source ∈ unsteppable →
      r = .ok ⟨.symbol (.step q), r.span⟩ → ∀ o, ¬ Yields f.run o := by
  have hends := endsWithName_iff_of_adjacent h
  refine ⟨hends, ?_⟩
  rintro f name q rfl hv ht hr
  refine not_yields_of_step (hr ▸ h) hv fun he => ?_
  rcases hends.mp he with ⟨n, hn⟩ | ⟨-, hnot⟩
  · rw [hv] at hn
    cases hn
  · exact hnot ht

/-- The same variable, with and without braces. -/
theorem step_position_of_star :
    endsWithName (takeBytes 5 "$\x7b*\x7d ++".toList) = true ∧
      endsWithName (takeBytes 3 "$* ++".toList) = false ∧
      ∀ o, ¬ Yields (frame Bindings.access {} "$* ++".toList).run o := by
  have hbraces : tokens "$\x7b*\x7d ++".toList =
      [] ++ .ok ⟨.variable "*", ⟨0, 4⟩⟩ :: .ok ⟨.symbol (.step .increment), ⟨5, 7⟩⟩ :: [] := rfl
  have hdollar : tokens "$* ++".toList =
      [] ++ .ok ⟨.variable "*", ⟨0, 2⟩⟩ :: .ok ⟨.symbol (.step .increment), ⟨3, 5⟩⟩ :: [] := rfl
  obtain ⟨hseen, -⟩ := step_position_iff (σ := Unit) (ρ := Unit) (ω := Unit) hbraces
  obtain ⟨hmissed, hrefused⟩ := step_position_iff hdollar
  refine ⟨hseen.mpr (.inr ⟨⟨"*", rfl⟩, by decide⟩), ?_,
    hrefused _ "*" .increment rfl rfl (by decide) rfl⟩
  refine Bool.eq_false_iff.mpr fun hends => ?_
  rcases hmissed.mp hends with ⟨n, hn⟩ | ⟨-, hnot⟩
  · cases hn
  · exact hnot (by decide)

/-- There is a value to change, and the step stands right behind the variable. -/
theorem step_behind_star_refused :
    tokens "$*++".toList =
        [.ok ⟨.variable "*", ⟨0, 2⟩⟩, .ok ⟨.symbol (.step .increment), ⟨2, 4⟩⟩] ∧
      endsWithName (takeBytes 2 "$*++".toList) = false ∧
      (outcome (evaluateInteger Bindings.access "$*++") (.ofList [("*", "5")])).1 =
        .error ⟨.malformedExpression, ⟨2, 4⟩⟩ := by
  refine ⟨rfl, by decide, ?_⟩
  decide +kernel

end ShellCore.Arith
