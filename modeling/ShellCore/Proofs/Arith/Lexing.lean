import Mathlib.Data.List.Find
import ShellCore.Proofs.Arith.Brackets

/-! Lexemes and tokens in a longer text. -/

namespace ShellCore.Arith

open Text

variable {α : Type} {p : α → Bool} {a d : Char} {s t : List Char} {n : Nat}
  {v : TokenValue}

/-- The character ends every lexeme before it. It is part of no name or constant, and only at the
start of an operator. -/
structure IsDelimiter (d : Char) : Prop where
  name : isNameChar d = false
  hash : d ≠ '#'
  digit : d ≠ '@'
  operator (q : List Char × Symbol) (h : q ∈ Symbol.spellings) : d ∉ q.1.tail

theorem isDelimiter_closeParen : IsDelimiter ')' := ⟨rfl, by decide, by decide, by decide⟩

theorem takeWhile_append_cons {a : α} {s t : List α} (h : p a = false) :
    (s ++ a :: t).takeWhile p = s.takeWhile p := by
  induction s with
  | nil => simp [h]
  | cons b s ih => by_cases hb : p b <;> simp [hb, ih]

theorem dropWhile_append_cons {a : α} {s t : List α} (h : p a = false) :
    (s ++ a :: t).dropWhile p = s.dropWhile p ++ a :: t := by
  induction s with
  | nil => simp [h]
  | cons b s ih => by_cases hb : p b <;> simp [hb, ih]

theorem length_takeWhile_le (s : List α) : (s.takeWhile p).length ≤ s.length :=
  (List.takeWhile_sublist p).length_le

theorem isPrefixOf_append_cons {q : List Char} (h : d ∉ q) :
    q.isPrefixOf (s ++ d :: t) = q.isPrefixOf s := by
  induction q generalizing s with
  | nil => simp
  | cons b q ih =>
    obtain ⟨hb, hq⟩ := List.ne_and_not_mem_of_not_mem_cons h
    cases s with
    | nil => simp [List.isPrefixOf_cons_cons, hb.symm]
    | cons c s => simp [List.isPrefixOf_cons_cons, ih hq]

/-- No operator starts as a name does. -/
theorem find?_spellings {c : Char} (hc : isNameChar c) (s : List Char) :
    Symbol.spellings.find? (fun p => p.1.isPrefixOf (c :: s)) = none := by
  have hall : ∀ p ∈ Symbol.spellings, ∃ d rest, p.1 = d :: rest ∧ isNameChar d = false := by
    have hb : Symbol.spellings.all fun p => p.1.head?.any fun d => !isNameChar d := by decide
    intro p hp
    have hp := List.all_eq_true.mp hb p hp
    cases hd : p.1 with
    | nil => simp [hd] at hp
    | cons d rest => exact ⟨d, rest, rfl, by simpa [hd] using hp⟩
  refine List.find?_eq_none.mpr fun p hp => ?_
  obtain ⟨d, rest, hd, hn⟩ := hall p hp
  have hne : d ≠ c := by
    rintro rfl
    rw [hc] at hn
    cases hn
  simp [hd, hne]

/-- The spellings of the operators that the text starts with are the same in a longer text. -/
theorem find?_spellings_append (hd : IsDelimiter d) :
    Symbol.spellings.find? (fun q => q.1.isPrefixOf (a :: s ++ d :: t)) =
      Symbol.spellings.find? (fun q => q.1.isPrefixOf (a :: s)) := by
  refine List.find?_congr fun q hq => ?_
  have ht := hd.operator q hq
  rcases hs : q.1 with - | ⟨b, r⟩
  · simp
  · rw [hs, List.tail_cons] at ht
    simp [List.isPrefixOf_cons_cons, isPrefixOf_append_cons ht]

/-- A dollar sign before something else than an opening bracket. -/
theorem lexDollar_cons (h₁ : a ≠ '(') (h₂ : a ≠ '[') (h₃ : a ≠ '\x7b') :
    lexDollar (a :: s) =
      if isSpecialParameter a then (.ok (.variable (String.ofList [a])), 2)
      else if isNameChar a then
        (.ok (.variable (String.ofList ((a :: s).takeWhile isNameChar))),
          ((a :: s).takeWhile isNameChar).length + 1)
      else (.error .strayCharacter, 1) := by
  unfold lexDollar
  split
  · rename_i he
    injection he with he
    exact absurd he h₁
  · rename_i he
    injection he with he
    exact absurd he h₂
  · rename_i he
    injection he with he
    exact absurd he h₃
  · rename_i he
    injection he with ha hs
    subst ha hs
    rfl
  · rename_i he
    cases he

theorem lexDollar_brace_append (t : List Char) (h : lexDollar ('\x7b' :: s) = (.ok v, n)) :
    lexDollar ('\x7b' :: (s ++ t)) = (.ok v, n) ∧ n ≤ s.length + 2 := by
  rw [lexDollar] at h ⊢
  split at h
  · rename_i hc
    cases h
    rw [Bool.and_eq_true, List.contains_iff_mem] at hc
    obtain ⟨l, r, rfl⟩ := List.append_of_mem hc.1
    -- The first brace ends the name, whatever comes after it.
    have hname : ∀ r, (l ++ '\x7d' :: r).takeWhile (· != '\x7d') = l.takeWhile (· != '\x7d') :=
      fun r => takeWhile_append_cons (by simp)
    have hl := length_takeWhile_le (p := (· != '\x7d')) l
    rw [hname] at hc ⊢
    refine ⟨?_, by simp only [List.length_cons, List.length_append]; omega⟩
    rw [List.append_assoc, List.cons_append, hname, hc.2]
    simp
  · cases h

/-- A lexeme that is a token stays one, and stays as long, before a delimiter. -/
theorem lexDollar_append (hd : IsDelimiter d) (h : lexDollar s = (.ok v, n)) :
    lexDollar (s ++ d :: t) = (.ok v, n) ∧ n ≤ s.length + 1 := by
  have hform := h
  unfold lexDollar at h
  split at h
  · exact Brackets.parens.lexDollar_opener_append (d :: t) hform
  · exact Brackets.square.lexDollar_opener_append (d :: t) hform
  · exact lexDollar_brace_append (d :: t) hform
  · rename_i c r h₁ h₂ h₃
    have hopen : c ≠ '(' ∧ c ≠ '[' ∧ c ≠ '\x7b' := by
      refine ⟨?_, ?_, ?_⟩ <;>
      · rintro rfl
        cases h
    rw [List.cons_append, lexDollar_cons hopen.1 hopen.2.1 hopen.2.2, ← List.cons_append,
      takeWhile_append_cons hd.name]
    refine ⟨h, ?_⟩
    have hl := length_takeWhile_le (p := isNameChar) (c :: r)
    split at h
    · cases h
      simp
    · split at h
      · cases h
        omega
      · cases h
  · cases h

theorem isPrefix_constantText (s : List Char) : constantText s <+: s := by
  have hs := List.takeWhile_append_dropWhile (p := isNameChar) (l := s)
  unfold constantText
  dsimp only
  split
  · rename_i digits hd
    split
    · refine ⟨digits.dropWhile fun c => isNameChar c || c == '@', ?_⟩
      rw [List.append_assoc, List.cons_append, List.takeWhile_append_dropWhile, ← hd, hs]
    · exact List.takeWhile_prefix _
  · exact List.takeWhile_prefix _

theorem constantText_append (hd : IsDelimiter d) : constantText (s ++ d :: t) = constantText s := by
  have hdigit : (isNameChar d || d == '@') = false := by
    rw [hd.name, beq_eq_false_iff_ne.mpr hd.digit]
    rfl
  unfold constantText
  rw [takeWhile_append_cons hd.name, dropWhile_append_cons hd.name]
  rcases s.dropWhile isNameChar with - | ⟨c, digits⟩
  · rw [List.nil_append]
    split
    · rename_i h
      injection h with h
      exact absurd h hd.hash
    · rfl
  · by_cases hc : c = '#'
    · subst hc
      have hrest : (digits ++ d :: t).takeWhile (fun c => isNameChar c || c == '@') =
          digits.takeWhile fun c => isNameChar c || c == '@' := takeWhile_append_cons hdigit
      rw [List.cons_append]
      simp only [hrest]
    · rw [List.cons_append]
      split
      · rename_i h
        injection h with h
        exact absurd h hc
      · split
        · rename_i h
          injection h with h
          exact absurd h hc
        · rfl

theorem lexTerm_append (hd : IsDelimiter d) (h : lexTerm s = (.ok v, n)) :
    lexTerm (s ++ d :: t) = (.ok v, n) ∧ n ≤ s.length := by
  cases s with
  | nil => cases h
  | cons c s =>
    have ht : constantText (c :: s ++ d :: t) = constantText (c :: s) := constantText_append hd
    have hn : (c :: s ++ d :: t).takeWhile isNameChar = (c :: s).takeWhile isNameChar :=
      takeWhile_append_cons hd.name
    rw [List.cons_append] at ht hn ⊢
    simp only [lexTerm, ht, hn] at h ⊢
    refine ⟨h, ?_⟩
    split at h
    · split at h <;> cases h
      exact (isPrefix_constantText (c :: s)).length_le
    · split at h <;> cases h
      exact length_takeWhile_le _

theorem lex_of_ne_dollar (ha : a ≠ '$') (s : List Char) :
    lex (a :: s) = match Symbol.spellings.find? fun p => p.1.isPrefixOf (a :: s) with
      | some (spelling, symbol) => (.ok (.symbol symbol), spelling.length)
      | none => lexTerm (a :: s) := by
  unfold lex
  split
  · rename_i he
    injection he with he
    exact absurd he ha
  · rfl

/-- A lexeme that is a token stays one, and stays as long, before a delimiter. -/
theorem lex_append (hd : IsDelimiter d) (h : lex (a :: s) = (.ok v, n)) :
    lex (a :: s ++ d :: t) = (.ok v, n) ∧ n ≤ (a :: s).length := by
  by_cases ha : a = '$'
  · subst ha
    exact lexDollar_append hd h
  · rw [lex_of_ne_dollar ha] at h
    rw [List.cons_append, lex_of_ne_dollar ha, ← List.cons_append, find?_spellings_append hd]
    split at h
    · rename_i spelling symbol hf
      cases h
      have hp := List.find?_some hf
      exact ⟨rfl, (List.isPrefixOf_iff_prefix.mp hp).length_le⟩
    · exact lexTerm_append hd h

/-- The token as it stands so many bytes further on. -/
def Token.shift (k : Nat) (t : Token) : Token := { t with span := t.span.shift k }

def Reading.shift (k : Nat) : Reading → Reading
  | .ok t => .ok (t.shift k)
  | .error (e, span) => .error (e, span.shift k)

theorem tokensFrom_shift (k start inside : Nat) (s : List Char) :
    tokensFrom (start + k) inside s = (tokensFrom start inside s).map (Reading.shift k) := by
  induction s generalizing start inside with
  | nil => rfl
  | cons c s ih =>
    have hc : start + k + c.utf8Size = start + c.utf8Size + k := by omega
    cases inside with
    | succ inside =>
      rw [tokensFrom, tokensFrom, hc]
      exact ih _ _
    | zero =>
      rw [tokensFrom, tokensFrom, hc]
      split
      · exact ih _ _
      · rcases lex (c :: s) with ⟨e | v, n⟩
        · simp [Reading.shift, Span.shift]
          omega
        · simp [Reading.shift, Token.shift, Span.shift, ih]
          omega

/-- Tokens stay as they are before a delimiter. -/
theorem tokensFrom_append (hd : IsDelimiter d) {start inside : Nat} {ts : List Token}
    (hi : inside ≤ s.length) (h : tokensFrom start inside s = ts.map .ok) :
    tokensFrom start inside (s ++ d :: t) =
      ts.map .ok ++ tokensFrom (start + byteLength s) 0 (d :: t) := by
  induction s generalizing start inside ts with
  | nil =>
    obtain rfl : inside = 0 := Nat.le_zero.mp hi
    obtain rfl : ts = [] := List.map_eq_nil_iff.mp h.symm
    rfl
  | cons c s ih =>
    have hb : start + byteLength (c :: s) = start + c.utf8Size + byteLength s := by simp; omega
    rw [hb, List.cons_append]
    cases inside with
    | succ inside =>
      rw [tokensFrom] at h ⊢
      exact ih (Nat.le_of_succ_le_succ hi) h
    | zero =>
      rw [tokensFrom] at h ⊢
      by_cases hblank : isBlank c
      · rw [if_pos hblank] at h ⊢
        exact ih (Nat.zero_le _) h
      · rw [if_neg hblank] at h ⊢
        rcases hl : lex (c :: s) with ⟨e | v, n⟩
        · rw [hl] at h
          cases ts with
          | nil => cases h
          | cons => cases h
        · obtain ⟨ha, hn⟩ := lex_append (t := t) hd hl
          rw [hl] at h
          rw [← List.cons_append, ha]
          cases ts with
          | nil => cases h
          | cons a ts =>
            injection h with ht h
            have hlen : n - 1 ≤ s.length := by
              rw [List.length_cons] at hn
              omega
            dsimp only
            rw [List.take_append_of_le_length hn, ht, ih hlen h]
            rfl

theorem span_of_mem_tokensFrom {start inside : Nat} {a : Token}
    (h : .ok a ∈ tokensFrom start inside s) :
    start ≤ a.span.start ∧ a.span.start ≤ start + byteLength s := by
  induction s generalizing start inside with
  | nil => cases h
  | cons c s ih =>
    rw [byteLength_cons]
    have hstep : ∀ inside, .ok a ∈ tokensFrom (start + c.utf8Size) inside s →
        start ≤ a.span.start ∧ a.span.start ≤ start + (c.utf8Size + byteLength s) := by
      intro inside h
      obtain ⟨h₁, h₂⟩ := ih h
      exact ⟨by omega, by omega⟩
    cases inside with
    | succ inside =>
      rw [tokensFrom] at h
      exact hstep _ h
    | zero =>
      rw [tokensFrom] at h
      split at h
      · exact hstep _ h
      · rcases hl : lex (c :: s) with ⟨e | v, n⟩
        · simp [hl] at h
        · rw [hl] at h
          rcases List.mem_cons.mp h with h | h
          · cases h
            exact ⟨Nat.le_refl _, Nat.le_add_right _ _⟩
          · exact hstep _ h

theorem span_start_le {ts : List Token} {a : Token} (h : tokens s = ts.map .ok) (ha : a ∈ ts) :
    a.span.start ≤ byteLength s := by
  have hm : (.ok a : Reading) ∈ tokens s := by
    rw [h]
    exact List.mem_map_of_mem ha
  simpa using (span_of_mem_tokensFrom hm).2

theorem tokensFrom_of_tokens {ts : List Token} (h : tokens s = ts.map .ok) (k : Nat) :
    tokensFrom k 0 s = (ts.map (Token.shift k)).map .ok := by
  have hk := tokensFrom_shift k 0 0 s
  rw [Nat.zero_add] at hk
  refine hk.trans ((congrArg _ h).trans ?_)
  rw [List.map_map, List.map_map]
  rfl

/-- A lexeme, and what follows it. -/
theorem tokensFrom_lexeme {start : Nat} (hb : isBlank a = false)
    (hl : lex (a :: s ++ t) = (.ok v, s.length + 1)) :
    tokensFrom start 0 (a :: s ++ t) =
      .ok ⟨v, ⟨start, start + byteLength (a :: s)⟩⟩ ::
        tokensFrom (start + byteLength (a :: s)) 0 t := by
  have hskip : ∀ (s : List Char) (start : Nat),
      tokensFrom start s.length (s ++ t) = tokensFrom (start + byteLength s) 0 t := by
    intro s
    induction s with
    | nil =>
      intro start
      rfl
    | cons c s ih =>
      intro start
      rw [List.length_cons, List.cons_append, tokensFrom, ih, byteLength_cons, Nat.add_assoc]
  rw [List.cons_append] at hl ⊢
  rw [tokensFrom, if_neg (by simp [hb]), hl]
  dsimp only
  rw [Nat.add_sub_cancel, hskip, byteLength_cons, ← Nat.add_assoc]
  simp [Nat.add_assoc]

/-- A variable that needs neither a dollar sign nor braces. -/
structure IsVariableName (s : List Char) : Prop where
  chars : ∀ c ∈ s, isNameChar c
  head : s.head?.any fun c => !c.isDigit

theorem isBlank_of_isNameChar {c : Char} (h : isNameChar c) : isBlank c = false := by
  have hc : 65 ≤ c.toNat ∧ c.toNat ≤ 90 ∨ 97 ≤ c.toNat ∧ c.toNat ≤ 122 ∨
      48 ≤ c.toNat ∧ c.toNat ≤ 57 ∨ c.toNat = 95 := by
    change ((decide (c.val ≥ 'A'.val ∧ c.val ≤ 'Z'.val) ||
      (decide (c.val ≥ 'a'.val) && decide (c.val ≤ 'z'.val)) ||
      (decide (c.val ≥ '0'.val) && decide (c.val ≤ '9'.val))) || c == '_') = true at h
    simp only [Bool.or_eq_true, Bool.and_eq_true, decide_eq_true_eq, beq_iff_eq,
      UInt32.le_iff_toNat_le, Char.toNat_val] at h
    rcases h with ((h | h) | h) | rfl
    · exact .inl h
    · exact .inr (.inl h)
    · exact .inr (.inr (.inl h))
    · exact .inr (.inr (.inr rfl))
  simp only [isBlank, Bool.or_eq_false_iff, Bool.and_eq_false_iff, decide_eq_false_iff_not,
    beq_eq_false_iff_ne]
  omega

/-- A name that ends with its text or before a character that is not part of it. -/
theorem lex_name (hs : IsVariableName s) (ht : ∀ c ∈ t.head?, isNameChar c = false) :
    lex (s ++ t) = (.ok (.variable (String.ofList s)), s.length) := by
  have hw : (s ++ t).takeWhile isNameChar = s := by
    rw [List.takeWhile_append_of_pos hs.chars]
    cases t with
    | nil => simp
    | cons c t => simp [ht c rfl]
  obtain ⟨hc, hd⟩ := hs
  cases s with
  | nil => cases hd
  | cons c s =>
    have hn := hc c List.mem_cons_self
    have hd : c.isDigit = false := by simpa using hd
    rw [List.cons_append] at hw ⊢
    unfold lex
    split
    · rename_i he
      injection he with he
      subst he
      cases hn
    · rw [find?_spellings hn]
      simp [lexTerm, hd, hn, hw]

theorem tokens_name (hs : IsVariableName s) (ht : ∀ c ∈ t.head?, isNameChar c = false) :
    tokens (s ++ t) =
      .ok ⟨.variable (String.ofList s), ⟨0, byteLength s⟩⟩ :: tokensFrom (byteLength s) 0 t := by
  have hl := lex_name hs ht
  obtain ⟨hc, hd⟩ := hs
  cases s with
  | nil => cases hd
  | cons c s =>
    have hb := isBlank_of_isNameChar (hc c List.mem_cons_self)
    rw [tokens, tokensFrom_lexeme hb hl, Nat.zero_add]

end ShellCore.Arith
