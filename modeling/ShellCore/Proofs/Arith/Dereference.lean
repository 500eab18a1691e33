import ShellCore.Proofs.Arith.Constant
import ShellCore.Proofs.Arith.Spacing
import ShellCore.Proofs.Arith.Written

/-! A constant is read alike as a number and as an expression. -/

namespace ShellCore.Arith

open Text

variable {σ ρ ω : Type} {base d n : Nat} {c : Char} {s gap gap' : List Char} {v : Int64}
  {f : Frame σ ρ ω}

theorem isNameChar_of_isDigit (h : IsDigit base c d) : isNameChar c ∨ c = '@' ∧ 62 < base := by
  have hsmall : ∀ d, d < 26 → isNameChar (Char.ofNat ('a'.toNat + d)) := by decide
  have hcapital : ∀ d, d < 26 → isNameChar (Char.ofNat ('A'.toNat + d)) := by decide
  cases h with
  | decimal h => exact .inl (isNameChar_digit _ h)
  | small h => exact .inl (hsmall _ h)
  | either h | capital h => exact .inl (hcapital _ h)
  | atSign hb => exact .inr ⟨rfl, hb⟩
  | underscore => exact .inl rfl

theorem Denotes.isNameChar (h : Denotes base s n) (hb : base ≤ 62) :
    ∀ c ∈ s, Arith.isNameChar c := by
  intro c hc
  obtain ⟨d, hd⟩ := h.isDigit c hc
  rcases isNameChar_of_isDigit hd with hn | ⟨-, hlt⟩
  · exact hn
  · omega

/-- A constant is one to its end. -/
theorem constantText_of_magnitude (h : Magnitude s n) : constantText s = s := by
  have hplain : (∀ c ∈ s, isNameChar c) → constantText s = s := fun hs => by
    rw [constantText, List.dropWhile_eq_nil_iff.mpr hs]
    exact List.takeWhile_eq_self_iff.mpr hs
  cases h with
  | @based _ _ b digits hs _ _ h =>
    have hname := hs.isNameChar (by decide)
    have hdigit : b.all Char.isDigit := by
      rw [List.all_eq_true]
      intro c hc
      obtain ⟨d, hd⟩ := hs.isDigit c hc
      obtain ⟨hlt, rfl⟩ := eq_digit_of_isDigit hd (Nat.le_refl 10)
      exact isDigit_digit d hlt
    have hsymbols : ∀ c ∈ digits, isNameChar c || c == '@' := by
      intro c hc
      obtain ⟨d, hd⟩ := h.isDigit c hc
      rcases isNameChar_of_isDigit hd with hn | ⟨rfl, -⟩
      · rw [hn, Bool.true_or]
      · rfl
    rw [constantText, takeWhile_append_cons (by rfl), dropWhile_append_cons (by rfl),
      List.takeWhile_eq_self_iff.mpr hname, List.dropWhile_eq_nil_iff.mpr hname]
    dsimp only [List.nil_append]
    refine (if_pos hdigit).trans ?_
    rw [List.takeWhile_eq_self_iff.mpr hsymbols]
  | hexadecimal hx h =>
    refine hplain (List.forall_mem_cons.mpr ⟨rfl, List.forall_mem_cons.mpr ⟨?_, ?_⟩⟩)
    · simp only [List.mem_cons, List.not_mem_nil, or_false] at hx
      rcases hx with rfl | rfl <;> rfl
    · exact h.isNameChar (by decide)
  | binary hb h =>
    refine hplain (List.forall_mem_cons.mpr ⟨rfl, List.forall_mem_cons.mpr ⟨?_, ?_⟩⟩)
    · simp only [List.mem_cons, List.not_mem_nil, or_false] at hb
      rcases hb with rfl | rfl <;> rfl
    · exact h.isNameChar (by decide)
  | octal h => exact hplain (List.forall_mem_cons.mpr ⟨rfl, h.isNameChar (by decide)⟩)
  | zero => rfl
  | decimal _ h => exact hplain (h.isNameChar (by decide))

theorem exists_of_unsigned? (h : unsigned? s = some v) :
    ∃ d r, d < 10 ∧ s = Decimal.digit d :: r := by
  obtain ⟨n, hn, -⟩ := unsigned?_eq_some_iff.mp h
  exact exists_of_magnitude hn

theorem lex_of_unsigned? (h : unsigned? s = some v) : lex s = (.ok (.constant v), s.length) := by
  obtain ⟨n, hn, -⟩ := unsigned?_eq_some_iff.mp h
  obtain ⟨d, r, hd, rfl⟩ := exists_of_magnitude hn
  rw [lex_of_ne_dollar (digit_ne_sign d hd).2.2, find?_spellings (isNameChar_digit d hd)]
  dsimp only [lexTerm]
  rw [if_pos (isDigit_digit d hd), constantText_of_magnitude hn, h]

/-- A constant up to the end of the text or to blanks. -/
theorem tokensFrom_of_unsigned? (h : unsigned? s = some v) (hg : ∀ c ∈ gap, isBlank c)
    (start : Nat) : tokensFrom start 0 (s ++ gap) =
      [.ok ⟨.constant v, ⟨start, start + byteLength s⟩⟩] := by
  have hl := lex_of_unsigned? h
  obtain ⟨d, r, hd, rfl⟩ := exists_of_unsigned? h
  have hend : lex (Decimal.digit d :: r ++ gap) = (.ok (.constant v), r.length + 1) := by
    cases gap with
    | nil => rwa [List.append_nil]
    | cons c gap => exact (lex_append (isDelimiter_of_isBlank (hg c List.mem_cons_self)) hl).1
  rw [tokensFrom_lexeme (Decimal.isBlank_digit d hd) hend, tokensFrom_blank hg]

theorem unsigned?_of_lex {l : List Char} (h : lex l = (.ok (.constant v), l.length)) :
    unsigned? l = some v := by
  cases written_of_lex_self h with
  | constant hn => exact hn

/-- A constant without a sign is a text that consists of one token, which is that constant. -/
theorem unsigned?_iff_tokens :
    unsigned? s = some v ↔ tokens s = [.ok ⟨.constant v, ⟨0, byteLength s⟩⟩] := by
  constructor
  · intro h
    have ht : tokensFrom 0 0 (s ++ []) = _ := tokensFrom_of_unsigned? h (List.forall_mem_nil _) 0
    rwa [List.append_nil, Nat.zero_add] at ht
  · intro h
    obtain ⟨gap, a, l, rest, rfl, -, -, hl, hspan, -⟩ := exists_of_tokensFrom h
    rw [byteLength_append, byteLength_append] at hspan
    injection hspan with hstart hstop
    obtain rfl : gap = [] := byteLength_eq_zero.mp (by omega)
    obtain rfl : rest = [] := byteLength_eq_zero.mp (by omega)
    rw [List.append_nil]
    exact unsigned?_of_lex hl

theorem exists_of_trim (s : List Char) : ∃ gap gap', s = gap ++ (trim s ++ gap') ∧
    (∀ c ∈ gap, isBlank c) ∧ ∀ c ∈ gap', isBlank c := by
  refine ⟨s.takeWhile isBlank, ((trimStart s).reverse.takeWhile isBlank).reverse, ?_,
    fun c hc => List.mem_takeWhile_imp hc,
    fun c hc => List.mem_takeWhile_imp (List.mem_reverse.mp hc)⟩
  have hend : trim s ++ ((trimStart s).reverse.takeWhile isBlank).reverse = trimStart s := by
    rw [trim, trimEnd, ← List.reverse_append, List.takeWhile_append_dropWhile,
      List.reverse_reverse]
  rw [hend, trimStart, List.takeWhile_append_dropWhile]

/-- A lexeme of one character, and what follows it. -/
theorem tokensFrom_char {value : TokenValue} (hc : isBlank c = false)
    (hl : lex (c :: s) = (.ok value, 1)) (start : Nat) :
    tokensFrom start 0 (c :: s) =
      .ok ⟨value, ⟨start, start + c.utf8Size⟩⟩ :: tokensFrom (start + c.utf8Size) 0 s :=
  tokensFrom_lexeme (s := []) hc hl

theorem lex_plus {d : Nat} (hd : d < 10) (s : List Char) :
    lex ('+' :: Decimal.digit d :: s) = (.ok (.symbol (.binary (.compute .add))), 1) := by
  have hs : Decimal.digit d ≠ '+' ∧ Decimal.digit d ≠ '=' := by
    revert d
    decide
  simp [lex, Symbol.spellings, List.isPrefixOf_cons_cons, hs.1.symm, hs.2.symm]

namespace Frame

theorem integer_plus {a b : Span} (ht : tokens f.source =
      [.ok ⟨.symbol (.binary (.compute .add)), a⟩, .ok ⟨.constant v, b⟩])
    (hd : f.stackDepth ≠ 0) : f.integer = pure v := by
  simp [integer, run, ht, readAll, read, readSymbol, readUnary, Symbol.asUnary?, pushPending, hd,
    pushOperand, finish, reduce, apply, popOperand, applyUnary, valueOf]

/-- A constant between blanks is an expression, even one with a sign, which is an operator then. -/
theorem integer_of_constant? (hs : f.source = gap ++ (s ++ gap')) (hg : ∀ c ∈ gap, isBlank c)
    (hg' : ∀ c ∈ gap', isBlank c) (h : constant? s = some v) (hd : f.stackDepth ≠ 0) :
    f.integer = pure v := by
  have hgap : tokens f.source = tokensFrom (byteLength gap) 0 (s ++ gap') := by
    rw [hs, tokens, tokensFrom_gap hg, Nat.zero_add]
  have hle := (constant?_eq_some_iff.mp h).2
  unfold constant? at h
  split at h
  · obtain ⟨u, hu, rfl⟩ := Option.map_eq_some_iff.mp h
    obtain ⟨d, r, hdigit, rfl⟩ := exists_of_unsigned? hu
    have hlex := lex_minus hdigit (r ++ gap')
    have ht := hgap.trans (tokensFrom_char (by decide) hlex _)
    rw [← List.cons_append, tokensFrom_of_unsigned? hu hg'] at ht
    have hneg : checked (-u.toInt) = .ok (-u) := by
      have hne : u ≠ Int64.minValue := by
        rintro rfl
        revert hle
        decide
      rw [checked, fit_neg, if_neg hne]
    rw [f.integer_negated ht hd, hneg]
    rfl
  · obtain ⟨d, r, hdigit, rfl⟩ := exists_of_unsigned? h
    have hlex := lex_plus hdigit (r ++ gap')
    have ht := hgap.trans (tokensFrom_char (by decide) hlex _)
    rw [← List.cons_append, tokensFrom_of_unsigned? h hg'] at ht
    exact integer_plus ht hd
  · exact f.integer_constant (hgap.trans (tokensFrom_of_unsigned? h hg' _)) hd

theorem integer_of_trim (hs : constant? (trim f.source) = some v) (hd : f.stackDepth ≠ 0) :
    f.integer = pure v := by
  obtain ⟨gap, gap', he, hg, hg'⟩ := exists_of_trim f.source
  exact integer_of_constant? he hg hg' hs hd

/-- The integer that a variable stands for, where a value that is not blank is always evaluated. -/
def resolveAsExpression (f : Frame σ ρ ω) (name : String) (span : Span) : EvalM σ ρ ω Int64 := do
  match ← f.get name span with
  | none => pure 0
  | some value =>
    let text := trim value.toList
    if text.isEmpty then pure 0 else f.descend text span (blameVariable text span)

theorem resolve_eq_resolveAsExpression {levels : Nat}
    (hi : f.inner = evaluateNested f.access f.stackDepth (levels + 1)) (hd : 0 < f.stackDepth)
    (name : String) (span : Span) : f.resolve name span = f.resolveAsExpression name span := by
  refine bind_congr fun value => ?_
  cases value with
  | none => rfl
  | some value =>
    dsimp only
    split
    · rfl
    · cases hc : constant? (trim value.toList) with
      | none => rfl
      | some n =>
        have hs : trim value.toList = [] ++ (trim value.toList ++ []) := by simp
        have hinteger : Frame.integer ⟨f.access, f.stackDepth, trim value.toList,
            evaluateNested f.access f.stackDepth levels⟩ = pure n :=
          integer_of_constant? hs (List.forall_mem_nil _) (List.forall_mem_nil _) hc hd.ne'
        rw [descend, hi, evaluateNested]
        dsimp only
        rw [hinteger]
        rfl

end Frame

theorem evaluateInteger_of_constant? {text : String} (h : constant? (trim text.toList) = some v)
    (access : Access σ ρ ω) : evaluateInteger access text = pure v :=
  Frame.integer_of_trim (f := frame access {} text.toList) h (Nat.succ_ne_zero 63)

theorem constant?_of_unsigned (hs : ∀ c ∈ s.head?, c ≠ '+' ∧ c ≠ '-') :
    constant? s = unsigned? s := by
  unfold constant?
  split
  · exact absurd rfl (hs '-' rfl).2
  · exact absurd rfl (hs '+' rfl).1
  · rfl

/-- A text that is a constant between blanks is evaluated to that constant, with nothing asked of
the surroundings. A text without a sign is a constant if and only if it consists of that one token.
So no variable has another integer if its value is evaluated although it is a constant, as long as
there is a level left for that and a stack holds one item. -/
theorem constants_evaluate_to_themselves {σ ρ ω : Type} :
    (∀ (access : Access σ ρ ω) (text : String) (n : Int64),
      constant? (trim text.toList) = some n →
        evaluateInteger access text = pure n ∧
        ∀ s log, outcome (evaluateInteger access.recorded text) (s, log) = (.ok n, s, log)) ∧
    (∀ (s : List Char) (n : Int64), (∀ c ∈ s.head?, c ≠ '+' ∧ c ≠ '-') →
      (constant? s = some n ↔ tokens s = [.ok ⟨.constant n, ⟨0, byteLength s⟩⟩])) ∧
    ∀ (f : Frame σ ρ ω) (levels : Nat),
      f.inner = evaluateNested f.access f.stackDepth (levels + 1) → 0 < f.stackDepth →
      ∀ name span, f.resolve name span = f.resolveAsExpression name span := by
  refine ⟨fun access text n h => ⟨evaluateInteger_of_constant? h access, fun s log => ?_⟩,
    fun s n hs => ?_, fun f levels => Frame.resolve_eq_resolveAsExpression⟩
  · rw [evaluateInteger_of_constant? h access.recorded]
    rfl
  · rw [constant?_of_unsigned hs, unsigned?_iff_tokens]

/-- The sign is part of the constant for one reader and an operator for the other. -/
theorem signed_constant_evaluates_to_itself :
    let f := frame Bindings.access ⟨1, 1⟩ "x".toList
    evaluateInteger Bindings.access " -0x1F\u3000" = pure (-31) ∧
      tokens "0x1F".toList = [.ok ⟨.constant 31, ⟨0, 4⟩⟩] ∧
      f.resolve "x" ⟨0, 1⟩ = f.resolveAsExpression "x" ⟨0, 1⟩ := by
  intro f
  obtain ⟨hvalue, htokens, hresolve⟩ :=
    constants_evaluate_to_themselves (σ := Bindings) (ρ := Empty) (ω := Empty)
  refine ⟨(hvalue Bindings.access _ _ (by decide +kernel)).1,
    (htokens _ 31 (by simp)).mp (by decide +kernel), hresolve f 0 rfl (by decide) _ _⟩

end ShellCore.Arith
