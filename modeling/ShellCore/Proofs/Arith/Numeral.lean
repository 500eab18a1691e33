import Mathlib.Data.List.TakeWhile
import ShellCore.Arith.Expansion
import ShellCore.Proofs.Arith.Lexing
import ShellCore.Proofs.Arith.Outcome
import ShellCore.Proofs.Decimal

/-! A number written in decimal is an expression that stands for itself. -/

namespace ShellCore.Arith

open Decimal Text

variable {σ ρ ω : Type} {s t : List Char} {n high base : Nat}

theorem digitValue?_digit : ∀ d, d < 10 → digitValue? 10 (digit d) = some d := by decide

theorem isNameChar_digit : ∀ d, d < 10 → isNameChar (digit d) := by decide

theorem isDigit_digit : ∀ d, d < 10 → (digit d).isDigit := by decide

theorem digit_ne_hash : ∀ d, d < 10 → digit d ≠ '#' := by decide

theorem readDigitsAfter?_append (base high : Nat) (s t : List Char) :
    readDigitsAfter? base high (s ++ t) =
      (readDigitsAfter? base high s).bind (readDigitsAfter? base · t) := by
  induction s generalizing high with
  | nil => rfl
  | cons c s ih =>
    rw [List.cons_append, readDigitsAfter?, readDigitsAfter?]
    cases digitValue? base c with
    | none => rfl
    | some d => exact ih _

theorem readDigitsAfter?_ofNat (n : Nat) : readDigitsAfter? 10 0 (ofNat n) = some n := by
  induction n using ofNat.induct with
  | case1 n hn =>
    rw [ofNat, if_pos hn]
    simp [readDigitsAfter?, digitValue?_digit n hn]
  | case2 n hn ih =>
    have hd := digitValue?_digit (n % 10) (Nat.mod_lt n (by omega))
    rw [ofNat, if_neg hn, readDigitsAfter?_append, ih]
    simp only [Option.bind_some, readDigitsAfter?, hd, Option.some.injEq]
    omega

theorem readDigits?_ofNat (n : Nat) : readDigits? 10 (ofNat n) = some n := by
  have hne := ofNat_ne_nil n
  rw [readDigits?, if_neg (by simpa using hne), readDigitsAfter?_ofNat]

theorem natText_injective {m n : Nat} (h : natText m = natText n) : m = n := by
  have hl : ofNat m = ofNat n := String.ofList_injective h
  have hm := readDigits?_ofNat m
  rw [hl, readDigits?_ofNat n] at hm
  exact (Option.some.inj hm).symm

theorem dropWhile_ne_hash (h : IsDigits s) : s.dropWhile (· != '#') = [] := by
  rw [List.dropWhile_eq_nil_iff]
  intro c hc
  obtain ⟨d, hd, rfl⟩ := h c hc
  simpa using digit_ne_hash d hd

theorem magnitude?_ofNat (n : Nat) : magnitude? (ofNat n) = some n := by
  have hr := readDigits?_ofNat n
  have hz : ∀ c s, ofNat n ≠ '0' :: c :: s := by
    intro c s h
    rcases Nat.eq_zero_or_pos n with rfl | hn
    · rw [ofNat, if_pos (by decide)] at h
      cases h
    · exact head?_ofNat hn (by rw [h]; rfl)
  unfold magnitude?
  split
  · rename_i h
    exact absurd h (hz _ _)
  · rename_i h
    exact absurd h (hz _ _)
  · rename_i h
    exact absurd h (hz _ _)
  · rename_i h
    exact absurd h (hz _ _)
  · rename_i h
    exact absurd h (hz _ _)
  · exact hr

theorem unsigned?_ofNat (n : Nat) : unsigned? (ofNat n) = fit n := by
  rw [unsigned?, dropWhile_ne_hash (isDigits_ofNat n), magnitude?_ofNat]
  rfl

theorem digit_ne_sign : ∀ d, d < 10 → digit d ≠ '-' ∧ digit d ≠ '+' ∧ digit d ≠ '$' := by decide

theorem constant?_ofNat (n : Nat) : constant? (ofNat n) = fit n := by
  have hs := isDigits_ofNat n
  have hu := unsigned?_ofNat n
  have hne := ofNat_ne_nil n
  cases hc : ofNat n with
  | nil => exact absurd hc hne
  | cons c s =>
    rw [hc] at hs hu
    obtain ⟨d, hd, rfl⟩ := hs c List.mem_cons_self
    obtain ⟨hm, hp, -⟩ := digit_ne_sign d hd
    unfold constant?
    split
    · rename_i h
      injection h with h
      exact absurd h hm
    · rename_i h
      injection h with h
      exact absurd h hp
    · exact hu

/-- The lexeme of digits up to the end of the text. -/
theorem lex_digits (h : IsDigits s) (hne : s ≠ []) :
    lex s = match unsigned? s with
      | some n => (.ok (.constant n), s.length)
      | none => (.error .invalidConstant, s.length) := by
  have hname : ∀ c ∈ s, isNameChar c := by
    intro c hc
    obtain ⟨d, hd, rfl⟩ := h c hc
    exact isNameChar_digit d hd
  have htext : constantText s = s := by
    unfold constantText
    rw [List.dropWhile_eq_nil_iff.mpr hname]
    exact List.takeWhile_eq_self_iff.mpr hname
  cases s with
  | nil => exact absurd rfl hne
  | cons c s =>
    obtain ⟨d, hd, rfl⟩ := h c List.mem_cons_self
    unfold lex
    split
    · rename_i hc
      injection hc with hc
      exact absurd hc (digit_ne_sign d hd).2.2
    · rw [find?_spellings (isNameChar_digit d hd)]
      cases hu : unsigned? (digit d :: s) <;> simp [lexTerm, isDigit_digit d hd, htext, hu]

theorem tokensFrom_inside (start : Nat) (s : List Char) : tokensFrom start s.length s = [] := by
  induction s generalizing start with
  | nil => rfl
  | cons c s ih => exact ih _

/-- Digits are a single constant, or else one too large. -/
theorem tokens_ofNat (n : Nat) :
    ∃ span, tokens (ofNat n) = match fit n with
      | some v => [.ok ⟨.constant v, span⟩]
      | none => [.error (.invalidConstant, span)] := by
  have hs := isDigits_ofNat n
  have hu := unsigned?_ofNat n
  have hl := lex_digits hs (ofNat_ne_nil n)
  rw [hu] at hl
  cases hc : ofNat n with
  | nil => exact absurd hc (ofNat_ne_nil n)
  | cons c s =>
    rw [hc] at hs hl
    obtain ⟨d, hd, rfl⟩ := hs c List.mem_cons_self
    refine ⟨⟨0, 0 + byteLength (digit d :: s)⟩, ?_⟩
    rw [tokens, tokensFrom, isBlank_digit d hd, if_neg Bool.false_ne_true, hl]
    cases fit n with
    | none => simp
    | some v => simp [tokensFrom_inside]

theorem fit_of_le (hn : (n : Int) ≤ Int64.maxValue.toInt) : ∃ v, fit n = some v := by
  have hmin : Int64.minValue.toInt ≤ 0 := by decide
  exact ⟨_, if_pos ⟨by omega, hn⟩⟩

theorem toInt_of_fit {v : Int64} (h : fit n = some v) : v.toInt = n := by
  have hmax : Int64.maxValue.toInt = 9223372036854775807 := rfl
  unfold fit at h
  split at h
  · rename_i hn
    cases h
    exact Int64.toInt_ofInt_of_le (by omega) (by omega)
  · cases h

/-- A number is evaluated without a look at the state. If it is too large, the evaluation fails. -/
theorem evaluateInteger_natText (access : Access σ ρ ω) (n : Nat) (state : σ) :
    ∃ e, (evaluateInteger access (natText n)).run.run state =
      match fit n with
      | some v => (.ok v, state)
      | none => (.error e, state) := by
  obtain ⟨span, ht⟩ := tokens_ofNat n
  refine ⟨⟨.token .invalidConstant, span⟩, ?_⟩
  unfold evaluateInteger Frame.integer Frame.run frame natText
  rw [String.toList_ofList]
  dsimp only
  rw [ht]
  cases fit n with
  | none => rfl
  | some v => rfl

/-- A machine word is its own fit. -/
theorem fit_toInt (v : Int64) : fit v.toInt = some v := by
  have hl := v.minValue_le_toInt
  have hu := v.toInt_lt
  have hmax : Int64.maxValue.toInt = 9223372036854775807 := rfl
  rw [fit, if_pos ⟨hl, by omega⟩, Int64.ofInt_toInt]

/-- Only the least word has a negation that does not fit. -/
theorem fit_neg (v : Int64) : fit (-v.toInt) = if v = Int64.minValue then none else some (-v) := by
  have hl := v.minValue_le_toInt
  have hu := v.toInt_lt
  have hmin : Int64.minValue.toInt = -9223372036854775808 := rfl
  have hmax : Int64.maxValue.toInt = 9223372036854775807 := rfl
  by_cases h : v = Int64.minValue
  · subst h
    exact if_neg (by decide)
  · have hne : v.toInt ≠ Int64.minValue.toInt := fun he => h (Int64.toInt_inj.mp he)
    rw [if_neg h, fit, if_pos ⟨by omega, by omega⟩, Int64.ofInt_neg, Int64.ofInt_toInt]

theorem constant?_ofInt (v : Int64) :
    constant? (ofInt v.toInt) = if v = Int64.minValue then none else some v := by
  have hf := fit_toInt v
  have hn := fit_neg v
  rcases hv : v.toInt with m | m
  · have hne : v ≠ Int64.minValue := by
      rintro rfl
      cases hv
    rw [if_neg hne, ← hf, hv]
    exact constant?_ofNat m
  · rw [hv] at hn
    show (unsigned? (ofNat (m + 1))).map (-·) = _
    rw [unsigned?_ofNat]
    have hm : -Int.negSucc m = ((m + 1 : Nat) : Int) := rfl
    rw [← hm, hn]
    split
    · rfl
    · rw [Option.map_some, Int64.neg_neg]

theorem lex_minus {d : Nat} (hd : d < 10) (s : List Char) :
    lex ('-' :: digit d :: s) = (.ok (.symbol (.binary (.compute .subtract))), 1) := by
  have hs : digit d ≠ '-' ∧ digit d ≠ '=' := by
    revert d
    decide
  simp [lex, Symbol.spellings, List.isPrefixOf_cons_cons, hs.1.symm, hs.2.symm]

theorem tokens_neg (n : Nat) :
    tokens ('-' :: ofNat n) = .ok ⟨.symbol (.binary (.compute .subtract)), ⟨0, 1⟩⟩ ::
      (tokens (ofNat n)).map (Reading.shift 1) := by
  rw [tokens, tokens, ← tokensFrom_shift]
  cases hc : ofNat n with
  | nil => exact absurd hc (ofNat_ne_nil n)
  | cons c s =>
    obtain ⟨d, hd, rfl⟩ := isDigits_ofNat n c (hc ▸ List.mem_cons_self)
    have hl := lex_minus hd s
    rw [tokensFrom, if_neg (by decide), hl]
    rfl

namespace Frame

variable (f : Frame σ ρ ω) {v : Int64} {a b : Span}

theorem integer_constant (ht : tokens f.source = [.ok ⟨.constant v, a⟩]) (hd : f.stackDepth ≠ 0) :
    f.integer = pure v := by
  simp [integer, run, ht, readAll, read, pushOperand, hd, finish, reduce, valueOf]

theorem integer_negated (ht : tokens f.source =
      [.ok ⟨.symbol (.binary (.compute .subtract)), a⟩, .ok ⟨.constant v, b⟩])
    (hd : f.stackDepth ≠ 0) : f.integer = orFault a (checked (-v.toInt)) := by
  simp [integer, run, ht, readAll, read, readSymbol, readUnary, Symbol.asUnary?, pushPending, hd,
    pushOperand, finish, reduce, apply, popOperand, applyUnary, valueOf]

theorem integer_negated_error {e : TokenError} (ht : tokens f.source =
      [.ok ⟨.symbol (.binary (.compute .subtract)), a⟩, .error (e, b)])
    (hd : f.stackDepth ≠ 0) : f.integer = fail (.token e) b := by
  simp [integer, run, ht, readAll, read, readSymbol, readUnary, Symbol.asUnary?, pushPending, hd]

/-- A number is evaluated without a look at the state, save that the least one is none. -/
theorem integer_ofInt (v : Int64) (hs : f.source = ofInt v.toInt) (hd : f.stackDepth ≠ 0) :
    ∃ span, f.integer =
      if v = Int64.minValue then fail (.token .invalidConstant) span else pure v := by
  have hf := fit_toInt v
  have hn := fit_neg v
  rcases hv : v.toInt with m | m
  · have hne : v ≠ Int64.minValue := by
      rintro rfl
      cases hv
    obtain ⟨span, ht⟩ := tokens_ofNat m
    have hm : fit m = some v := by rwa [hv] at hf
    rw [hm] at ht
    rw [hv] at hs
    have hs : f.source = ofNat m := hs
    rw [← hs] at ht
    refine ⟨span, ?_⟩
    rw [if_neg hne]
    exact f.integer_constant ht hd
  · obtain ⟨span, ht⟩ := tokens_ofNat (m + 1)
    have hm : -Int.negSucc m = ((m + 1 : Nat) : Int) := rfl
    rw [hv, hm] at hn
    rw [hv] at hs
    have hs : f.source = '-' :: ofNat (m + 1) := hs
    refine ⟨span.shift 1, ?_⟩
    by_cases hmin : v = Int64.minValue
    · rw [if_pos hmin] at hn ⊢
      rw [hn] at ht
      have hs : tokens f.source = [.ok ⟨.symbol (.binary (.compute .subtract)), ⟨0, 1⟩⟩,
          .error (.invalidConstant, span.shift 1)] := by
        rw [hs, tokens_neg, ht]
        rfl
      exact f.integer_negated_error hs hd
    · rw [if_neg hmin] at hn ⊢
      rw [hn] at ht
      have hneg : checked (-(-v).toInt) = .ok v := by
        have hi : -(-v).toInt = v.toInt := by
          rw [toInt_of_fit hn, hv]
          rfl
        rw [checked, hi, hf]
      have hs : tokens f.source = [.ok ⟨.symbol (.binary (.compute .subtract)), ⟨0, 1⟩⟩,
          .ok ⟨.constant (-v), span.shift 1⟩] := by
        rw [hs, tokens_neg, ht]
        rfl
      rw [f.integer_negated hs hd, hneg]
      rfl

end Frame

theorem outcome_evaluateInteger_text (access : Access σ ρ ω) (v : Int64) (state : σ) :
    ∃ e, outcome (evaluateInteger access (text v.toInt)) state =
      if v = Int64.minValue then (.error e, state) else (.ok v, state) := by
  obtain ⟨span, h⟩ := (frame access {} (text v.toInt).toList).integer_ofInt v
    (String.toList_ofList ..) (Nat.succ_ne_zero 63)
  refine ⟨⟨.token .invalidConstant, span⟩, ?_⟩
  rw [evaluateInteger, h]
  split <;> rfl

end ShellCore.Arith
