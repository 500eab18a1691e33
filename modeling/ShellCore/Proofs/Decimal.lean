import ShellCore.Decimal
import ShellCore.Text.Blank
import ShellCore.Variable.Flags

/-! Numbers written in decimal: blanks, case and leading zeros do not matter to them. -/

namespace ShellCore.Decimal

open Text

variable {n d : Nat} {c : Char} {s : List Char}

/-- What is written has digits only. -/
def IsDigits (s : List Char) : Prop := ∀ c ∈ s, ∃ d, d < 10 ∧ c = digit d

theorem isDigits_ofNat (n : Nat) : IsDigits (ofNat n) := by
  induction n using ofNat.induct with
  | case1 n hn =>
    intro c hc
    rw [ofNat, if_pos hn] at hc
    exact ⟨n, hn, List.mem_singleton.mp hc⟩
  | case2 n hn ih =>
    intro c hc
    rw [ofNat, if_neg hn] at hc
    rcases List.mem_append.mp hc with hc | hc
    · exact ih c hc
    · exact ⟨n % 10, Nat.mod_lt n (by omega), List.mem_singleton.mp hc⟩

theorem natText_of_lt (h : n < 10) : natText n = String.ofList [digit n] := by
  rw [natText, ofNat, if_pos h]

theorem ofNat_ne_nil (n : Nat) : ofNat n ≠ [] := by
  rw [ofNat]
  split <;> simp

/-- Only zero starts with a zero. -/
theorem head?_ofNat (hn : 0 < n) : (ofNat n).head? ≠ some '0' := by
  induction n using ofNat.induct with
  | case1 n hlt =>
    have hd : ∀ d, d < 10 → 0 < d → digit d ≠ '0' := by decide
    rw [ofNat, if_pos hlt]
    simpa using hd n hlt hn
  | case2 n hge ih =>
    have hs := ih (by omega)
    rw [ofNat, if_neg hge]
    cases hc : ofNat (n / 10) with
    | nil => exact absurd hc (ofNat_ne_nil _)
    | cons c s =>
      rw [hc] at hs
      exact hs

theorem isBlank_digit : ∀ d, d < 10 → isBlank (digit d) = false := by decide

theorem upperCase_digit : ∀ d, d < 10 → upperCase (digit d) = [digit d] := by decide

theorem lowerCase_digit : ∀ d, d < 10 → lowerCase (digit d) = [digit d] := by decide

theorem digit_ne_sigma : ∀ d, d < 10 → digit d ≠ 'Σ' := by decide

/-- Neither the removal of blanks nor a change of case touches the character. -/
structure Stable (c : Char) : Prop where
  blank : isBlank c = false
  upper : upperCase c = [c]
  lower : lowerCase c = [c]
  sigma : c ≠ 'Σ'

theorem stable_digit (hd : d < 10) : Stable (digit d) :=
  ⟨isBlank_digit d hd, upperCase_digit d hd, lowerCase_digit d hd, digit_ne_sigma d hd⟩

theorem stable_minus : Stable '-' := ⟨by decide, by decide, by decide, by decide⟩

theorem IsDigits.stable (h : IsDigits s) : ∀ c ∈ s, Stable c := by
  intro c hc
  obtain ⟨d, hd, rfl⟩ := h c hc
  exact stable_digit hd

theorem stable_ofInt (i : Int) : ∀ c ∈ ofInt i, Stable c := by
  cases i with
  | ofNat n => exact (isDigits_ofNat n).stable
  | negSucc n =>
    intro c hc
    rcases List.mem_cons.mp hc with rfl | hc
    · exact stable_minus
    · exact (isDigits_ofNat (n + 1)).stable c hc

theorem dropWhile_isBlank (h : ∀ c ∈ s, Stable c) : s.dropWhile isBlank = s := by
  cases s with
  | nil => rfl
  | cons c s => simp [List.dropWhile, (h c List.mem_cons_self).blank]

theorem trim_of_stable (h : ∀ c ∈ s, Stable c) : trim s = s := by
  have hr : ∀ c ∈ s.reverse, Stable c := fun c hc => h c (List.mem_reverse.mp hc)
  rw [trim, trimStart, trimEnd, dropWhile_isBlank h, dropWhile_isBlank hr, List.reverse_reverse]

theorem trim_eq (h : IsDigits s) : trim s = s := trim_of_stable h.stable

theorem toUpper_of_stable (h : ∀ c ∈ s, Stable c) : toUpper s = s := by
  induction s with
  | nil => rfl
  | cons c s ih =>
    have hs := ih fun c hc => h c (List.mem_cons_of_mem _ hc)
    unfold toUpper at hs ⊢
    rw [List.flatMap_cons, (h c List.mem_cons_self).upper, hs]
    rfl

theorem lowerAfter_of_stable (before : List Char) (h : ∀ c ∈ s, Stable c) :
    lowerAfter before s = s := by
  induction s generalizing before with
  | nil => rfl
  | cons c s ih =>
    have hc := h c List.mem_cons_self
    have hs := ih (c :: before) fun c hc => h c (List.mem_cons_of_mem _ hc)
    simp [lowerAfter, hc.sigma, hc.lower, hs]

theorem convertCase_text (flags : Flags) (i : Int) : flags.convertCase (text i) = text i := by
  have h := stable_ofInt i
  unfold Flags.convertCase text
  rw [String.toList_ofList, toUpper_of_stable h, toLower, lowerAfter_of_stable [] h]
  split
  · rfl
  · split <;> rfl

theorem convertCase_natText (flags : Flags) (n : Nat) :
    flags.convertCase (natText n) = natText n := convertCase_text flags n

end ShellCore.Decimal
