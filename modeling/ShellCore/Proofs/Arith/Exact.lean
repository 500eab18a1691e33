import Mathlib.Algebra.Ring.Parity
import ShellCore.Proofs.Arith.Word

/-! Operators give the exact result, or fail where no machine word holds it. -/

namespace ShellCore.Arith

variable {σ ρ ω : Type} {span : Span}

theorem not_fits_mul {x p : Int} (hx : ¬ Fits x) (hp : 1 ≤ p) : ¬ Fits (x * p) := by
  rintro ⟨hl, hu⟩
  refine hx ⟨?_, ?_⟩ <;> by_contra h <;> nlinarith

theorem lt_mul_self_of_not_fits {b : Int} (hb : ¬ Fits (b * b)) : 2 ^ 63 < b * b := by
  have h0 : 0 ≤ b * b := mul_self_nonneg b
  by_contra hle
  have hu : b ≤ 3037000499 := by nlinarith
  have hl : -3037000499 ≤ b := by nlinarith
  exact hb ⟨by omega, by nlinarith⟩

theorem not_fits_mul_pow {a b : Int} {k : Nat} (ha : a ≠ 0) (hb : ¬ Fits (b * b)) (hk : 1 ≤ k) :
    ¬ Fits (a * (b * b) ^ k) := by
  have hlt := lt_mul_self_of_not_fits hb
  have hpow : b * b ≤ (b * b) ^ k := le_self_pow₀ (by omega) (by omega)
  rintro ⟨hl, hu⟩
  rcases Int.lt_or_gt_of_ne ha with h | h <;> nlinarith

/-- The accumulator after one step of squaring. -/
def timesOdd (a b : Int) (n : Nat) : Int := if n % 2 = 1 then a * b else a

theorem mul_pow_eq (a b : Int) (n : Nat) : a * b ^ n = timesOdd a b n * (b * b) ^ (n / 2) := by
  rw [timesOdd, ← pow_two, ← pow_mul]
  split
  · rw [mul_assoc, ← pow_succ']
    congr 2
    omega
  · congr 2
    omega

theorem timesOdd_ne_zero {a b : Int} (ha : a ≠ 0) (hb : b ≠ 0) (n : Nat) : timesOdd a b n ≠ 0 := by
  unfold timesOdd
  split
  · exact mul_ne_zero ha hb
  · exact ha

theorem ne_zero_of_not_fits_timesOdd {a b : Int} {n : Nat} (ha : Fits a)
    (h : ¬ Fits (timesOdd a b n)) : b ≠ 0 := by
  intro hb
  refine h ?_
  unfold timesOdd
  split
  · rw [hb, mul_zero]
    decide
  · exact ha

theorem raiseFrom_succ {n : Nat} (h0 : n ≠ 0) (h1 : n ≠ 1) (bits : Nat) (acc base : Int64) :
    raiseFrom (bits + 1) acc base n =
      checked (timesOdd acc.toInt base.toInt n) >>= fun acc =>
        checked (base.toInt * base.toInt) >>= fun base => raiseFrom bits acc base (n / 2) := by
  rw [raiseFrom, if_neg h0, if_neg h1, timesOdd]
  split
  · rfl
  · rw [checked_toInt]

/-- Squaring fails only if the power itself does not fit: the base is squared only if its square is
a factor of the power, and no square is the magnitude of the least word. -/
theorem map_raiseFrom {bits : Nat} {acc base : Int64} {n : Nat} (hn : n < 2 ^ bits)
    (h : acc.toInt ≠ 0 ∨ base.toInt = 0) :
    (raiseFrom bits acc base n).map Int64.toInt = within (acc.toInt * base.toInt ^ n) := by
  induction bits generalizing acc base n with
  | zero =>
    obtain rfl : n = 0 := Nat.lt_one_iff.mp hn
    rw [pow_zero, mul_one, within_of_fits (fits_toInt acc)]
    rfl
  | succ bits ih =>
    by_cases h0 : n = 0
    · rw [raiseFrom, if_pos h0, h0, pow_zero, mul_one, within_of_fits (fits_toInt acc)]
      rfl
    by_cases h1 : n = 1
    · rw [raiseFrom, if_neg h0, if_pos h1, h1, pow_one, map_checked]
    rw [raiseFrom_succ h0 h1, mul_pow_eq]
    -- The accumulator is zero only once the base is, so it hides no square that does not fit.
    have hne : base.toInt ≠ 0 → timesOdd acc.toInt base.toInt n ≠ 0 :=
      fun hb => timesOdd_ne_zero (h.resolve_right hb) hb n
    rcases bind_checked (timesOdd acc.toInt base.toInt n) _ with ⟨acc', ha, he⟩ | ⟨hf, he⟩
    · rw [he]
      rcases bind_checked (base.toInt * base.toInt) (raiseFrom bits acc' · (n / 2))
        with ⟨base', hb, he⟩ | ⟨hf, he⟩
      · rw [he, ih (by omega) ?_, ha, hb]
        rw [ha, hb]
        by_cases hz : base.toInt = 0
        · exact .inr (by rw [hz, mul_zero])
        · exact .inl (hne hz)
      · have hb : base.toInt ≠ 0 := by
          intro hb
          rw [hb] at hf
          exact hf (by decide)
        rw [he, within_of_not_fits (not_fits_mul_pow (hne hb) hf (by omega))]
        rfl
    · have hb := ne_zero_of_not_fits_timesOdd (fits_toInt acc) hf
      have hp : 0 < (base.toInt * base.toInt) ^ (n / 2) := pow_pos (mul_self_pos.mpr hb) _
      rw [he, within_of_not_fits (not_fits_mul hf hp)]
      rfl

theorem not_fits_pow {a : Int} {n : Nat} (ha : 2 ≤ a.natAbs) (hn : 64 ≤ n) : ¬ Fits (a ^ n) := by
  have hle : 2 ^ 64 ≤ (a ^ n).natAbs := by
    rw [Int.natAbs_pow]
    exact (Nat.pow_le_pow_right (by decide) hn).trans (Nat.pow_le_pow_left ha n)
  rintro ⟨hl, hu⟩
  omega

theorem toInt_ite_even {b : Int64} (hb : 0 ≤ b.toInt) :
    (if b % 2 = 0 then 1 else -1 : Int64).toInt = (-1) ^ b.toInt.toNat := by
  have hmod : b % 2 = 0 ↔ b.toInt.toNat % 2 = 0 := by
    rw [← Int64.toInt_inj, Int64.toInt_mod]
    show b.toInt.tmod 2 = 0 ↔ _
    rw [Int.tmod_eq_emod_of_nonneg hb]
    omega
  by_cases h : b.toInt.toNat % 2 = 0
  · rw [if_pos (hmod.mpr h), Even.neg_one_pow (Nat.even_iff.mpr h)]
    rfl
  · rw [if_neg (hmod.not.mpr h), Odd.neg_one_pow (Nat.odd_iff.mpr (by omega))]
    rfl

/-- Of the powers with a large exponent only those of 0, 1 and -1 fit. -/
theorem map_large_power (a : Int64) {b : Int64} (hb : 64 ≤ b.toInt) :
    (if a = 0 ∨ a = 1 then .ok a
      else if a = -1 then .ok (if b % 2 = 0 then 1 else -1)
      else .error .overflow : Except Fault Int64).map Int64.toInt =
      within (a.toInt ^ b.toInt.toNat) := by
  by_cases h01 : a = 0 ∨ a = 1
  · have hpow : a.toInt ^ b.toInt.toNat = a.toInt := by
      rcases h01 with rfl | rfl
      · exact zero_pow (by omega)
      · exact one_pow _
    rw [if_pos h01, hpow, within_of_fits (fits_toInt a)]
    rfl
  rw [if_neg h01]
  by_cases hm : a = -1
  · have he := toInt_ite_even (b := b) (by omega)
    have hf : Fits ((-1) ^ b.toInt.toNat) := he ▸ fits_toInt _
    rw [if_pos hm, hm]
    exact (congrArg Except.ok he).trans (within_of_fits hf).symm
  · have h0 : a.toInt ≠ 0 := fun h => h01 (.inl (Int64.toInt_inj.mp h))
    have h1 : a.toInt ≠ 1 := fun h => h01 (.inr (Int64.toInt_inj.mp h))
    have hm' : a.toInt ≠ -1 := fun h => hm (Int64.toInt_inj.mp h)
    rw [if_neg hm, within_of_not_fits (not_fits_pow (by omega) (by omega))]
    rfl

theorem map_raise (a b : Int64) :
    (raise a b).map Int64.toInt =
      if b.toInt < 0 then .ok 0 else within (a.toInt ^ b.toInt.toNat) := by
  have h0 : b < 0 ↔ b.toInt < 0 := Int64.lt_iff_toInt_lt
  have h32 : b < 4294967296 ↔ b.toInt < 4294967296 := Int64.lt_iff_toInt_lt
  unfold raise
  by_cases hn : b.toInt < 0
  · rw [if_pos (h0.mpr hn), if_pos hn]
    rfl
  rw [if_neg (h0.not.mpr hn), if_neg hn]
  by_cases hs : b.toInt < 4294967296
  · have hp : (raiseFrom 32 1 a b.toInt.toNat).map Int64.toInt =
        within (Int64.toInt 1 * a.toInt ^ b.toInt.toNat) :=
      map_raiseFrom (by omega) (.inl (by decide))
    rw [if_pos (h32.mpr hs), hp, Int64.toInt_one, one_mul]
  · rw [if_neg (h32.not.mpr hs)]
    exact map_large_power a (by omega)

/-- A comparison over unbounded integers. -/
def truth (p : Prop) [Decidable p] : Int := if p then 1 else 0

/-- What an operation computes over unbounded integers, and how it fails. -/
def Operation.exact (op : Operation) (a b : Int) : Except Fault Int :=
  match op with
  | .bitOr => .ok (Int.lor a b)
  | .bitXor => .ok (Int.xor a b)
  | .bitAnd => .ok (Int.land a b)
  | .equal => .ok (truth (a = b))
  | .notEqual => .ok (truth (a ≠ b))
  | .less => .ok (truth (a < b))
  | .lessEqual => .ok (truth (a ≤ b))
  | .greater => .ok (truth (a > b))
  | .greaterEqual => .ok (truth (a ≥ b))
  | .shiftLeft =>
    if b < 0 then .error .negativeShift
    else if b > 63 then .error .overflow
    else within (a * 2 ^ b.toNat)
  | .shiftRight =>
    if b < 0 then .error .negativeShift
    else if b > 63 then .error .overflow
    else .ok (a.fdiv (2 ^ b.toNat))
  | .add => within (a + b)
  | .subtract => within (a - b)
  | .multiply => within (a * b)
  | .divide =>
    if b = 0 then .error .divisionByZero
    else if a = -2 ^ 63 ∧ b = -1 then .error .overflow
    else .ok (a.tdiv b)
  | .remainder =>
    if b = 0 then .error .divisionByZero
    else if a = -2 ^ 63 ∧ b = -1 then .error .overflow
    else .ok (a.tmod b)
  | .power => if b < 0 then .ok 0 else within (a ^ b.toNat)

def Step.exact (s : Step) (n : Int) : Except Fault Int :=
  match s with
  | .increment => within (n + 1)
  | .decrement => within (n - 1)

theorem map_ofTruth {b : Bool} {p : Prop} [Decidable p] (h : b = true ↔ p) :
    (Except.ok (ofTruth b) : Except Fault Int64).map Int64.toInt = .ok (truth p) := by
  refine congrArg Except.ok ?_
  cases b with
  | false => exact (if_neg fun hp => Bool.false_ne_true (h.mpr hp)).symm
  | true => exact (if_pos (h.mp rfl)).symm

theorem map_shift {b : Int64} {shift : Int64 → Except Fault Int64} {r : Except Fault Int}
    (h : 0 ≤ b.toInt → b.toInt < 64 → (shift b).map Int64.toInt = r) :
    ((shiftCount b).bind shift).map Int64.toInt =
      if b.toInt < 0 then .error .negativeShift
      else if b.toInt > 63 then .error .overflow else r := by
  have h0 : b < 0 ↔ b.toInt < 0 := Int64.lt_iff_toInt_lt
  have h64 : b < 64 ↔ b.toInt < 64 := Int64.lt_iff_toInt_lt
  unfold shiftCount
  by_cases hn : b.toInt < 0
  · rw [if_pos (h0.mpr hn), if_pos hn]
    rfl
  rw [if_neg (h0.not.mpr hn), if_neg hn]
  by_cases hs : b.toInt < 64
  · rw [if_pos (h64.mpr hs), if_neg (by omega)]
    exact h (by omega) hs
  · rw [if_neg (h64.not.mpr hs), if_pos (by omega)]
    rfl

theorem map_division {b : Int64} {x : Except Fault Int64} {r : Except Fault Int}
    (h : b.toInt ≠ 0 → x.map Int64.toInt = r) :
    (if b = 0 then .error .divisionByZero else x : Except Fault Int64).map Int64.toInt =
      if b.toInt = 0 then .error .divisionByZero else r := by
  have h0 : b = 0 ↔ b.toInt = 0 := Int64.toInt_inj.symm
  by_cases hb : b.toInt = 0
  · rw [if_pos (h0.mpr hb), if_pos hb]
    rfl
  · rw [if_neg (h0.not.mpr hb), if_neg hb]
    exact h hb

theorem within_tdiv {a b : Int} (ha : Fits a) (hb : b ≠ 0) :
    within (a.tdiv b) =
      if a = -2 ^ 63 ∧ b = -1 then .error .overflow else .ok (a.tdiv b) := by
  by_cases h : a = -2 ^ 63 ∧ b = -1
  · rw [if_pos h, within_of_not_fits fun hf => (fits_tdiv_iff ha hb).mp hf h]
  · rw [if_neg h, within_of_fits ((fits_tdiv_iff ha hb).mpr h)]

theorem map_remainder (a : Int64) {b : Int64} (hb : b.toInt ≠ 0) :
    ((checked (a.toInt.tdiv b.toInt)).map fun _ => Int64.ofInt (a.toInt.tmod b.toInt)).map
        Int64.toInt =
      if a.toInt = -2 ^ 63 ∧ b.toInt = -1 then .error .overflow
      else .ok (a.toInt.tmod b.toInt) := by
  have hiff := fits_tdiv_iff (fits_toInt a) hb
  by_cases h : a.toInt = -2 ^ 63 ∧ b.toInt = -1
  · rw [if_pos h, checked_of_not_fits fun hf => hiff.mp hf h]
    rfl
  · obtain ⟨v, hv, -⟩ := checked_of_fits (hiff.mpr h)
    obtain ⟨hl, hu⟩ := fits_tmod (fits_toInt b) hb a.toInt
    rw [if_neg h, hv]
    exact congrArg Except.ok (Int64.toInt_ofInt_of_le hl hu)

theorem map_apply (op : Operation) (a b : Int64) :
    (op.apply a b).map Int64.toInt = op.exact a.toInt b.toInt := by
  cases op with
  | bitOr => exact congrArg Except.ok (toInt_or a b)
  | bitXor => exact congrArg Except.ok (toInt_xor a b)
  | bitAnd => exact congrArg Except.ok (toInt_and a b)
  | equal => exact map_ofTruth (beq_iff_eq.trans Int64.toInt_inj.symm)
  | notEqual => exact map_ofTruth (bne_iff_ne.trans Int64.toInt_inj.symm.not)
  | less => exact map_ofTruth (decide_eq_true_iff.trans Int64.lt_iff_toInt_lt)
  | lessEqual => exact map_ofTruth (decide_eq_true_iff.trans Int64.le_iff_toInt_le)
  | greater => exact map_ofTruth (decide_eq_true_iff.trans Int64.lt_iff_toInt_lt)
  | greaterEqual => exact map_ofTruth (decide_eq_true_iff.trans Int64.le_iff_toInt_le)
  | shiftLeft => exact map_shift fun h h' => map_checkedShiftLeft h h' a
  | shiftRight =>
    have hb : (shiftCount b).map (a >>> ·) = (shiftCount b).bind fun n => .ok (a >>> n) := by
      cases shiftCount b <;> rfl
    refine (congrArg (Except.map Int64.toInt) hb).trans (map_shift fun h h' => ?_)
    have hp : (0 : Int) ≤ 2 ^ b.toInt.toNat := by positivity
    exact congrArg Except.ok
      ((toInt_shiftRight h h' a).trans (Int.fdiv_eq_ediv_of_nonneg a.toInt hp).symm)
  | add => exact map_checked _
  | subtract => exact map_checked _
  | multiply => exact map_checked _
  | divide => exact map_division fun h => (map_checked _).trans (within_tdiv (fits_toInt a) h)
  | remainder => exact map_division fun h => map_remainder a h
  | power => exact map_raise a b

theorem map_step (s : Step) (n : Int64) : (s.apply n).map Int64.toInt = s.exact n.toInt := by
  cases s with
  | increment => exact map_checked _
  | decrement => exact map_checked _

/-- In each state, which it leaves as it is, the evaluation gives the integer, or fails with the
fault at the span. -/
def Computes (x : EvalM σ ρ ω Int64) (span : Span) (r : Except Fault Int) : Prop :=
  ∀ s, ∃ result, outcome x s = (result, s) ∧
    result.map Int64.toInt = r.mapError fun fault => ⟨.fault fault, span⟩

theorem computes_orFault {x : Except Fault Int64} {r : Except Fault Int}
    (h : x.map Int64.toInt = r) : Computes (orFault span x : EvalM σ ρ ω Int64) span r := by
  intro s
  subst h
  cases x with
  | ok n => exact ⟨.ok n, rfl, rfl⟩
  | error fault => exact ⟨.error ⟨.fault fault, span⟩, rfl, rfl⟩

/-- A step fails before it assigns the variable, if at all. -/
theorem outcome_applyStep (f : Frame σ ρ ω) (step : Step) (name : String) (place span : Span)
    (s : σ) :
    outcome (f.applyStep step (.variable name place) span) s =
      match outcome (f.resolve name place) s with
      | (.error e, s') => (.error e, s')
      | (.ok old, s') =>
        match step.exact old.toInt with
        | .error fault => (.error ⟨.fault fault, span⟩, s')
        | .ok n =>
          let new := Int64.ofInt n
          outcome (f.assign name new place >>= fun _ => pure (old, new)) s' := by
  show outcome (f.resolve name place >>= fun old => orFault span (step.apply old) >>= fun new =>
    f.assign name new place >>= fun _ => pure (old, new)) s = _
  rw [outcome_bind]
  rcases outcome (f.resolve name place) s with ⟨e | old, s'⟩
  · rfl
  · have hstep := map_step step old
    dsimp only
    cases hs : step.apply old with
    | error fault =>
      rw [hs] at hstep
      rw [← hstep]
      rfl
    | ok new =>
      rw [hs] at hstep
      rw [← hstep]
      dsimp only [Except.map]
      rw [Int64.ofInt_toInt]
      rfl

/-- Operators without side effects, the change of sign and steps give what they give over unbounded
integers. They fail with an overflow if no machine word holds the result, and else for the operands
for which the exact operation is said to fail. -/
theorem operators_compute_exactly (f : Frame σ ρ ω) (span : Span) :
    (∀ (op : Operation) a b, (op.apply a b).map Int64.toInt = op.exact a.toInt b.toInt) ∧
    (∀ op a b, Computes (f.applyBinary (.compute op) (.value a) (.value b) span) span
      (op.exact a.toInt b.toInt)) ∧
    (∀ n, Computes (f.applyUnary .negate (.value n) span) span (within (-n.toInt))) ∧
    (∀ (step : Step) n, (step.apply n).map Int64.toInt = step.exact n.toInt) ∧
    ∀ step name place s,
      outcome (f.applyStep step (.variable name place) span) s =
        match outcome (f.resolve name place) s with
        | (.error e, s') => (.error e, s')
        | (.ok old, s') =>
          match step.exact old.toInt with
          | .error fault => (.error ⟨.fault fault, span⟩, s')
          | .ok n =>
            let new := Int64.ofInt n
            outcome (f.assign name new place >>= fun _ => pure (old, new)) s' :=
  ⟨map_apply, fun op a b => computes_orFault (map_apply op a b),
    fun _ => computes_orFault (map_checked _), map_step,
    fun step name place s => outcome_applyStep f step name place span s⟩

end ShellCore.Arith
