import Mathlib.Data.Int.Bitwise
import Mathlib.Tactic.Linarith
import ShellCore.Proofs.Arith.Numeral

/-! What machine words compute, in terms of the integers that they hold. -/

namespace ShellCore.Arith

/-- A machine word holds the integer. -/
def Fits (n : Int) : Prop := -2 ^ 63 ≤ n ∧ n < 2 ^ 63

instance (n : Int) : Decidable (Fits n) := inferInstanceAs (Decidable (_ ∧ _))

/-- The integer itself, unless no machine word holds it. -/
def within (n : Int) : Except Fault Int := if Fits n then .ok n else .error .overflow

theorem within_of_fits {n : Int} (h : Fits n) : within n = .ok n := if_pos h

theorem within_of_not_fits {n : Int} (h : ¬ Fits n) : within n = .error .overflow := if_neg h

theorem fits_toInt (v : Int64) : Fits v.toInt := ⟨v.le_toInt, v.toInt_lt⟩

theorem checked_of_fits {n : Int} (h : Fits n) : ∃ v, checked n = .ok v ∧ v.toInt = n := by
  have hmax : Int64.maxValue.toInt = 9223372036854775807 := rfl
  have hmin : Int64.minValue.toInt = -9223372036854775808 := rfl
  obtain ⟨hl, hu⟩ := h
  have hf : fit n = some (Int64.ofInt n) := if_pos ⟨by omega, by omega⟩
  refine ⟨Int64.ofInt n, ?_, Int64.toInt_ofInt_of_le hl hu⟩
  rw [checked, hf]

theorem checked_of_not_fits {n : Int} (h : ¬ Fits n) : checked n = .error .overflow := by
  have hmax : Int64.maxValue.toInt = 9223372036854775807 := rfl
  have hmin : Int64.minValue.toInt = -9223372036854775808 := rfl
  have hf : fit n = none := if_neg fun hn => h ⟨by omega, by omega⟩
  rw [checked, hf]

theorem map_checked (n : Int) : (checked n).map Int64.toInt = within n := by
  by_cases h : Fits n
  · obtain ⟨v, hv, hn⟩ := checked_of_fits h
    rw [hv, within_of_fits h, ← hn]
    rfl
  · rw [checked_of_not_fits h, within_of_not_fits h]
    rfl

/-- Computing with the word that holds an integer, unless there is none. -/
theorem bind_checked {α : Type} (n : Int) (k : Int64 → Except Fault α) :
    (∃ v, v.toInt = n ∧ (checked n >>= k) = k v) ∨
      ¬ Fits n ∧ (checked n >>= k) = .error .overflow := by
  by_cases h : Fits n
  · obtain ⟨v, hv, hn⟩ := checked_of_fits h
    exact .inl ⟨v, hn, by rw [hv]; rfl⟩
  · exact .inr ⟨h, by rw [checked_of_not_fits h]; rfl⟩

theorem checked_toInt (v : Int64) : checked v.toInt = .ok v := by
  rw [checked, fit_toInt]

theorem toInt_eq_cond {w : Nat} (x : BitVec w) :
    x.toInt = if x.msb then Int.negSucc (~~~x).toNat else x.toNat := by
  have hx := x.isLt
  have hn : (~~~x).toNat + x.toNat + 1 = 2 ^ w := by
    rw [BitVec.toNat_not]
    omega
  rw [BitVec.toInt_eq_msb_cond, ← hn]
  split
  · rw [Int.negSucc_eq]
    omega
  · rfl

theorem testBit_toInt {w : Nat} (x : BitVec w) (i : Nat) :
    x.toInt.testBit i = if i < w then x.getLsbD i else x.msb := by
  rw [toInt_eq_cond]
  by_cases hm : x.msb
  · rw [if_pos hm]
    show (!(~~~x).toNat.testBit i) = _
    rw [BitVec.testBit_toNat, BitVec.getLsbD_not]
    by_cases hi : i < w <;> simp [hi, hm]
  · rw [if_neg hm]
    show x.toNat.testBit i = _
    rw [BitVec.testBit_toNat]
    by_cases hi : i < w
    · rw [if_pos hi]
    · rw [if_neg hi, BitVec.getLsbD_of_ge x i (Nat.le_of_not_lt hi),
        Bool.eq_false_of_not_eq_true hm]

theorem testBit_add_eq_false (a b : Nat) : a.testBit (a + b) = false := by
  refine Nat.testBit_lt_two_pow (Nat.lt_of_lt_of_le Nat.lt_two_pow_self ?_)
  exact Nat.pow_le_pow_right (by decide) (Nat.le_add_right a b)

/-- A bit above those of both magnitudes tells the signs apart. -/
theorem eq_of_testBit {m n : Int} (h : ∀ i, m.testBit i = n.testBit i) : m = n := by
  cases m with
  | ofNat a =>
    cases n with
    | ofNat b => exact congrArg Int.ofNat (Nat.eq_of_testBit_eq h)
    | negSucc b =>
      have hi : Nat.testBit a (a + b) = !Nat.testBit b (a + b) := h (a + b)
      rw [testBit_add_eq_false, Nat.add_comm, testBit_add_eq_false] at hi
      cases hi
  | negSucc a =>
    cases n with
    | ofNat b =>
      have hi : (!Nat.testBit a (a + b)) = Nat.testBit b (a + b) := h (a + b)
      rw [testBit_add_eq_false, Nat.add_comm, testBit_add_eq_false] at hi
      cases hi
    | negSucc b =>
      refine congrArg Int.negSucc (Nat.eq_of_testBit_eq fun i => ?_)
      exact Bool.not_inj (h i)

/-- An operation on each bit of two words is the operation on each bit of their integers. -/
theorem toInt_bitwise (f : Bool → Bool → Bool) {a b c : BitVec 64}
    (hbit : ∀ i, i < 64 → c.getLsbD i = f (a.getLsbD i) (b.getLsbD i))
    (hmsb : c.msb = f a.msb b.msb) : c.toInt = Int.bitwise f a.toInt b.toInt := by
  refine eq_of_testBit fun i => ?_
  rw [Int.testBit_bitwise, testBit_toInt, testBit_toInt, testBit_toInt]
  split
  · rename_i hi
    exact hbit i hi
  · exact hmsb

theorem toInt_or (a b : Int64) : (a ||| b).toInt = Int.lor a.toInt b.toInt := by
  rw [← Int.bitwise_or]
  exact toInt_bitwise or (fun i _ => BitVec.getLsbD_or) BitVec.msb_or

theorem toInt_xor (a b : Int64) : (a ^^^ b).toInt = Int.xor a.toInt b.toInt := by
  rw [← Int.bitwise_xor]
  exact toInt_bitwise xor (fun i _ => BitVec.getLsbD_xor) BitVec.msb_xor

theorem toInt_and (a b : Int64) : (a &&& b).toInt = Int.land a.toInt b.toInt := by
  rw [← Int.bitwise_and]
  exact toInt_bitwise and (fun i _ => BitVec.getLsbD_and) BitVec.msb_and

theorem smod_toNat {b : Int64} (h : 0 ≤ b.toInt) (h' : b.toInt < 64) :
    (b.toBitVec.smod 64).toNat = b.toInt.toNat := by
  have hs : (b.toBitVec.smod 64).toInt = b.toInt := by
    rw [BitVec.toInt_smod]
    show b.toInt.fmod 64 = b.toInt
    exact Int.fmod_eq_of_lt h h'
  have hn := BitVec.toInt_eq_toNat_cond (b.toBitVec.smod 64)
  have hlt := (b.toBitVec.smod 64).isLt
  rw [hs] at hn
  split at hn <;> omega

theorem toInt_shiftRight {b : Int64} (h : 0 ≤ b.toInt) (h' : b.toInt < 64) (a : Int64) :
    (a >>> b).toInt = a.toInt / 2 ^ b.toInt.toNat := by
  rw [← Int64.toInt_toBitVec, Int64.toBitVec_shiftRight, BitVec.sshiftRight', smod_toNat h h',
    BitVec.toInt_sshiftRight, Int.shiftRight_eq_div_pow, Int64.toInt_toBitVec]
  push_cast
  rfl

theorem toInt_shiftLeft {b : Int64} (h : 0 ≤ b.toInt) (h' : b.toInt < 64) (a : Int64) :
    (a <<< b).toInt = (a.toInt * 2 ^ b.toInt.toNat).bmod (2 ^ 64) := by
  rw [← Int64.toInt_toBitVec, Int64.toBitVec_shiftLeft, BitVec.shiftLeft_eq', smod_toNat h h',
    BitVec.toInt_shiftLeft, Nat.shiftLeft_eq, ← Int64.toInt_toBitVec a,
    BitVec.toInt_eq_toNat_bmod a.toBitVec, Int.bmod_mul_bmod]
  push_cast
  rfl

/-- Shifting back gives the number only if no bit has been lost. -/
theorem bmod_ediv_eq_iff {x p : Int} (hp : 0 < p) (hp' : p ≤ 2 ^ 63) :
    (x * p).bmod (2 ^ 64) / p = x ↔ Fits (x * p) := by
  have hdiv := Int.bmod_add_bdiv (x * p) (2 ^ 64)
  constructor
  · intro he
    have hl := Int.ediv_mul_le ((x * p).bmod (2 ^ 64)) (Int.ne_of_gt hp)
    have hu := Int.lt_ediv_add_one_mul_self ((x * p).bmod (2 ^ 64)) hp
    rw [he] at hl hu
    rw [Int.add_mul, Int.one_mul] at hu
    have hb := Int.le_bmod (x := x * p) (m := 2 ^ 64) (by decide)
    have hb' := Int.bmod_lt (x := x * p) (m := 2 ^ 64) (by decide)
    unfold Fits
    push_cast at *
    omega
  · rintro ⟨hl, hu⟩
    rw [Int.bmod_eq_of_le (by push_cast; omega) (by push_cast; omega)]
    exact Int.mul_ediv_cancel x (Int.ne_of_gt hp)

theorem map_checkedShiftLeft {b : Int64} (h : 0 ≤ b.toInt) (h' : b.toInt < 64) (a : Int64) :
    (checkedShiftLeft a b).map Int64.toInt = within (a.toInt * 2 ^ b.toInt.toNat) := by
  have hp : (2 : Int) ^ b.toInt.toNat ≤ 2 ^ 63 := pow_le_pow_right₀ (by decide) (by omega)
  have hiff := bmod_ediv_eq_iff (x := a.toInt) (p := 2 ^ b.toInt.toNat) (by positivity) hp
  have hback : (a <<< b) >>> b = a ↔ Fits (a.toInt * 2 ^ b.toInt.toNat) := by
    rw [← hiff, ← toInt_shiftLeft h h', ← toInt_shiftRight h h', Int64.toInt_inj]
  unfold checkedShiftLeft within
  by_cases hf : Fits (a.toInt * 2 ^ b.toInt.toNat)
  · rw [if_pos (hback.mpr hf), if_pos hf]
    show Except.ok (a <<< b).toInt = _
    rw [toInt_shiftLeft h h', Int.bmod_eq_of_le hf.1 hf.2]
  · rw [if_neg (hback.not.mpr hf), if_neg hf]
    rfl

theorem fits_tdiv_iff {a b : Int} (ha : Fits a) (hb : b ≠ 0) :
    Fits (a.tdiv b) ↔ ¬ (a = -2 ^ 63 ∧ b = -1) := by
  obtain ⟨hl, hu⟩ := ha
  by_cases hn : b = -1
  · rw [hn, Int.tdiv_neg, Int.tdiv_one]
    unfold Fits
    omega
  · refine iff_of_true ?_ fun h => hn h.2
    by_cases hp : b = 1
    · rw [hp, Int.tdiv_one]
      exact ⟨hl, hu⟩
    · have hle : a.natAbs / b.natAbs ≤ a.natAbs / 2 := Nat.div_le_div_left (by omega) (by decide)
      have hq : (a.tdiv b).natAbs = a.natAbs / b.natAbs := Int.natAbs_tdiv a b
      unfold Fits
      omega

theorem fits_tmod {b : Int} (hb : Fits b) (hb0 : b ≠ 0) (a : Int) : Fits (a.tmod b) := by
  obtain ⟨hl, hu⟩ := hb
  have hlt : (a.tmod b).natAbs < b.natAbs := by
    rw [Int.natAbs_tmod]
    exact Nat.mod_lt _ (by omega)
  unfold Fits
  omega

end ShellCore.Arith
