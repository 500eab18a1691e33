import Mathlib.Data.List.Forall2
import Mathlib.Data.Nat.Digits.Defs
import Mathlib.Tactic.Ring
import ShellCore.Proofs.Arith.Numeral

/-! Which texts are integer constants, and the number that each of them stands for. -/

namespace ShellCore.Arith

variable {base high n d : Nat} {c : Char} {s digits : List Char} {v : Int64}

/-- The character is the digit for `d`. Small letters come before capitals, which are the same
digits where so many are enough. -/
inductive IsDigit (base : Nat) : Char → Nat → Prop
  | decimal {d : Nat} (h : d < 10) (hb : d < base) : IsDigit base (Char.ofNat ('0'.toNat + d)) d
  | small {d : Nat} (h : d < 26) (hb : d + 10 < base) :
    IsDigit base (Char.ofNat ('a'.toNat + d)) (d + 10)
  | either {d : Nat} (h : d < 26) (hcase : base ≤ 36) (hb : d + 10 < base) :
    IsDigit base (Char.ofNat ('A'.toNat + d)) (d + 10)
  | capital {d : Nat} (h : d < 26) (hcase : 36 < base) (hb : d + 36 < base) :
    IsDigit base (Char.ofNat ('A'.toNat + d)) (d + 36)
  | atSign (hb : 62 < base) : IsDigit base '@' 62
  | underscore (hb : 63 < base) : IsDigit base '_' 63

/-- The text is not empty and writes `n` in the base, the most significant digit first. -/
def Denotes (base : Nat) (s : List Char) (n : Nat) : Prop :=
  s ≠ [] ∧ ∃ ds, List.Forall₂ (IsDigit base) s ds ∧ n = Nat.ofDigits base ds.reverse

/-- The forms of a constant without a sign. -/
inductive Magnitude : List Char → Nat → Prop
  | based {base n : Nat} {s digits : List Char} (hs : Denotes 10 s base) (hl : 2 ≤ base)
    (hu : base ≤ 64) (h : Denotes base digits n) : Magnitude (s ++ '#' :: digits) n
  | hexadecimal {x : Char} {n : Nat} {digits : List Char} (hx : x ∈ ['x', 'X'])
    (h : Denotes 16 digits n) : Magnitude ('0' :: x :: digits) n
  | binary {b : Char} {n : Nat} {digits : List Char} (hb : b ∈ ['b', 'B'])
    (h : Denotes 2 digits n) : Magnitude ('0' :: b :: digits) n
  | octal {n : Nat} {digits : List Char} (h : Denotes 8 digits n) : Magnitude ('0' :: digits) n
  | zero : Magnitude ['0'] 0
  | decimal {n : Nat} {digits : List Char} (hz : digits.head? ≠ some '0')
    (h : Denotes 10 digits n) : Magnitude digits n

/-- A magnitude with at most one sign before it. -/
inductive Signed : List Char → Int → Prop
  | plain {s : List Char} {n : Nat} (h : Magnitude s n) : Signed s n
  | plus {s : List Char} {n : Nat} (h : Magnitude s n) : Signed ('+' :: s) n
  | minus {s : List Char} {n : Nat} (h : Magnitude s n) : Signed ('-' :: s) (-n)

theorem exists_ofNat_add {a z : Char} (h : a ≤ c ∧ c ≤ z) :
    ∃ d, a.toNat + d ≤ z.toNat ∧ c = Char.ofNat (a.toNat + d) ∧ c.toNat - a.toNat = d := by
  have ha : a.toNat ≤ c.toNat := h.1
  have hz : c.toNat ≤ z.toNat := h.2
  refine ⟨c.toNat - a.toNat, by omega, ?_, rfl⟩
  rw [Nat.add_sub_cancel' ha, Char.ofNat_toNat]

theorem isDigit_of_digitValue? (h : digitValue? base c = some d) : IsDigit base c d := by
  obtain ⟨hv, hb⟩ := Option.filter_eq_some_iff.mp h
  have hb : d < base := of_decide_eq_true hb
  split at hv
  · next hc =>
    obtain ⟨e, he, rfl, hn⟩ := exists_ofNat_add hc
    cases hv
    rw [hn] at hb ⊢
    exact .decimal (Nat.lt_succ_of_le (Nat.le_of_add_le_add_left he)) hb
  split at hv
  · next hc =>
    obtain ⟨e, he, rfl, hn⟩ := exists_ofNat_add hc
    cases hv
    rw [hn] at hb ⊢
    exact .small (Nat.lt_succ_of_le (Nat.le_of_add_le_add_left he)) hb
  split at hv
  · next hc =>
    obtain ⟨e, he, rfl, hn⟩ := exists_ofNat_add hc
    have he : e < 26 := Nat.lt_succ_of_le (Nat.le_of_add_le_add_left he)
    cases hv
    rw [hn] at hb ⊢
    split at hb
    · next hcase =>
      rw [if_pos hcase]
      exact .either he hcase hb
    · next hcase =>
      rw [if_neg hcase]
      exact .capital he (Nat.lt_of_not_le hcase) hb
  split at hv
  · next hc =>
    subst hc
    cases hv
    exact .atSign hb
  split at hv
  · next hc =>
    subst hc
    cases hv
    exact .underscore hb
  · cases hv

theorem toNat_ofNat (h : n < 0xd800) : (Char.ofNat n).toNat = n := by
  rw [Char.ofNat, dif_pos (Or.inl h)]
  rfl

theorem mem_range_iff {a z : Char} :
    a ≤ c ∧ c ≤ z ↔ a.toNat ≤ c.toNat ∧ c.toNat ≤ z.toNat := Iff.rfl

theorem digitValue?_of_isDigit (h : IsDigit base c d) : digitValue? base c = some d := by
  have hv : ∀ {v : Nat}, v < base → Option.filter (fun v => decide (v < base)) (some v) = some v :=
    fun h => by simp [h]
  cases h with
  | decimal h hb =>
    have hn : (Char.ofNat ('0'.toNat + d)).toNat = 48 + d := toNat_ofNat (by simp; omega)
    have h0 : 48 ≤ 48 + d ∧ 48 + d ≤ 57 := by omega
    simp only [digitValue?, mem_range_iff, hn]
    simp [h0, hb]
  | @small e h hb =>
    have hn : (Char.ofNat ('a'.toNat + e)).toNat = 97 + e := toNat_ofNat (by simp; omega)
    have h0 : ¬ 97 + e ≤ 57 := by omega
    have ha : 97 + e ≤ 122 := by omega
    simp only [digitValue?, mem_range_iff, hn]
    simp [h0, ha, hb]
  | @either e h hcase hb =>
    have hn : (Char.ofNat ('A'.toNat + e)).toNat = 65 + e := toNat_ofNat (by simp; omega)
    have h0 : ¬ 65 + e ≤ 57 := by omega
    have ha : ¬ 97 ≤ 65 + e := by omega
    have hA : 65 + e ≤ 90 := by omega
    simp only [digitValue?, mem_range_iff, hn]
    simp [h0, ha, hA, hcase, hb]
  | @capital e h hcase hb =>
    have hn : (Char.ofNat ('A'.toNat + e)).toNat = 65 + e := toNat_ofNat (by simp; omega)
    have h0 : ¬ 65 + e ≤ 57 := by omega
    have ha : ¬ 97 ≤ 65 + e := by omega
    have hA : 65 + e ≤ 90 := by omega
    simp only [digitValue?, mem_range_iff, hn]
    simp [h0, ha, hA, hcase, hb]
  | atSign hb => exact hv hb
  | underscore hb => exact hv hb

theorem digitValue?_eq_some_iff : digitValue? base c = some d ↔ IsDigit base c d :=
  ⟨isDigit_of_digitValue?, digitValue?_of_isDigit⟩

theorem readDigitsAfter?_eq_some_iff : readDigitsAfter? base high s = some n ↔
    ∃ ds, List.Forall₂ (IsDigit base) s ds ∧
      n = high * base ^ s.length + Nat.ofDigits base ds.reverse := by
  induction s generalizing high with
  | nil => simp [readDigitsAfter?, List.forall₂_nil_left_iff, eq_comm]
  | cons c s ih =>
    have hvalue : ∀ (d : Nat) (ds : List Nat), List.Forall₂ (IsDigit base) s ds →
        (high * base + d) * base ^ s.length + Nat.ofDigits base ds.reverse =
          high * base ^ (c :: s).length + Nat.ofDigits base (d :: ds).reverse := by
      intro d ds hds
      rw [List.reverse_cons, Nat.ofDigits_append, Nat.ofDigits_singleton, List.length_reverse,
        ← hds.length_eq, List.length_cons]
      ring
    constructor
    · intro h
      rw [readDigitsAfter?] at h
      split at h
      · next d hd =>
        obtain ⟨ds, hds, rfl⟩ := ih.mp h
        exact ⟨d :: ds, .cons (digitValue?_eq_some_iff.mp hd) hds, hvalue d ds hds⟩
      · cases h
    · rintro ⟨_, hds, rfl⟩
      cases hds with
      | @cons _ d _ ds hd hds =>
        rw [readDigitsAfter?, digitValue?_eq_some_iff.mpr hd]
        exact ih.mpr ⟨ds, hds, (hvalue d ds hds).symm⟩

theorem readDigits?_eq_some_iff : readDigits? base s = some n ↔ Denotes base s n := by
  unfold readDigits? Denotes
  cases s with
  | nil => simp
  | cons c s => simp [readDigitsAfter?_eq_some_iff]

/-- More digits make no number smaller. -/
theorem le_of_readDigitsAfter? (hb : 0 < base) (h : readDigitsAfter? base high s = some n) :
    high ≤ n := by
  obtain ⟨ds, -, rfl⟩ := readDigitsAfter?_eq_some_iff.mp h
  have hp : 1 ≤ base ^ s.length := Nat.one_le_pow _ _ hb
  calc high = high * 1 := (Nat.mul_one high).symm
    _ ≤ high * base ^ s.length := Nat.mul_le_mul_left high hp
    _ ≤ _ := Nat.le_add_right _ _

theorem fit_eq_some_iff : fit n = some v ↔ v.toInt = n := by
  refine ⟨toInt_of_fit, fun h => ?_⟩
  rw [← h, fit_toInt]

/-- Where a number does not fit, no larger one does. -/
theorem fit_eq_none_of_le {m : Nat} (h : fit n = none) (hle : n ≤ m) : fit m = none := by
  rw [Option.eq_none_iff_forall_not_mem] at h ⊢
  intro v hv
  have hv : v.toInt = m := fit_eq_some_iff.mp hv
  obtain ⟨u, hu⟩ := fit_of_le (n := n) (by have := v.toInt_le; omega)
  exact h u hu

/-- The words on the way to a number fit if the number does. -/
theorem readWordAfter?_eq (hb : 0 < base) {word : Int64} (hw : fit high = some word) :
    readWordAfter? base word s = (readDigitsAfter? base high s).bind fun n => fit n := by
  induction s generalizing high word with
  | nil => exact hw.symm
  | cons c s ih =>
    rw [readWordAfter?, readDigitsAfter?]
    cases digitValue? base c with
    | none => rfl
    | some d =>
      have hshift : fit (word.toInt * base) = fit ((high * base : Nat) : Int) := by
        rw [toInt_of_fit hw, Int.natCast_mul]
      have hsum : ∀ shifted, fit ((high * base : Nat) : Int) = some shifted →
          fit (shifted.toInt + d) = fit ((high * base + d : Nat) : Int) := by
        intro shifted hs
        rw [toInt_of_fit hs, Int.natCast_add]
      dsimp only
      rw [hshift]
      cases hn : fit ((high * base + d : Nat) : Int) with
      | some next =>
        cases hs : fit ((high * base : Nat) : Int) with
        | none =>
          have hnone := fit_eq_none_of_le hs (Nat.le_add_right (high * base) d)
          rw [hn] at hnone
          cases hnone
        | some shifted =>
          show (fit (shifted.toInt + d)).bind _ = _
          rw [hsum shifted hs, hn]
          exact ih hn
      | none =>
        have hr : (readDigitsAfter? base (high * base + d) s).bind (fun n => fit n) = none := by
          rw [Option.bind_eq_none_iff]
          intro n h
          exact fit_eq_none_of_le hn (le_of_readDigitsAfter? hb h)
        rw [hr]
        cases hs : fit ((high * base : Nat) : Int) with
        | none => rfl
        | some shifted =>
          show (fit (shifted.toInt + d)).bind _ = _
          rw [hsum shifted hs, hn]
          rfl

theorem Denotes.isDigit (h : Denotes base s n) : ∀ c ∈ s, ∃ d, IsDigit base c d := by
  obtain ⟨-, ds, hds, -⟩ := h
  induction hds with
  | nil => simp
  | @cons c d s ds hd _ ih =>
    intro c' hc
    rcases List.mem_cons.mp hc with rfl | hc
    · exact ⟨d, hd⟩
    · exact ih c' hc

theorem Denotes.hash_not_mem (h : Denotes base s n) : '#' ∉ s := by
  intro hm
  obtain ⟨d, hd⟩ := h.isDigit _ hm
  have hv := digitValue?_of_isDigit hd
  cases hv

theorem magnitude?_eq_some_iff (hs : '#' ∉ s) : magnitude? s = some n ↔ Magnitude s n := by
  constructor
  · intro h
    unfold magnitude? at h
    split at h
    · exact .hexadecimal (by simp) (readDigits?_eq_some_iff.mp h)
    · exact .hexadecimal (by simp) (readDigits?_eq_some_iff.mp h)
    · exact .binary (by simp) (readDigits?_eq_some_iff.mp h)
    · exact .binary (by simp) (readDigits?_eq_some_iff.mp h)
    · exact .octal (readDigits?_eq_some_iff.mp h)
    · next hoctal =>
      have hd := readDigits?_eq_some_iff.mp h
      by_cases hz : s.head? = some '0'
      · obtain ⟨r, rfl⟩ := List.head?_eq_some_iff.mp hz
        cases r with
        | nil =>
          cases h
          exact .zero
        | cons c r => exact absurd rfl (hoctal c r)
      · exact .decimal hz hd
  · intro h
    cases h with
    | based => simp at hs
    | hexadecimal hx h =>
      simp only [List.mem_cons, List.not_mem_nil, or_false] at hx
      rcases hx with rfl | rfl <;> exact readDigits?_eq_some_iff.mpr h
    | binary hb h =>
      simp only [List.mem_cons, List.not_mem_nil, or_false] at hb
      rcases hb with rfl | rfl <;> exact readDigits?_eq_some_iff.mpr h
    | @octal _ digits h =>
      have hd := readDigits?_eq_some_iff.mpr h
      cases digits with
      | nil => exact absurd rfl h.1
      | cons c r =>
        obtain ⟨d, hc⟩ := h.isDigit c List.mem_cons_self
        have hc := digitValue?_of_isDigit hc
        rw [magnitude?]
        · exact hd
        all_goals
          rintro rfl
          cases hc
    | zero => rfl
    | decimal hz h =>
      have hd := readDigits?_eq_some_iff.mpr h
      rw [magnitude?]
      · exact hd
      all_goals
        intros
        subst s
        exact hz rfl

theorem unsigned?_of_not_mem (hs : '#' ∉ s) :
    unsigned? s = (magnitude? s).bind fun n => fit n := by
  have hd : s.dropWhile (· != '#') = [] := List.dropWhile_eq_nil_iff.mpr fun c hc => by
    rw [bne_iff_ne]
    rintro rfl
    exact hs hc
  rw [unsigned?, hd]

theorem unsigned?_based (hs : '#' ∉ s) : unsigned? (s ++ '#' :: digits) =
    (readDigits? 10 s).bind fun base =>
      if 2 ≤ base ∧ base ≤ 64 then (readDigits? base digits).bind fun n => fit n else none := by
  have hall : ∀ c ∈ s, c != '#' := fun c hc => by
    rw [bne_iff_ne]
    rintro rfl
    exact hs hc
  rw [unsigned?, dropWhile_append_cons (p := (· != '#')) rfl, takeWhile_append_cons rfl,
    List.dropWhile_eq_nil_iff.mpr hall, List.takeWhile_eq_self_iff.mpr hall]
  dsimp only [List.nil_append]
  cases digits with
  | nil => cases readDigits? 10 s <;> simp [readDigits?]
  | cons c digits =>
    cases readDigits? 10 s with
    | none => rfl
    | some base =>
      dsimp only [Option.bind_some]
      by_cases hb : 2 ≤ base ∧ base ≤ 64
      · have hzero : fit ((0 : Nat) : Int) = some 0 := rfl
        rw [if_pos hb, if_pos hb, readWordAfter?_eq (Nat.lt_of_lt_of_le Nat.zero_lt_two hb.1) hzero]
        rfl
      · rw [if_neg hb, if_neg hb]
        rfl

theorem unsigned?_of_magnitude (h : Magnitude s n) : unsigned? s = fit n := by
  have hplain : '#' ∉ s → unsigned? s = fit n := fun hs => by
    rw [unsigned?_of_not_mem hs, (magnitude?_eq_some_iff hs).mpr h, Option.bind_some]
  cases h with
  | based hs hl hu h =>
    rw [unsigned?_based (hs.hash_not_mem), readDigits?_eq_some_iff.mpr hs, Option.bind_some,
      if_pos ⟨hl, hu⟩, readDigits?_eq_some_iff.mpr h, Option.bind_some]
  | hexadecimal hx h =>
    refine hplain ?_
    simp only [List.mem_cons, List.not_mem_nil, or_false] at hx
    rcases hx with rfl | rfl <;> simp [h.hash_not_mem]
  | binary hb h =>
    refine hplain ?_
    simp only [List.mem_cons, List.not_mem_nil, or_false] at hb
    rcases hb with rfl | rfl <;> simp [h.hash_not_mem]
  | octal h => exact hplain (by simp [h.hash_not_mem])
  | zero => exact hplain (by simp)
  | decimal hz h => exact hplain (h.hash_not_mem)

theorem unsigned?_eq_some_iff : unsigned? s = some v ↔ ∃ n : Nat, Magnitude s n ∧ v.toInt = n := by
  constructor
  · intro h
    by_cases hs : '#' ∈ s
    · obtain ⟨b, digits, rfl, hb⟩ := List.eq_append_cons_of_mem hs
      rw [unsigned?_based hb] at h
      obtain ⟨base, hbase, h⟩ := Option.bind_eq_some_iff.mp h
      split at h
      · next hr =>
        obtain ⟨n, hn, h⟩ := Option.bind_eq_some_iff.mp h
        have hbase := readDigits?_eq_some_iff.mp hbase
        exact ⟨n, .based hbase hr.1 hr.2 (readDigits?_eq_some_iff.mp hn), fit_eq_some_iff.mp h⟩
      · cases h
    · rw [unsigned?_of_not_mem hs] at h
      obtain ⟨n, hn, h⟩ := Option.bind_eq_some_iff.mp h
      exact ⟨n, (magnitude?_eq_some_iff hs).mp hn, fit_eq_some_iff.mp h⟩
  · rintro ⟨n, h, hv⟩
    rw [unsigned?_of_magnitude h]
    exact fit_eq_some_iff.mpr hv

theorem eq_digit_of_isDigit (h : IsDigit base c d) (hb : base ≤ 10) :
    d < 10 ∧ c = Decimal.digit d := by
  cases h with
  | decimal h => exact ⟨h, rfl⟩
  | small _ hd | either _ _ hd => omega
  | capital _ hcase | atSign hcase | underscore hcase => omega

/-- A constant without a sign starts with a decimal digit. -/
theorem exists_of_magnitude (h : Magnitude s n) :
    ∃ d r, d < 10 ∧ s = Decimal.digit d :: r := by
  have hfirst : ∀ {s : List Char} {n : Nat}, Denotes 10 s n →
      ∃ d r, d < 10 ∧ s = Decimal.digit d :: r := by
    intro s n hs
    cases s with
    | nil => exact absurd rfl hs.1
    | cons c s =>
      obtain ⟨d, hc⟩ := hs.isDigit c List.mem_cons_self
      obtain ⟨hd, rfl⟩ := eq_digit_of_isDigit hc (Nat.le_refl 10)
      exact ⟨d, s, hd, rfl⟩
  cases h with
  | based hs =>
    obtain ⟨d, r, hd, rfl⟩ := hfirst hs
    exact ⟨d, _, hd, rfl⟩
  | hexadecimal | binary | octal | zero => exact ⟨0, _, by decide, rfl⟩
  | decimal hz h => exact hfirst h

theorem constant?_digit (hd : d < 10) (s : List Char) :
    constant? (Decimal.digit d :: s) = unsigned? (Decimal.digit d :: s) := by
  obtain ⟨hm, hp, -⟩ := digit_ne_sign d hd
  rw [constant?]
  · intro r h
    injection h with h
    exact hm h
  · intro r h
    injection h with h
    exact hp h

theorem toInt_neg_of_natAbs_le (h : v.toInt.natAbs ≤ 2 ^ 63 - 1) : (-v).toInt = -v.toInt := by
  rw [Int64.toInt_neg]
  exact Int.bmod_eq_of_le (by omega) (by omega)

/-- A text is read as a constant if and only if it has the form of one and stands for a number whose
magnitude alone fits in a word. All other texts are none. -/
theorem constant?_eq_some_iff :
    constant? s = some v ↔ Signed s v.toInt ∧ v.toInt.natAbs ≤ 2 ^ 63 - 1 := by
  constructor
  · intro h
    unfold constant? at h
    split at h
    · obtain ⟨u, hu, rfl⟩ := Option.map_eq_some_iff.mp h
      obtain ⟨n, hn, hv⟩ := unsigned?_eq_some_iff.mp hu
      have hlt := u.toInt_lt
      rw [toInt_neg_of_natAbs_le (by omega), hv]
      exact ⟨.minus hn, by omega⟩
    · obtain ⟨n, hn, hv⟩ := unsigned?_eq_some_iff.mp h
      have hlt := v.toInt_lt
      exact ⟨hv ▸ .plus hn, by omega⟩
    · obtain ⟨n, hn, hv⟩ := unsigned?_eq_some_iff.mp h
      have hlt := v.toInt_lt
      exact ⟨hv ▸ .plain hn, by omega⟩
  · rintro ⟨hs, hle⟩
    generalize hv : v.toInt = i at hs
    cases hs with
    | plain h =>
      obtain ⟨d, r, hd, rfl⟩ := exists_of_magnitude h
      rw [constant?_digit hd]
      exact unsigned?_eq_some_iff.mpr ⟨_, h, hv⟩
    | plus h => exact unsigned?_eq_some_iff.mpr ⟨_, h, hv⟩
    | minus h =>
      have hu : (-v).toInt = _ := (toInt_neg_of_natAbs_le hle).trans (by rw [hv, Int.neg_neg])
      show (unsigned? _).map (-·) = some v
      rw [unsigned?_eq_some_iff.mpr ⟨_, h, hu⟩, Option.map_some, Int64.neg_neg]

/-- All other texts are no constants, of whatever length and characters they are. -/
theorem constants_read_exactly (s : List Char) :
    (∀ v, constant? s = some v ↔ Signed s v.toInt ∧ v.toInt.natAbs ≤ 2 ^ 63 - 1) ∧
      (constant? s = none ↔ ∀ i, Signed s i → 2 ^ 63 - 1 < i.natAbs) := by
  refine ⟨fun v => constant?_eq_some_iff, ?_⟩
  rw [Option.eq_none_iff_forall_ne_some]
  constructor
  · intro h i hs
    by_contra hi
    have hv : (Int64.ofInt i).toInt = i := Int64.toInt_ofInt_of_le (by omega) (by omega)
    exact h _ (constant?_eq_some_iff.mpr ⟨hv.symm ▸ hs, by omega⟩)
  · intro h v hv
    obtain ⟨hs, hle⟩ := constant?_eq_some_iff.mp hv
    exact absurd (h _ hs) (by omega)

example : constant? "-36#Zz".toList = some (-1295) ∧ constant? "64#Z@_".toList = some 253887 := by
  decide +kernel

end ShellCore.Arith
