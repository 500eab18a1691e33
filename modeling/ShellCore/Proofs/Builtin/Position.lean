import ShellCore.Builtin.Getopts
import ShellCore.Proofs.CommandLine.Places
import ShellCore.Proofs.Arith.Numeral

/-! Which places among the arguments the option reader finds again from its variables. -/

namespace ShellCore.Builtin.Getopts

open CommandLine Text Decimal

variable {η : Type} {spec : OptionSpec} {args : List String} {c : Cursor} {p : Place} {arg : String}
  {env : Environment η} {i j n : Nat}

/-- The place is the start of an argument or the end of them, or stands before an option. -/
structure InPlace (spec : OptionSpec) (args : List String) (c : Cursor) : Prop where
  index_pos : 1 ≤ c.index
  index_lt : c.index < UInt64.size
  resumable : c.sub ≠ 0 → ∃ arg, args[c.index]? = some arg ∧ isResumable spec arg.toList c.sub

/-- What a machine can hold: no list has more elements and no text has more bytes. -/
structure Fits (args : List String) : Prop where
  length_lt : args.length < UInt64.size
  bytes_le : ∀ arg ∈ args, (byteLength arg.toList : Int) ≤ Int64.maxValue.toInt

theorem readIndex?_bounds {s : List Char} (h : readIndex? s = some n) :
    1 ≤ n ∧ n < UInt64.size := by
  unfold readIndex? at h
  have hf := (Option.filter_eq_some_iff.mp h).2
  simpa using hf

theorem inPlace_loadCursor (env : Environment η) (spec : OptionSpec) (args : List String) :
    InPlace spec args (loadCursor env spec args) := by
  have hi : 1 ≤ (loadCursor env spec args).index ∧
      (loadCursor env spec args).index < UInt64.size := by
    rcases hr : readIndex? (trim (env.valueD optIndex "1").toList) with - | n
    · have h1 : (loadCursor env spec args).index = 1 := by simp [loadCursor, hr]
      rw [h1]
      decide
    · have hn : (loadCursor env spec args).index = n := by simp [loadCursor, hr]
      rw [hn]
      exact readIndex?_bounds hr
  refine ⟨hi.1, hi.2, fun hs => ?_⟩
  unfold loadCursor at hs ⊢
  dsimp only at hs ⊢
  split at hs
  · rename_i hr
    rw [if_pos hr]
    exact (Option.any_eq_true _ _).mp hr
  · exact absurd rfl hs

/-- The argument of an option that is entered starts with a sign. -/
theorem introduces_of_entering (h : entering args spec i = .atOption p) :
    ∃ arg, args[p.index]? = some arg ∧ spec.introducesOptions arg.toList := by
  obtain ⟨rfl, arg, sign, ha, hi, -⟩ := arg_of_entering h
  exact ⟨arg, ha, hi⟩

theorem introduces_of_position (hc : InPlace spec args c)
    (h : position args spec c = .atOption p) :
    ∃ arg, args[p.index]? = some arg ∧ spec.introducesOptions arg.toList := by
  unfold position at h
  split at h
  · cases h
  · split at h
    · exact introduces_of_entering h
    · rename_i hs
      split at h
      · cases h
        obtain ⟨arg, ha, hr⟩ := hc.resumable hs
        unfold isResumable at hr
        rw [Bool.and_eq_true] at hr
        exact ⟨arg, ha, hr.1⟩
      · exact introduces_of_entering h

theorem ended_of_entering (h : entering args spec i = .ended j) :
    i ≤ j ∧ (j = i ∨ j ≤ args.length) := by
  unfold entering at h
  split at h
  · cases h
    exact ⟨Nat.le_refl _, .inl rfl⟩
  · rename_i arg ha
    have hlt : i < args.length := (List.getElem?_eq_some_iff.mp ha).1
    split at h
    · cases h
      exact ⟨Nat.le_succ _, .inr hlt⟩
    · split at h
      · cases h
      · cases h
        exact ⟨Nat.le_refl _, .inl rfl⟩
    · cases h
      exact ⟨Nat.le_refl _, .inl rfl⟩

theorem ended_of_position (h : position args spec c = .ended j) :
    c.index ≤ j ∧ (j = c.index ∨ j ≤ args.length) := by
  unfold position at h
  split at h
  · cases h
    exact ⟨Nat.le_refl _, .inl rfl⟩
  · rename_i arg ha
    have hlt : c.index < args.length := (List.getElem?_eq_some_iff.mp ha).1
    split at h
    · exact ended_of_entering h
    · split at h
      · cases h
      · obtain ⟨hle, hj⟩ := ended_of_entering h
        refine ⟨by omega, .inr ?_⟩
        rcases hj with hj | hj
        · omega
        · exact hj

theorem inPlace_start (hi : 1 ≤ i) (hlt : i < UInt64.size) (invalid : Option Char)
    (argument : OptionArgument) : InPlace spec args ⟨i, 0, invalid, argument⟩ :=
  ⟨hi, hlt, fun h => absurd rfl h⟩

theorem inPlace_after (hl : args.length < UInt64.size) (hi : 1 ≤ p.index)
    (ha : args[p.index]? = some arg) (hs : arg.toList = p.before ++ p.option :: p.rest)
    (ho : spec.introducesOptions arg.toList) (invalid : Option Char) (argument : OptionArgument) :
    InPlace spec args { p.after with invalid, argument } := by
  have hlt : p.index < args.length := (List.getElem?_eq_some_iff.mp ha).1
  unfold Place.after
  split
  · dsimp only
    exact inPlace_start (by omega) (by omega) _ _
  · rename_i hr
    refine ⟨hi, by dsimp only; omega, fun _ => ⟨arg, ha, ?_⟩⟩
    have hd : dropBytes? (byteLength p.before + p.option.utf8Size) arg.toList = some p.rest := by
      rw [hs, dropBytes?_behind]
    unfold isResumable
    rw [ho, hd]
    simpa using hr

/-- From a place that can be found again, reading an option leads to another one. -/
theorem inPlace_next (hl : args.length < UInt64.size) (hc : InPlace spec args c) :
    InPlace spec args (next args spec c).2 := by
  have hpos := hc.index_pos
  have hlt := hc.index_lt
  unfold next
  rcases hp : position args spec c with p | j
  · obtain ⟨arg, ha, hs⟩ := (follows_of_position hp).arg
    have hle := (follows_of_position hp).index_le
    obtain ⟨arg', ha', ho⟩ := introduces_of_position hc hp
    have he : arg' = arg := Option.some.inj (ha'.symm.trans ha)
    subst he
    have hlen : p.index < args.length := (List.getElem?_eq_some_iff.mp ha).1
    have hnext : ∀ invalid argument, InPlace spec args ⟨p.index + 1, 0, invalid, argument⟩ :=
      fun invalid argument => inPlace_start (by omega) (by omega) invalid argument
    have hafter := inPlace_after hl (by omega) ha hs ho
    dsimp only
    have hr : p.Reads args spec (p.read args spec).1 (p.read args spec).2 := reads_of_read
    generalize (p.read args spec).1 = found, (p.read args spec).2 = c' at hr
    cases hr with
    | unknown => exact hafter (some p.option) p.after.argument
    | alone => exact hafter p.after.invalid p.after.argument
    | attached | missing => exact hnext _ _
    | following _ _ hv =>
      have hlen' : p.index + 1 < args.length := (List.getElem?_eq_some_iff.mp hv).1
      exact inPlace_start (by omega) (by omega) _ _
  · obtain ⟨hle, hj⟩ := ended_of_position hp
    exact inPlace_start (by omega) (by omega) _ _

theorem sub_le_of_inPlace (hf : Fits args) (hc : InPlace spec args c) :
    (c.sub : Int) ≤ Int64.maxValue.toInt := by
  by_cases hs : c.sub = 0
  · rw [hs]
    decide
  · obtain ⟨arg, ha, hr⟩ := hc.resumable hs
    have hb := hf.bytes_le arg (List.mem_of_getElem? ha)
    unfold isResumable at hr
    rw [Bool.and_eq_true] at hr
    obtain ⟨t, ht, -⟩ := (Option.any_eq_true _ _).mp hr.2
    obtain ⟨happ, hn⟩ := dropBytes?_eq_some ht
    rw [happ, byteLength_append, hn] at hb
    omega

theorem readIndex?_ofNat (hn : 1 ≤ n) (hlt : n < UInt64.size) : readIndex? (ofNat n) = some n := by
  have hs := isDigits_ofNat n
  have hr := Arith.readDigits?_ofNat n
  have hsign : ∀ s, ofNat n ≠ '+' :: s := by
    intro s h
    obtain ⟨d, hd, he⟩ := hs '+' (h ▸ List.mem_cons_self)
    exact (Arith.digit_ne_sign d hd).2.1 he.symm
  unfold readIndex?
  split
  · rename_i h
    exact absurd h (hsign _)
  · dsimp only
    rw [hr]
    simp [hn, hlt]

theorem loadCursor_of_sub (hc : InPlace spec args c)
    (hi : env.value? optIndex = some (natText c.index))
    (hs : (env.integerD optOffset 0).toInt.toNat = c.sub) :
    loadCursor env spec args = { index := c.index, sub := c.sub } := by
  have hindex : readIndex? (trim (env.valueD optIndex "1").toList) = some c.index := by
    rw [Environment.valueD, hi, Option.getD_some, natText, String.toList_ofList,
      trim_eq (isDigits_ofNat _)]
    exact readIndex?_ofNat hc.index_pos hc.index_lt
  unfold loadCursor
  simp only [hindex, hs, Option.getD_some]
  by_cases h0 : c.sub = 0
  · rw [h0, ite_self]
  · obtain ⟨arg, ha, hr⟩ := hc.resumable h0
    simp [ha, hr]

/-- The place is found again from the texts of its numbers. -/
theorem loadCursor_eq (hf : Fits args) (hc : InPlace spec args c)
    (hi : env.value? optIndex = some (natText c.index))
    (hs : env.value? optOffset = some (natText c.sub)) :
    loadCursor env spec args = { index := c.index, sub := c.sub } := by
  refine loadCursor_of_sub hc hi ?_
  obtain ⟨v, hv⟩ := Arith.fit_of_le (sub_le_of_inPlace hf hc)
  rw [Environment.integerD, hs, Option.bind_some, natText, String.toList_ofList,
    trim_eq (isDigits_ofNat _), Arith.constant?_ofNat, hv, Option.getD_some,
    Arith.toInt_of_fit hv]
  rfl

/-- Without an offset, the place is the start of an argument. -/
theorem loadCursor_start (hc : InPlace spec args c) (h0 : c.sub = 0)
    (hi : env.value? optIndex = some (natText c.index)) (hs : env.value? optOffset = none) :
    loadCursor env spec args = { index := c.index, sub := c.sub } := by
  refine loadCursor_of_sub hc hi ?_
  rw [Environment.integerD, hs, h0]
  rfl

end ShellCore.Builtin.Getopts
