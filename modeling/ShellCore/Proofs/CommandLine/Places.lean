import ShellCore.CommandLine.Scan

/-! What one call of the option reader can do. -/

namespace ShellCore.CommandLine

open Text

variable {args : List String} {spec : OptionSpec} {c c' : Cursor} {p : Place} {found : Next}
  {i : Nat}

theorem after_argument (p : Place) : p.after.argument = .absent := by
  unfold Place.after
  split <;> rfl

/-- What is found at a place, and the cursor that is left behind. -/
inductive Place.Reads (args : List String) (spec : OptionSpec) (p : Place) : Next → Cursor → Prop
  | unknown (hj : spec.judge p.option = .unknown) :
    Reads args spec p (.error (.unknownOption p.option)) { p.after with invalid := some p.option }
  | alone (hj : spec.judge p.option = .noArgument) :
    Reads args spec p (.option p.option (p.before.head? == some '+')) p.after
  | attached (hj : spec.judge p.option = .takesArgument) (hr : p.rest ≠ []) :
    Reads args spec p (.option p.option (p.before.head? == some '+'))
      { index := p.index + 1, argument := .given (String.ofList p.rest) }
  | missing (hj : spec.judge p.option = .takesArgument) (hr : p.rest = [])
    (hv : ∀ value, args[p.index + 1]? = some value → spec.introducesOptions value.toList) :
    Reads args spec p (.error (.missingArgument p.option))
      { index := p.index + 1, invalid := some p.option, argument := .missing }
  | following {value : String} (hj : spec.judge p.option = .takesArgument) (hr : p.rest = [])
    (ha : args[p.index + 1]? = some value) (hv : ¬ spec.introducesOptions value.toList) :
    Reads args spec p (.option p.option (p.before.head? == some '+'))
      { index := p.index + 2, argument := .given value }

theorem reads_of_read : p.Reads args spec (p.read args spec).1 (p.read args spec).2 := by
  unfold Place.read
  split
  · next hj => exact .unknown hj
  · next hj => exact .alone hj
  · next hj =>
    split
    · next hr => exact .attached hj (by simpa using hr)
    · next hr =>
      have hr : p.rest = [] := by simpa using hr
      dsimp only
      split
      · next hn => exact .missing hj hr (by simp [hn])
      · next value ha =>
        split
        · next hv =>
          refine .missing hj hr fun value' ha' => ?_
          cases ha.symm.trans ha'
          exact hv
        · next hv => exact .following hj hr ha hv

theorem Place.Reads.ne_done (h : p.Reads args spec found c') : found ≠ .done := by
  cases h <;> nofun

/-- Unless no option is left, the call reads at a place. -/
theorem exists_place_of_next (h : next args spec c = (found, c')) (hf : found ≠ .done) :
    ∃ p, position args spec c = .atOption p ∧ p.Reads args spec found c' := by
  rcases hp : position args spec c with p | j
  · have hn : next args spec c = p.read args spec := by rw [next, hp]
    have hr : p.Reads args spec (p.read args spec).1 (p.read args spec).2 := reads_of_read
    rw [← hn, h] at hr
    exact ⟨p, rfl, hr⟩
  · have hn : next args spec c = (.done, { index := j }) := by rw [next, hp]
    cases h.symm.trans hn
    exact absurd rfl hf

/-- What is entered is a sign with an option behind it. -/
theorem arg_of_entering (h : entering args spec i = .atOption p) :
    p.index = i ∧ ∃ arg sign, args[i]? = some arg ∧ spec.introducesOptions arg.toList ∧
      p.before = [sign] ∧ arg.toList = sign :: p.option :: p.rest := by
  unfold entering at h
  split at h
  · cases h
  · next arg ha =>
    split at h
    · cases h
    · next sign option rest _ hl =>
      split at h
      · next hi =>
        cases h
        exact ⟨rfl, arg, sign, ha, hi, rfl, hl⟩
      · cases h
    · cases h

/-- The place is in a later argument, or in what the cursor has left of its own one. -/
theorem suffix_of_position (h : position args spec c = .atOption p) :
    c.index < p.index ∨ p.index = c.index ∧ ∃ arg left, args[c.index]? = some arg ∧
      dropBytes? c.sub arg.toList = some left ∧ p.option :: p.rest <:+ left := by
  unfold position at h
  split at h
  · cases h
  · next arg ha =>
    split at h
    · next hs =>
      obtain ⟨hi, arg', sign, ha', -, -, hl⟩ := arg_of_entering h
      cases ha.symm.trans ha'
      exact .inr ⟨hi, arg, arg.toList, ha, by rw [hs, dropBytes?], ⟨[sign], hl.symm⟩⟩
    · split at h
      · next option rest hd =>
        cases h
        exact .inr ⟨rfl, arg, _, ha, hd, List.suffix_rfl⟩
      · obtain ⟨hi, -⟩ := arg_of_entering h
        exact .inl (by omega)

end ShellCore.CommandLine
