import ShellCore.Proofs.CommandLine.Finality

/-! What becomes of an argument that an option does not take, and of one that it takes. -/

namespace ShellCore.CommandLine

open Text

variable {args : List String} {spec : OptionSpec} {c c' : Cursor} {found : Next}
  {arg value : String} {o : Char} {i : Nat}

/-- No option is left, and the argument at the index is the first operand. -/
def Stops (args : List String) (spec : OptionSpec) (c : Cursor) : Prop :=
  next args spec c = (.done, { index := c.index })

/-- No option is left behind the argument at the index. -/
def Skips (args : List String) (spec : OptionSpec) (c : Cursor) : Prop :=
  next args spec c = (.done, { index := c.index + 1 })

/-- An option, or an error about one, is read from the argument at the index. -/
def ReadsFrom (args : List String) (spec : OptionSpec) (arg : String) (c : Cursor) : Prop :=
  ∃ p : Place, p.index = c.index ∧ arg.toList = p.before ++ p.option :: p.rest ∧
    p.Reads args spec (next args spec c).1 (next args spec c).2

theorem not_skips_of_stops (h : Stops args spec c) : ¬ Skips args spec c := by
  intro hs
  have hc := congrArg (fun r => r.2.index) (h.symm.trans hs)
  exact absurd hc (Nat.ne_of_lt (Nat.lt_succ_self c.index))

theorem ReadsFrom.ne_done (h : ReadsFrom args spec arg c) : (next args spec c).1 ≠ .done := by
  obtain ⟨p, -, -, hr⟩ := h
  exact hr.ne_done

theorem ReadsFrom.not_stops (h : ReadsFrom args spec arg c) : ¬ Stops args spec c :=
  fun hs => h.ne_done (congrArg Prod.fst hs)

theorem ReadsFrom.not_skips (h : ReadsFrom args spec arg c) : ¬ Skips args spec c :=
  fun hs => h.ne_done (congrArg Prod.fst hs)

/-- At its start, the argument decides which of the three happens. -/
theorem outcome_iff (hs : c.sub = 0) (ha : args[c.index]? = some arg) :
    (Stops args spec c ↔ ¬ IsGroup spec arg) ∧ (Skips args spec c ↔ arg = "--") ∧
      (ReadsFrom args spec arg c ↔ IsGroup spec arg ∧ arg ≠ "--") := by
  by_cases hg : IsGroup spec arg
  · have hn := next_of_groupAt hs ⟨ha, hg⟩
    by_cases hd : arg = "--"
    · rw [if_pos hd] at hn
      have hskip : Skips args spec c := hn
      exact ⟨iff_of_false (fun h => not_skips_of_stops h hskip) (not_not_intro hg),
        iff_of_true hskip hd, iff_of_false (fun h => h.not_skips hskip) fun h => h.2 hd⟩
    · have hread : ReadsFrom args spec arg c := by
        obtain ⟨p, hp⟩ := exists_place_of_entering ⟨ha, hg⟩ hd
        obtain ⟨hi, arg', sign, ha', -, hb, hl⟩ := arg_of_entering hp
        cases ha.symm.trans ha'
        refine ⟨p, hi, by rw [hl, hb]; rfl, ?_⟩
        rw [next, position_start hs, hp]
        exact reads_of_read
      exact ⟨iff_of_false hread.not_stops (not_not_intro hg), iff_of_false hread.not_skips hd,
        iff_of_true hread ⟨hg, hd⟩⟩
  · have hstop : Stops args spec c := by
      refine next_of_not_groupAt hs fun arg' hg' => ?_
      cases ha.symm.trans hg'.1
      exact hg hg'.2
    have hd : arg ≠ "--" := by
      rintro rfl
      exact hg (isGroup_double_hyphen spec)
    exact ⟨iff_of_true hstop hg, iff_of_false (not_skips_of_stops hstop) hd,
      iff_of_false (fun h => h.not_stops hstop) fun h => hg h.1⟩

/-- Of the arguments that introduce options, only a lone plus sign has none. -/
theorem isGroup_iff_of_introduces (h : spec.introducesOptions arg.toList) :
    IsGroup spec arg ↔ arg ≠ "+" := by
  constructor
  · rintro ⟨-, hb⟩ rfl
    exact absurd hb (by decide)
  · intro hne
    refine ⟨h, ?_⟩
    rcases hl : arg.toList with - | ⟨sign, - | ⟨o, rest⟩⟩
    · rw [hl] at h
      cases h
    · rw [hl] at h
      rcases introduces_cons_iff.mp h with ⟨-, hn⟩ | ⟨rfl, -⟩
      · exact absurd rfl hn
      · exact absurd (String.toList_inj.mp hl) hne
    · have hs := sign.utf8Size_pos
      have ho := o.utf8Size_pos
      simp only [byteLength_cons]
      omega

theorem introduces_of_missing (h : next args spec c = (.error (.missingArgument o), c')) :
    c'.sub = 0 ∧ ∀ value, args[c'.index]? = some value → spec.introducesOptions value.toList := by
  obtain ⟨p, -, hr⟩ := exists_place_of_next h Next.noConfusion
  cases hr with
  | missing _ _ hv => exact ⟨rfl, hv⟩

/-- An option argument that is an argument of its own introduces no options. What is left of the
argument that the option is in is shorter than that one. -/
theorem not_introduces_of_given (h : next args spec c = (found, c'))
    (hg : c'.argument = .given value) (hi : c'.index = i + 1) (ha : args[i]? = some value) :
    ¬ spec.introducesOptions value.toList := by
  have hf : found ≠ .done := by
    rintro rfl
    obtain ⟨j, -, rfl⟩ := position_of_done h
    cases hg
  obtain ⟨p, hp, hr⟩ := exists_place_of_next h hf
  obtain ⟨arg, harg, hl⟩ := (follows_of_position hp).arg
  cases hr with
  | unknown | alone => cases (after_argument p).symm.trans hg
  | attached =>
    cases hg
    obtain rfl : i = p.index := (Nat.succ.inj hi).symm
    cases ha.symm.trans harg
    have hlen := congrArg List.length hl
    simp at hlen
    omega
  | missing => cases hg
  | following _ _ ha' hv =>
    cases hg
    obtain rfl : i = p.index + 1 := (Nat.succ.inj hi).symm
    exact hv

/-- An argument that an option does not take is skipped if it is `--`, and read as options unless
it is a lone plus sign, which is the first operand. An argument that an option takes would have
been the first operand. -/
theorem refused_stops_iff (h : next args spec c = (found, c')) :
    (∀ o value, found = .error (.missingArgument o) → args[c'.index]? = some value →
      (Stops args spec c' ↔ value = "+") ∧ (Skips args spec c' ↔ value = "--") ∧
        (ReadsFrom args spec value c' ↔ value ≠ "+" ∧ value ≠ "--")) ∧
    ∀ i value, c'.argument = .given value → c'.index = i + 1 → args[i]? = some value →
      Stops args spec { index := i } := by
  constructor
  · rintro o value rfl ha
    obtain ⟨hs, hint⟩ := introduces_of_missing h
    obtain ⟨hstop, hskip, hread⟩ := outcome_iff hs ha
    have hgroup := isGroup_iff_of_introduces (hint value ha)
    exact ⟨hstop.trans (by rw [hgroup, Decidable.not_not]), hskip, hread.trans (by rw [hgroup])⟩
  · intro i value hg hi ha
    have hn := not_introduces_of_given h hg hi ha
    exact (outcome_iff rfl ha).1.mpr fun hgroup => hn hgroup.1

/-- After an option without its argument comes `--`. A lone hyphen is an argument. -/
theorem double_hyphen_skipped_hyphen_taken :
    let spec : OptionSpec := ⟨['a', ':'], false, true⟩
    next ["cmd", "-a", "--"] spec {} =
        (.error (.missingArgument 'a'), ⟨2, 0, some 'a', .missing⟩) ∧
      Skips ["cmd", "-a", "--"] spec ⟨2, 0, some 'a', .missing⟩ ∧
      next ["cmd", "+a", "-"] spec {} = (.option 'a' true, ⟨3, 0, none, .given "-"⟩) ∧
      Stops ["cmd", "+a", "-"] spec { index := 2 } := by
  intro spec
  have hmissing : next ["cmd", "-a", "--"] spec {} =
      (.error (.missingArgument 'a'), ⟨2, 0, some 'a', .missing⟩) := by decide
  have htaken : next ["cmd", "+a", "-"] spec {} = (.option 'a' true, ⟨3, 0, none, .given "-"⟩) := by
    decide
  exact ⟨hmissing, ((refused_stops_iff hmissing).1 'a' "--" rfl rfl).2.1.mpr rfl, htaken,
    (refused_stops_iff htaken).2 2 "-" rfl rfl rfl⟩

/-- Not every argument that an option does not take is skipped or read as options. -/
theorem refused_plus_stops :
    ¬ ∀ (args : List String) (spec : OptionSpec) (c c' : Cursor) (o : Char) (value : String),
      next args spec c = (.error (.missingArgument o), c') → args[c'.index]? = some value →
        Skips args spec c' ∨ ReadsFrom args spec value c' := by
  intro h
  have hmissing : next ["cmd", "-a", "+"] ⟨['a', ':'], false, true⟩ {} =
      (.error (.missingArgument 'a'), ⟨2, 0, some 'a', .missing⟩) := by decide
  have hstop : Stops ["cmd", "-a", "+"] ⟨['a', ':'], false, true⟩
      ⟨2, 0, some 'a', .missing⟩ := by
    unfold Stops
    decide
  rcases h _ _ _ _ 'a' "+" hmissing rfl with hskip | hread
  · exact not_skips_of_stops hstop hskip
  · exact hread.not_stops hstop

end ShellCore.CommandLine
