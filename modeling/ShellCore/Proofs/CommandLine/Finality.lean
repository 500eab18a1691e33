import ShellCore.Proofs.CommandLine.Arguments
import ShellCore.Proofs.CommandLine.Places

/-! When the end of the options stays the end. -/

namespace ShellCore.CommandLine

open Text

variable {args : List String} {spec : OptionSpec} {c c' : Cursor} {i j : Nat}

/-- The cursors that calls with the same arguments lead to. -/
inductive Reaches (args : List String) (spec : OptionSpec) (c : Cursor) : Cursor → Prop
  | refl : Reaches args spec c c
  | next {c' : Cursor} (h : Reaches args spec c c') : Reaches args spec c (next args spec c').2

/-- Each further call says again that no option is left, and leaves the place as it is. -/
def IsFinal (args : List String) (spec : OptionSpec) (c : Cursor) : Prop :=
  ∀ c', Reaches args spec c c' →
    (next args spec c').1 = .done ∧ (next args spec c').2.index = c.index ∧
      (next args spec c').2.sub = c.sub

/-- The argument has a sign and something behind it. So has `--`. -/
def IsGroup (spec : OptionSpec) (arg : String) : Prop :=
  spec.introducesOptions arg.toList ∧ 2 ≤ byteLength arg.toList

/-- At the index are options, or a mark that ends them. -/
def GroupAt (args : List String) (spec : OptionSpec) (i : Nat) (arg : String) : Prop :=
  args[i]? = some arg ∧ IsGroup spec arg

theorem isGroup_double_hyphen (spec : OptionSpec) : IsGroup spec "--" :=
  ⟨rfl, by decide⟩

theorem not_isGroup_iff {arg : String} :
    ¬ IsGroup spec arg ↔ !spec.introducesOptions arg.toList || byteLength arg.toList < 2 := by
  unfold IsGroup
  cases spec.introducesOptions arg.toList <;> simp

/-- An argument with options is entered. -/
theorem exists_place_of_entering {arg : String} (h : GroupAt args spec i arg) (hd : arg ≠ "--") :
    ∃ p, entering args spec i = .atOption p := by
  obtain ⟨ha, hg⟩ := h
  rw [entering_eq ha, if_neg hd, if_neg fun hn => not_isGroup_iff.mpr hn hg]
  obtain ⟨sign, o, rest, hl, -⟩ := exists_of_introduces hg.1 hg.2
  rw [hl]
  exact ⟨_, rfl⟩

theorem entering_of_not_groupAt (h : ∀ arg, ¬ GroupAt args spec i arg) :
    entering args spec i = .ended i := by
  rcases ha : args[i]? with - | arg
  · simp only [entering, ha]
  · have hg : ¬ IsGroup spec arg := fun hg => h arg ⟨ha, hg⟩
    have hd : arg ≠ "--" := by
      rintro rfl
      exact hg (isGroup_double_hyphen spec)
    rw [entering_eq ha, if_neg hd, if_pos (not_isGroup_iff.mp hg)]

/-- The end is before an operand or behind `--`. -/
theorem ended_of_entering_cases (h : entering args spec i = .ended j) :
    (∀ arg, ¬ GroupAt args spec j arg) ∨ ∃ k, i ≤ k ∧ j = k + 1 ∧ args[k]? = some "--" := by
  by_cases hg : ∃ arg, GroupAt args spec i arg
  · obtain ⟨arg, hg⟩ := hg
    by_cases hd : arg = "--"
    · subst hd
      rw [entering_eq hg.1, if_pos rfl] at h
      cases h
      exact .inr ⟨i, Nat.le_refl i, rfl, hg.1⟩
    · obtain ⟨p, hp⟩ := exists_place_of_entering hg hd
      rw [hp] at h
      cases h
  · have hn : ∀ arg, ¬ GroupAt args spec i arg := not_exists.mp hg
    rw [entering_of_not_groupAt hn] at h
    cases h
    exact .inl hn

theorem ended_of_position_cases (h : position args spec c = .ended j) :
    (∀ arg, ¬ GroupAt args spec j arg) ∨
      ∃ k, c.index ≤ k ∧ j = k + 1 ∧ args[k]? = some "--" := by
  unfold position at h
  split at h
  · next ha =>
    cases h
    exact .inl fun arg hg => by simp [hg.1] at ha
  · split at h
    · exact ended_of_entering_cases h
    · split at h
      · cases h
      · rcases ended_of_entering_cases h with hn | ⟨k, hk, hj⟩
        · exact .inl hn
        · exact .inr ⟨k, by omega, hj⟩

theorem position_of_done (h : next args spec c = (.done, c')) :
    ∃ j, position args spec c = .ended j ∧ c' = { index := j } := by
  rcases hp : position args spec c with p | j
  · have hn : next args spec c = p.read args spec := by rw [next, hp]
    exact absurd (congrArg Prod.fst (hn.symm.trans h)) reads_of_read.ne_done
  · have hn : next args spec c = (.done, { index := j }) := by rw [next, hp]
    exact ⟨j, rfl, congrArg Prod.snd (h.symm.trans hn)⟩

/-- At the start of an argument the call goes by what the argument is. -/
theorem position_start (hs : c.sub = 0) : position args spec c = entering args spec c.index := by
  unfold position
  split
  · next ha => simp only [entering, ha]
  · exact if_pos hs

theorem next_of_not_groupAt (hs : c.sub = 0) (h : ∀ arg, ¬ GroupAt args spec c.index arg) :
    next args spec c = (.done, { index := c.index }) := by
  rw [next, position_start hs, entering_of_not_groupAt h]

/-- Before an operand no call moves the cursor. -/
theorem place_of_reaches (hs : c.sub = 0) (hn : ∀ arg, ¬ GroupAt args spec c.index arg)
    (hr : Reaches args spec c c') : c'.index = c.index ∧ c'.sub = 0 := by
  induction hr with
  | refl => exact ⟨rfl, hs⟩
  | next _ ih =>
    rw [next_of_not_groupAt ih.2 (by rwa [ih.1])]
    exact ⟨ih.1, rfl⟩

theorem isFinal_of_not_groupAt (hs : c.sub = 0) (hn : ∀ arg, ¬ GroupAt args spec c.index arg) :
    IsFinal args spec c := by
  intro c' hr
  obtain ⟨hi, hz⟩ := place_of_reaches hs hn hr
  rw [next_of_not_groupAt hz (by rwa [hi])]
  exact ⟨rfl, hi, hs.symm⟩

/-- In front of a group the next call goes into it or, if it is `--`, behind it. -/
theorem next_of_groupAt {arg : String} (hs : c.sub = 0) (hg : GroupAt args spec c.index arg) :
    if arg = "--" then next args spec c = (.done, { index := c.index + 1 })
    else ∃ p : Place, next args spec c = p.read args spec := by
  split
  · next hd =>
    subst hd
    rw [next, position_start hs, entering_eq hg.1, if_pos rfl]
  · next hd =>
    obtain ⟨p, hp⟩ := exists_place_of_entering hg hd
    exact ⟨p, by rw [next, position_start hs, hp]⟩

theorem next_done_iff (hs : c.sub = 0) :
    (next args spec c).1 = .done ↔ ∀ arg, GroupAt args spec c.index arg → arg = "--" := by
  constructor
  · intro h arg hg
    obtain ⟨j, hp, -⟩ := position_of_done (Prod.ext h rfl)
    rw [position_start hs] at hp
    by_cases hd : arg = "--"
    · exact hd
    · obtain ⟨p, he⟩ := exists_place_of_entering hg hd
      rw [he] at hp
      cases hp
  · intro h
    by_cases hg : ∃ arg, GroupAt args spec c.index arg
    · obtain ⟨arg, hg⟩ := hg
      have hn := next_of_groupAt hs hg
      rw [if_pos (h arg hg)] at hn
      rw [hn]
    · rw [next_of_not_groupAt hs (not_exists.mp hg)]

/-- The end of the options is final exactly where no group of options follows it, which may be only
behind `--`. The next call reads such a group, and skips another `--`. -/
theorem end_is_final_iff (h : next args spec c = (.done, c')) :
    (IsFinal args spec c' ↔ ∀ arg, ¬ GroupAt args spec c'.index arg) ∧
      ((next args spec c').1 = .done ↔ ∀ arg, GroupAt args spec c'.index arg → arg = "--") ∧
      ∀ arg, GroupAt args spec c'.index arg →
        ∃ k, c.index ≤ k ∧ c'.index = k + 1 ∧ args[k]? = some "--" := by
  obtain ⟨j, hp, rfl⟩ := position_of_done h
  refine ⟨⟨fun hf arg hg => ?_, isFinal_of_not_groupAt rfl⟩, next_done_iff rfl, fun arg hg => ?_⟩
  · obtain ⟨hd, hi, -⟩ := hf _ .refl
    have hn := next_of_groupAt rfl hg
    rw [if_pos ((next_done_iff rfl).mp hd arg hg)] at hn
    rw [hn] at hi
    exact absurd hi (Nat.succ_ne_self j)
  · rcases ended_of_position_cases hp with hn | hk
    · exact absurd hg (hn arg)
    · exact hk

/-- Behind `--` is an operand, and the option behind that is never read. -/
theorem end_before_operand_is_final :
    let args := ["cmd", "-a", "--", "x", "-a"]
    let spec : OptionSpec := ⟨['a'], false, false⟩
    let c : Cursor := { index := 2 }
    next args spec c = (.done, { index := 3 }) ∧ IsFinal args spec { index := 3 } := by
  intro args spec c
  have h : next args spec c = (.done, { index := 3 }) := by decide
  refine ⟨h, (end_is_final_iff h).1.mpr ?_⟩
  rintro arg ⟨ha, hg, -⟩
  cases ha
  cases hg

/-- The end of the options is not always final: an option behind `--` is read by the next call. -/
theorem not_final_behind_double_hyphen :
    ¬ ∀ (args : List String) (spec : OptionSpec) (c c' : Cursor), Reaches args spec {} c →
      next args spec c = (.done, c') → IsFinal args spec c' := by
  intro h
  have hf := h ["cmd", "--", "-a"] ⟨['a'], false, false⟩ {} { index := 2 } .refl (by decide)
  exact absurd (hf _ .refl).1 (by decide)

end ShellCore.CommandLine
