import ShellCore.Builtin.Basic
import ShellCore.Proofs.CommandLine.Checked
import ShellCore.Proofs.CommandLine.Progress

/-! The loop of a built-in over its options ends. -/

namespace ShellCore.Builtin

open CommandLine

variable {η : Type} {command : String} {args : List String} {spec : OptionSpec}
  {onError : OptionErrors}

/-- Reads an option of a built-in and handles it, or an error that it goes on after. The handler
may leave with an outcome. The operands are left to `finish`. -/
def optionRound (command : String) (args : List String) (spec : OptionSpec)
    (onError : OptionErrors) (handle : Next → Cursor → ShellM η (Option Outcome))
    (finish : Cursor → ShellM η Outcome) (c : Cursor) : ShellM η (Cursor ⊕ Outcome) := do
  match ← nextOption command args spec c onError with
  | (.error divert, _) => return .inr (.ofDivert divert)
  | (.ok .done, c) => return .inr (← finish c)
  | (.ok found, c) =>
    match ← handle found c with
    | some outcome => return .inr outcome
    | none => return .inl c

/-- Errors are handled around the reader, which finds the same as without that. -/
theorem exists_run_nextOption (command : String) (args : List String) (spec : OptionSpec)
    (c : Cursor) (onError : OptionErrors) (env : Environment η) :
    ∃ r env', (nextOption command args spec c onError).run env =
        ((r, (next args spec c).2), env') ∧
      ∀ found, r = .ok found → found = (next args spec c).1 := by
  unfold nextOption
  rcases next args spec c with ⟨found, c'⟩
  cases found with
  | option | done => exact ⟨_, _, rfl, fun _ h => (Except.ok.inj h).symm⟩
  | error e =>
    have hrest : ∀ env : Environment η, ∃ r env', (do
          if onError.exit && !(← get).settings.interactive then
            return (.error (.exit (some .error)), c')
          else return (.ok (.error e), c') : ShellM η (Except Divert Next × Cursor)).run env =
          ((r, c'), env') ∧ ∀ found, r = .ok found → found = .error e := by
      intro env
      have hget : (get : ShellM η (Environment η)).run env = (env, env) := rfl
      by_cases hx : onError.exit && !env.settings.interactive
      · refine ⟨.error (.exit (some .error)), env, ?_, nofun⟩
        rw [run_bind_of_run hget, if_pos hx]
        rfl
      · refine ⟨.ok (.error e), env, ?_, fun _ h => (Except.ok.inj h).symm⟩
        rw [run_bind_of_run hget, if_neg hx]
        rfl
    dsimp only
    split
    · exact hrest _
    · exact hrest env

theorem goesOnBehind_optionRound (handle : Next → Cursor → ShellM η (Option Outcome))
    (finish : Cursor → ShellM η Outcome) :
    GoesOnBehind args spec (optionRound command args spec onError handle finish) := by
  intro c env c' env' h
  obtain ⟨r, env1, hr, hfound⟩ := exists_run_nextOption command args spec c onError env
  rw [optionRound, run_bind_of_run hr] at h
  cases r with
  | error divert => cases h
  | ok found =>
    rw [← hfound found rfl]
    cases found with
    | done => cases h
    | option | error =>
      dsimp only at h
      rcases hh : (handle _ _).run env1 with ⟨outcome | _, env2⟩
      · rw [run_bind_of_run hh] at h
        cases h
        exact ⟨nofun, rfl, rfl⟩
      · rw [run_bind_of_run hh] at h
        cases h

/-- From every cursor, the reader takes only steps that a machine takes, and whatever it reads takes
the cursor forward. So there are no more calls than characters, and the one that finds the end. -/
theorem reader_progresses (args : List String) (spec : OptionSpec) (c : Cursor) :
    (∀ limit, Held limit args → checkedNext limit args spec c = .ok (next args spec c)) ∧
    ((next args spec c).1 ≠ .done → Advances args c (next args spec c).2) ∧
    (∃ found last, (rounds (scanRound args spec) (charCount args + 1) c).run [] =
        (some last, found ++ [.done]) ∧ .done ∉ found ∧ found.length ≤ charCount args) ∧
    ((rounds (parseRound args spec) (charCount args + 1) {}).run []).1 =
      some (parseAll args spec) ∧
    ∀ (η : Type) (command : String) (onError : OptionErrors)
      (handle : Next → Cursor → ShellM η (Option Outcome)) (finish : Cursor → ShellM η Outcome)
      (env : Environment η), ∃ outcome env',
        (rounds (optionRound command args spec onError handle finish)
          (charCount args + 1) c).run env = (some outcome, env') := by
  have hle : ∀ c, charsLeft args c < charCount args + 1 :=
    fun c => Nat.lt_succ_of_le (charsLeft_le args c)
  refine ⟨fun limit hh => checkedNext_eq hh spec c, next_advances rfl, ?_, ?_, ?_⟩
  · obtain ⟨found, last, hr, hd, hf⟩ := rounds_scanRound (hle c) []
    exact ⟨found, last, hr, hd, Nat.le_trans hf (charsLeft_le args c)⟩
  · rw [rounds_parseRound (hle {}), parseAll]
    rcases parseFrom args spec {} with e | r <;> rfl
  · intro η command onError handle finish env
    exact rounds_leave (goesOnBehind_optionRound handle finish) (hle c) env

/-- A cursor inside a character of another argument goes on with the next argument. -/
theorem stale_cursor_progresses :
    let args := ["cmd", "-éa", "-b"]
    let spec : OptionSpec := ⟨['a', 'b'], false, false⟩
    let c : Cursor := { index := 1, sub := 2 }
    Held (UInt64.size - 1) args ∧
      checkedNext (UInt64.size - 1) args spec c = .ok (.option 'b' false, { index := 3 }) ∧
      Advances args c { index := 3 } := by
  intro args spec c
  obtain ⟨hchecked, hadvances, -⟩ := reader_progresses args spec c
  have hheld : Held (UInt64.size - 1) args := ⟨by decide, by decide⟩
  have hn : next args spec c = (.option 'b' false, { index := 3 }) := by decide
  rw [hn] at hchecked hadvances
  exact ⟨hheld, hchecked _ hheld, hadvances nofun⟩

end ShellCore.Builtin
