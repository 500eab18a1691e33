import ShellCore.Arith.Expansion
import ShellCore.Proofs.Arith.Outcome

/-! What an expansion makes of the value of its text. -/

namespace ShellCore.Arith

open Text

variable {σ ρ ω : Type} {access : Access σ ρ ω} {limits : Limits} {expression : String}
  {source : List Char} {value : Value} {e : Error ρ ω} {n : Int64} {s s' t t' : σ}

/-- The text without quotes is always known, as it is the text itself if the shell cannot remove
them. -/
theorem exists_of_expandWords (access : Access σ ρ ω) (body : List Char) (s : σ) :
    ∃ source t, outcome (expandWords access body) s = (.ok source, t) := by
  unfold expandWords
  split
  · have hl : outcome (access.expandWord (String.ofList body) : EvalM σ ρ ω (Option String)) s =
        (.ok (access.expandWord (String.ofList body) s).1,
          (access.expandWord (String.ofList body) s).2) := rfl
    rw [outcome_bind, hl]
    rcases access.expandWord (String.ofList body) s with ⟨- | text, t⟩
    · exact ⟨_, _, rfl⟩
    · exact ⟨_, _, rfl⟩
  · exact ⟨_, _, rfl⟩

section Endings

variable (hw : outcome (expandWords access (withoutEnvelope expression.toList)) s = (.ok source, t))

include hw

/-- A value of the frame is the result of the expansion. -/
theorem outcome_expandWithin_of_ok
    (h : outcome (frame access limits source).value t = (.ok value, t')) :
    outcome (expandWithin access limits expression) s =
      (.ok value, (access.setExitStatus value.exitStatus t').2) := by
  have hl : (ExceptT.lift (frame access limits source).value.run :
      EvalM σ ρ ω (Except (Error ρ ω) Value)).run.run t = (.ok (.ok value), t') := run_lift h
  unfold outcome expandWithin
  rw [run_bind_of_ok hw, run_bind_of_ok hl]
  rfl

/-- Only an error at a stray character is not passed on. -/
theorem outcome_expandWithin_of_error
    (h : outcome (frame access limits source).value t = (.error e, t'))
    (hc : e.cause ≠ .token .strayCharacter) :
    outcome (expandWithin access limits expression) s = (.error e, t') := by
  have hl : (ExceptT.lift (frame access limits source).value.run :
      EvalM σ ρ ω (Except (Error ρ ω) Value)).run.run t = (.ok (.error e), t') := run_lift h
  unfold outcome expandWithin
  rw [run_bind_of_ok hw, run_bind_of_ok hl]
  dsimp only
  split
  · exact absurd ‹_› hc
  · rfl

/-- At a stray character it is up to the command that the expression may be. -/
theorem outcome_expandWithin_of_strayCharacter
    (h : outcome (frame access limits source).value t = (.error e, t'))
    (hc : e.cause = .token .strayCharacter) :
    outcome (expandWithin access limits expression) s =
      match access.substituteCommand expression t' with
      | (none, s') => (.error e, s')
      | (some (.ok output), s') => (.ok (.text output), s')
      | (some (.error message), s') =>
        (.error ⟨.commandSubstitution message, ⟨0, byteLength expression.toList⟩⟩, s') := by
  have hl : (ExceptT.lift (frame access limits source).value.run :
      EvalM σ ρ ω (Except (Error ρ ω) Value)).run.run t = (.ok (.error e), t') := run_lift h
  rcases hsub : access.substituteCommand expression t' with ⟨answer, s'⟩
  have hsub : (access.substituteCommand expression :
      EvalM σ ρ ω (Option (Except String String))).run.run t' = (.ok answer, s') := run_lift hsub
  unfold outcome expandWithin
  rw [run_bind_of_ok hw, run_bind_of_ok hl]
  dsimp only
  rw [hc]
  dsimp only
  rw [run_bind_of_ok hsub]
  rcases answer with - | message | output <;> rfl

theorem expand_of_value (h : outcome (frame access {} source).value t = (.ok (.integer n), t')) :
    (outcome (expand access expression) s).1 = .ok (.integer n) := by
  rw [expand, outcome_expandWithin_of_ok hw h]

/-- An expansion yields a number only if the frame does, as what a command puts out is text. -/
theorem exists_of_expand_integer
    (h : outcome (expand access expression) s = (.ok (.integer n), s')) :
    ∃ t', outcome (frame access {} source).value t = (.ok (.integer n), t') ∧
      (access.setExitStatus (Value.integer n).exitStatus t').2 = s' := by
  rw [expand] at h
  rcases hv : outcome (frame access {} source).value t with ⟨e | value, t'⟩
  · by_cases hc : e.cause = .token .strayCharacter
    · rw [outcome_expandWithin_of_strayCharacter hw hv hc] at h
      split at h <;> cases h
    · rw [outcome_expandWithin_of_error hw hv hc] at h
      cases h
  · rw [outcome_expandWithin_of_ok hw hv] at h
    cases h
    exact ⟨t', rfl, rfl⟩

end Endings

/-- An error is one of the text without envelope and quotes, unless a command failed in place of
the expression. -/
theorem exists_of_expandWithin_error
    (h : outcome (expandWithin access limits expression) s = (.error e, s'))
    (hc : ∀ message, e.cause ≠ .commandSubstitution message) :
    ∃ source t t',
      outcome (expandWords access (withoutEnvelope expression.toList)) s = (.ok source, t) ∧
      outcome (frame access limits source).value t = (.error e, t') := by
  obtain ⟨source, t, hw⟩ := exists_of_expandWords access (withoutEnvelope expression.toList) s
  refine ⟨source, t, ?_⟩
  rcases hv : outcome (frame access limits source).value t with ⟨e' | value, t'⟩
  · refine ⟨t', hw, ?_⟩
    by_cases hs : e'.cause = .token .strayCharacter
    · rw [outcome_expandWithin_of_strayCharacter hw hv hs] at h
      split at h
      · cases h
        rfl
      · cases h
      · cases h
        exact absurd rfl (hc _)
    · rw [outcome_expandWithin_of_error hw hv hs] at h
      cases h
      rfl
  · rw [outcome_expandWithin_of_ok hw hv] at h
    cases h

end ShellCore.Arith
