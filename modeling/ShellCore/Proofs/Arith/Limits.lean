import ShellCore.Arith.Bindings
import ShellCore.Proofs.Arith.Recording

/-! Limits only ever refuse: a larger one changes nothing about an evaluation that the smaller one
lets end. -/

namespace ShellCore.Arith

open Comparison

variable {σ ρ ω α : Type}

/-- The evaluation has come upon a limit. -/
def IsLimit (c : Cause ρ ω) : Prop := c = .stackOverflow ∨ c = .nestingTooDeep

/-- The result is that a limit has been exceeded. -/
def Refused (r : Except (Error ρ ω) α) : Prop := ∃ e, r = .error e ∧ IsLimit e.cause

theorem not_isSyntax_of_isLimit (c : Cause ρ ω) (h : IsLimit c) : c.isSyntax = false := by
  rcases h with rfl | rfl <;> rfl

/-- The same surroundings twice. Where the first evaluation comes upon a limit, nothing is said
about the second one. -/
def relaxing : Comparison σ σ ρ ρ ω ω := .ofStates Eq IsLimit not_isSyntax_of_isLimit

theorem accesses_relaxing (a : Access σ ρ ω) : (relaxing (ρ := ρ) (ω := ω)).Accesses a a where
  get := by
    rintro name s _ rfl
    exact ⟨(mapError_id _).symm, rfl⟩
  assign := by
    rintro name value span _ rfl s _ rfl
    exact ⟨(mapError_id _).symm, rfl⟩
  expandWord := by
    rintro text s _ rfl
    exact ⟨rfl, rfl⟩
  substituteCommand := by
    rintro text s _ rfl
    exact ⟨rfl, rfl⟩
  setExitStatus := by
    rintro status s _ rfl
    rfl

theorem refused_or_outcome_eq (a : Access σ ρ ω) {limits limits' : Limits}
    (hd : limits.stackDepth ≤ limits'.stackDepth)
    (hn : limits.nestingDepth ≤ limits'.nestingDepth) (expression : String) (s : σ) :
    Refused (outcome (expandWithin a limits expression) s).1 ∨
      outcome (expandWithin a limits' expression) s =
        outcome (expandWithin a limits expression) s := by
  have hr := (accesses_relaxing a).expandWithin (.inr ⟨.inl rfl, hd⟩) (.inr ⟨.inr rfl, hn⟩)
    expression s s rfl
  rcases excused_or_eq_of_ends hr with he | ⟨hv, hs⟩
  · exact .inl he
  · exact .inr (Prod.ext hv hs.symm)

/-- Unless a limit is exceeded, larger limits lead to the same value or the same error, through the
same calls in the same order, and leave the same state. -/
theorem expandWithin_of_limits_le (a : Access σ ρ ω) {limits limits' : Limits}
    (hd : limits.stackDepth ≤ limits'.stackDepth)
    (hn : limits.nestingDepth ≤ limits'.nestingDepth) (expression : String) (s : σ)
    (hr : ¬ Refused (outcome (expandWithin a limits expression) s).1) :
    outcome (expandWithin a limits' expression) s = outcome (expandWithin a limits expression) s ∧
      calls a limits' expression s = calls a limits expression s := by
  refine ⟨(refused_or_outcome_eq a hd hn expression s).resolve_left hr, ?_⟩
  have hr' : ¬ Refused (outcome (expandWithin a.recorded limits expression) (s, [])).1 := by
    rwa [(outcome_recorded a limits expression s []).1]
  have ho := (refused_or_outcome_eq a.recorded hd hn expression (s, [])).resolve_left hr'
  exact congrArg (·.2.2) ho

/-- `x` is an expression itself, which takes the one level that there is. -/
theorem nested_variable_of_limits_le :
    let vars : Bindings := .ofList [("x", "y * 2"), ("y", "3")]
    let r := outcome (expandWithin Bindings.access {} "z = x + (1 << 2)") vars
    r.1 = .ok (.integer 10) ∧ r.2.get? "z" = some "10" ∧
      calls Bindings.access {} "z = x + (1 << 2)" vars =
        calls Bindings.access ⟨4, 1⟩ "z = x + (1 << 2)" vars := by
  intro vars r
  have hv : (outcome (expandWithin Bindings.access ⟨4, 1⟩ "z = x + (1 << 2)") vars).1 =
      .ok (.integer 10) := by decide +kernel
  have hz : (outcome (expandWithin Bindings.access ⟨4, 1⟩ "z = x + (1 << 2)") vars).2.get? "z" =
      some "10" := by decide +kernel
  have hr : ¬ Refused
      (outcome (expandWithin Bindings.access ⟨4, 1⟩ "z = x + (1 << 2)") vars).1 := by
    rw [hv]
    rintro ⟨e, he, -⟩
    cases he
  have hd : (⟨4, 1⟩ : Limits).stackDepth ≤ ({} : Limits).stackDepth := by decide
  have hn : (⟨4, 1⟩ : Limits).nestingDepth ≤ ({} : Limits).nestingDepth := by decide
  obtain ⟨ho, hc⟩ := expandWithin_of_limits_le Bindings.access hd hn "z = x + (1 << 2)" vars hr
  exact ⟨(congrArg (·.1) ho).trans hv, (congrArg (·.2.get? "z") ho).trans hz, hc⟩

end ShellCore.Arith
