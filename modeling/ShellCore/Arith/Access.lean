import ShellCore.Arith.Error
import ShellCore.Status

/-! What an evaluation may ask of the shell around it. -/

namespace ShellCore.Arith

/-- Surroundings with state `σ` that refuse to give a variable with `ρ` and to take one with `ω`.
A refusal may change the state, too. -/
structure Access (σ ρ ω : Type) where
  /-- The value of a variable, if it has one. -/
  get : String → StateM σ (Except ρ (Option String))
  /-- Stores the value under the name that stands at the span. -/
  assign : String → String → Span → StateM σ (Except ω Unit)
  /-- The text without quotes and substitutions, if the shell can remove them. -/
  expandWord : String → StateM σ (Option String)
  /-- The output of the command or why it failed, if the shell can run one. -/
  substituteCommand : String → StateM σ (Option (Except String String))
  setExitStatus : ExitStatus → StateM σ Unit

/-- A computation that may fail and keeps what it changed before. -/
abbrev EvalM (σ ρ ω : Type) := ExceptT (Error ρ ω) (StateM σ)

variable {σ ρ ω : Type}

def fail {α : Type} (cause : Cause ρ ω) (span : Span) : EvalM σ ρ ω α := throw ⟨cause, span⟩

/-- The result of an operator that stands at the span. -/
def orFault {α : Type} (span : Span) : Except Fault α → EvalM σ ρ ω α
  | .ok a => pure a
  | .error f => fail (.fault f) span

end ShellCore.Arith
