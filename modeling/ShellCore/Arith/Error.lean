import ShellCore.Arith.Token
import ShellCore.Text.Escaped

/-! Why an evaluation fails, and where. -/

namespace ShellCore.Arith

/-- The cause of an error, in surroundings that refuse to give a variable with `ρ` and to take one
with `ω`. -/
inductive Cause (ρ ω : Type)
  | token (e : TokenError)
  /-- The value of a variable is not an expression. -/
  | invalidVariableValue (text : String)
  | unmatchedParenthesis
  /-- An operator lacks an operand. -/
  | missingOperand
  /-- Two operands have no operator between them. -/
  | malformedExpression
  | stackOverflow
  | nestingTooDeep
  | fault (f : Fault)
  | assignmentToValue
  | unreadable (e : ρ)
  | unassignable (e : ω)
  /-- The command that stands in for an expression failed. -/
  | commandSubstitution (message : String)
  deriving DecidableEq, Repr

namespace Cause

variable {ρ ω : Type}

/-- The text itself is at fault, and not what it computes. -/
def isSyntax : Cause ρ ω → Bool
  | .token _ | .unmatchedParenthesis | .missingOperand | .malformedExpression
  | .assignmentToValue => true
  | _ => false

def message (unreadable : ρ → String) (unassignable : ω → String) : Cause ρ ω → String
  | .token e => e.message
  | .invalidVariableValue text =>
    "variable value " ++ String.ofList (Text.escaped text.toList) ++ " is not a valid expression"
  | .unmatchedParenthesis => "missing matching parenthesis"
  | .missingOperand => "missing operand"
  | .malformedExpression => "malformed expression"
  | .stackOverflow => "expression too complex"
  | .nestingTooDeep => "expression nested too deeply"
  | .fault f => f.message
  | .assignmentToValue => "assignment to a non-variable"
  | .unreadable e => unreadable e
  | .unassignable e => unassignable e
  | .commandSubstitution text => "command substitution failed: " ++ text

end Cause

structure Error (ρ ω : Type) where
  cause : Cause ρ ω
  span : Span
  deriving DecidableEq, Repr

end ShellCore.Arith
