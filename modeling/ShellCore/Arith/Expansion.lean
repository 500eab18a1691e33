import ShellCore.Arith.Reduction

/-! Arithmetic expansion: the result of an expression as a value of the shell. -/

namespace ShellCore.Arith

open Text

inductive Value
  | integer (n : Int64)
  /-- The value of a variable that is not a number, or the output of a command. -/
  | text (s : String)
  deriving DecidableEq, Repr

namespace Value

def toText : Value → String
  | .integer n => Decimal.text n.toInt
  | .text s => s

/-- Zero is false; any other number and any text is true. -/
def exitStatus : Value → ExitStatus
  | .integer n => if n = 0 then .failure else .success
  | .text _ => .success

end Value

structure Limits where
  /-- How many items the operator stack and the operand stack may hold each. -/
  stackDepth : Nat := 64
  /-- How deep expressions may be nested, in brackets or as values of variables. -/
  nestingDepth : Nat := 32
  deriving DecidableEq, Repr

/-- Takes away `$((` and `))`, or `$[` and `]`, where these enclose the whole expression. -/
def withoutEnvelope (expression : List Char) : List Char :=
  match trim expression with
  | '$' :: '(' :: '(' :: inner =>
    match beforeParens? 0 inner with
    | some body => if body.length + 2 = inner.length then body else expression
    | none => expression
  | '$' :: '[' :: inner =>
    match beforeBracket? 0 inner with
    | some body => if body.length + 1 = inner.length then body else expression
    | none => expression
  | _ => expression

def hasCommandSubstitution : List Char → Bool
  | '$' :: '(' :: s => s.head? != some '(' || hasCommandSubstitution ('(' :: s)
  | _ :: s => hasCommandSubstitution s
  | [] => false

/-- The shell has to remove quotes or substitute commands before the text is an expression. -/
def needsWordExpansion (s : List Char) : Bool :=
  s.any (fun c => ['\x27', '"', '\x60', '\\'].contains c) || hasCommandSubstitution s

variable {σ ρ ω : Type} (access : Access σ ρ ω)

def frame (limits : Limits) (source : List Char) : Frame σ ρ ω :=
  ⟨access, limits.stackDepth, source, evaluateNested access limits.stackDepth limits.nestingDepth⟩

/-- A lone variable whose value is not a number yields its value as it is. -/
def Frame.result (f : Frame σ ρ ω) : Option Operand → EvalM σ ρ ω Value
  | none => pure (.integer 0)
  | some (.value n) => pure (.integer n)
  | some (.variable name span) => do
    let value := (← f.get name span).getD ""
    let text := trim value.toList
    if text.isEmpty || (constant? text).isSome then pure (.integer (← f.resolve name span))
    else pure (.text value)

def Frame.value (f : Frame σ ρ ω) : EvalM σ ρ ω Value := do f.result (← f.run)

def expandWords (body : List Char) : EvalM σ ρ ω (List Char) := do
  if needsWordExpansion body then
    match ← access.expandWord (String.ofList body) with
    | some text => pure text.toList
    | none => pure body
  else pure body

/-- Expands an expression. One with a stray character is run as a command instead, if the shell
can do that. A value sets the exit status; the output of a command does not. -/
def expandWithin (limits : Limits) (expression : String) : EvalM σ ρ ω Value := do
  let source ← expandWords access (withoutEnvelope expression.toList)
  match ← ExceptT.lift (frame access limits source).value.run with
  | .ok value =>
    access.setExitStatus value.exitStatus
    pure value
  | .error e =>
    match e.cause with
    | .token .strayCharacter =>
      match ← access.substituteCommand expression with
      | none => throw e
      | some (.ok output) => pure (.text output)
      | some (.error message) =>
        fail (.commandSubstitution message) ⟨0, byteLength expression.toList⟩
    | _ => throw e

def expand (expression : String) : EvalM σ ρ ω Value := expandWithin access {} expression

/-- The integer that a bare expression stands for. Neither the exit status nor commands are
involved. -/
def evaluateInteger (expression : String) : EvalM σ ρ ω Int64 :=
  (frame access {} expression.toList).integer

end ShellCore.Arith
