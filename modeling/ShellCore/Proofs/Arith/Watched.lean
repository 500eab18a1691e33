import ShellCore.Arith.Expansion
import ShellCore.Proofs.Arith.Table

/-! Evaluation by the table of operators, watched: where it does what it should never do, it stops
and says so. -/

namespace ShellCore.Arith

open Text

/-- What should never happen. The program would panic, or report an error that is not there. -/
inductive Breach
  /-- The table has no row for the tag, or another one's. -/
  | misplacedRow (t : Tag)
  /-- An operator with one operand that none of the cases is about. -/
  | notUnary (t : Tag)
  /-- An operator that computes nothing. -/
  | notPure (t : Tag)
  | appliedParen
  /-- The stack is empty where an operator takes its operand. -/
  | noOperand
  /-- More than one operand is left at the end, or none. -/
  | leftover
  /-- The text is cut inside a character. -/
  | slice
  deriving DecidableEq, Repr

variable {σ ρ ω : Type}

/-- The same surroundings. Only where they refuse to give a variable, an evaluation may also end
in a breach. -/
def Access.watched (a : Access σ ρ ω) : Access σ (ρ ⊕ Breach) ω where
  get name := do return (← a.get name).mapError .inl
  assign := a.assign
  expandWord := a.expandWord
  substituteCommand := a.substituteCommand
  setExitStatus := a.setExitStatus

def breach {α : Type} (b : Breach) (span : Span) : EvalM σ (ρ ⊕ Breach) ω α :=
  fail (.unreadable (.inr b)) span

/-- What waits on the operator stack. -/
structure Tagged where
  tag : Tag
  span : Span
  skip : Bool
  deriving DecidableEq, Repr

/-- The state of reading an expression. -/
structure Stacks where
  waiting : List Tagged := []
  operands : List Operand := []
  skip : Bool := false
  expectsOperand : Bool := true
  deriving DecidableEq, Repr

namespace Tag

def row (t : Tag) (span : Span) : EvalM σ (ρ ⊕ Breach) ω Row :=
  match t.row? with
  | some row => pure row
  | none => breach (.misplacedRow t) span

def applyPure (t : Tag) (a b : Int64) (span : Span) : EvalM σ (ρ ⊕ Breach) ω Int64 :=
  match t.operation? with
  | some op => orFault span (op.apply a b)
  | none => breach (.notPure t) span

end Tag

namespace Watched

variable (f : Frame σ (ρ ⊕ Breach) ω)

def popOperand (c : Stacks) (span : Span) : EvalM σ (ρ ⊕ Breach) ω (Operand × Stacks) :=
  match c.operands with
  | operand :: operands => pure (operand, { c with operands })
  | [] => breach .noOperand span

def applyUnary (t : Tag) (operand : Operand) (span : Span) (skip : Bool) :
    EvalM σ (ρ ⊕ Breach) ω Int64 :=
  if skip then pure 0
  else match t with
    | .plus => f.applyUnary .plus operand span
    | .negate => f.applyUnary .negate operand span
    | .logicalNot => f.applyUnary .logicalNot operand span
    | .bitNot => f.applyUnary .complement operand span
    | .preIncrement => do return (← f.applyStep .increment operand span).2
    | .preDecrement => do return (← f.applyStep .decrement operand span).2
    | .postIncrement => do return (← f.applyStep .increment operand span).1
    | .postDecrement => do return (← f.applyStep .decrement operand span).1
    | t => breach (.notUnary t) span

def assign (t : Tag) (lhs rhs : Operand) (span : Span) : EvalM σ (ρ ⊕ Breach) ω Int64 := do
  match lhs with
  | .value _ => fail .assignmentToValue span
  | .variable name place =>
    let n ← f.valueOf rhs
    let n ← match t.compoundBase? with
      | none => pure n
      | some base => do base.applyPure (← f.resolve name place) n span
    f.assign name n place
    return n

/-- Applies an assignment, which is told by its precedence, or an operator without effect. -/
def applyOther (t : Tag) (lhs rhs : Operand) (span : Span) : EvalM σ (ρ ⊕ Breach) ω Int64 := do
  if (← t.row span).precedence = 2 then assign f t lhs rhs span
  else
    let a ← f.valueOf lhs
    let b ← f.valueOf rhs
    t.applyPure a b span

def applyBinary (t : Tag) (lhs rhs : Operand) (span : Span) (skip : Bool) :
    EvalM σ (ρ ⊕ Breach) ω Int64 :=
  if skip then pure 0
  else match t with
    | .comma => f.applyBinary .comma lhs rhs span
    | .logicalAnd => f.applyBinary .logicalAnd lhs rhs span
    | .logicalOr => f.applyBinary .logicalOr lhs rhs span
    | t => applyOther f t lhs rhs span

def apply (item : Tagged) (c : Stacks) : EvalM σ (ρ ⊕ Breach) ω Stacks := do
  if item.tag = .openParen then breach .appliedParen item.span
  let row ← item.tag.row item.span
  let (result, c) ← match row.arity with
    | .unary => do
      let (operand, c) ← popOperand c item.span
      pure (← applyUnary f item.tag operand item.span item.skip, c)
    | .binary => do
      let (rhs, c) ← popOperand c item.span
      let (lhs, c) ← popOperand c item.span
      pure (← applyBinary f item.tag lhs rhs item.span item.skip, c)
  let skip := if item.tag = .logicalAnd ∨ item.tag = .logicalOr then item.skip else c.skip
  return { c with operands := .value result :: c.operands, skip }

/-- Applies what is on top of the stack until it is empty or one stays. -/
def reduce (stays : Tagged → EvalM σ (ρ ⊕ Breach) ω Bool) (c : Stacks) :
    List Tagged → EvalM σ (ρ ⊕ Breach) ω Stacks
  | [] => return { c with waiting := [] }
  | item :: waiting => do
    if ← stays item then return { c with waiting := item :: waiting }
    else reduce stays (← apply f item { c with waiting }) waiting

/-- An open parenthesis ends the search for what is applied, as nothing else does. -/
def staysOpen (item : Tagged) : EvalM σ (ρ ⊕ Breach) ω Bool := return item.tag == .openParen

/-- An item stays where the incoming operator binds tighter. -/
def staysBelow (t : Tag) (span : Span) (item : Tagged) : EvalM σ (ρ ⊕ Breach) ω Bool := do
  let incoming ← t.row span
  let top ← item.tag.row item.span
  return !(incoming.precedence < top.precedence ||
    (top.precedence == incoming.precedence && incoming.groupsLeft))

def pushOperand (c : Stacks) (operand : Operand) (span : Span) : EvalM σ (ρ ⊕ Breach) ω Stacks :=
  if !c.expectsOperand then fail .malformedExpression span
  else if f.stackDepth ≤ c.operands.length then fail .stackOverflow span
  else return { c with operands := operand :: c.operands, expectsOperand := false }

def pushOperator (c : Stacks) (t : Tag) (span : Span) : EvalM σ (ρ ⊕ Breach) ω Stacks :=
  if f.stackDepth ≤ c.waiting.length then fail .stackOverflow span
  else return { c with waiting := ⟨t, span, c.skip⟩ :: c.waiting, expectsOperand := true }

def resolveTop (c : Stacks) (span : Span) : EvalM σ (ρ ⊕ Breach) ω (Int64 × Stacks) := do
  let (operand, c) ← popOperand c span
  let n ← if c.skip then pure 0 else f.valueOf operand
  return (n, { c with operands := .value n :: c.operands })

/-- Reads the left operand of an operator that may skip the right one, and tells whether it
does. -/
def settle (t : Tag) (c : Stacks) (span : Span) : EvalM σ (ρ ⊕ Breach) ω (Bool × Stacks) := do
  match t with
  | .logicalAnd =>
    let (n, c) ← resolveTop f c span
    return (n == 0, c)
  | .logicalOr =>
    let (n, c) ← resolveTop f c span
    return (n != 0, c)
  | _ => return (false, c)

def closeParen (c : Stacks) (span : Span) : EvalM σ (ρ ⊕ Breach) ω Stacks := do
  if c.expectsOperand then fail .missingOperand span
  else
    let c ← reduce f staysOpen c c.waiting
    match c.waiting with
    | _ :: waiting => return { c with waiting }
    | [] => fail .unmatchedParenthesis span

def readPrefix (c : Stacks) (s : Symbol) (span : Span) : EvalM σ (ρ ⊕ Breach) ω Stacks :=
  match s.prefixTag? with
  | some t => pushOperator f c t span
  | none => fail .missingOperand span

def readBinary (c : Stacks) (s : Symbol) (span : Span) : EvalM σ (ρ ⊕ Breach) ω Stacks :=
  match s.binaryTag? with
  | some t => do
    let c ← reduce f (staysBelow t span) c c.waiting
    let (decided, c) ← settle f t c span
    let c ← pushOperator f c t span
    return { c with skip := c.skip || decided }
  | none => fail .malformedExpression span

def readPostfix (c : Stacks) (t : Tag) (span : Span) : EvalM σ (ρ ⊕ Breach) ω Stacks := do
  let (operand, c) ← popOperand c span
  let result ← applyUnary f t operand span c.skip
  return { c with operands := .value result :: c.operands }

/-- Whether the text before the byte offset ends with a name. -/
def isPostfixPosition (index : Nat) : EvalM σ (ρ ⊕ Breach) ω Bool :=
  match dropBytes? index f.source with
  | some _ => return endsWithName (takeBytes index f.source)
  | none => breach .slice ⟨index, index⟩

def readSymbol (c : Stacks) (s : Symbol) (span : Span) : EvalM σ (ρ ⊕ Breach) ω Stacks := do
  match s with
  | .closeParen => closeParen f c span
  | s =>
    if c.expectsOperand then readPrefix f c s span
    else match s with
      | .step step =>
        if ← isPostfixPosition f span.start then
          match step with
          | .increment => readPostfix f c .postIncrement span
          | .decrement => readPostfix f c .postDecrement span
        else readBinary f c s span
      | s => readBinary f c s span

def read (c : Stacks) (t : Token) : EvalM σ (ρ ⊕ Breach) ω Stacks := do
  match t.value with
  | .constant n => pushOperand f c (.value n) t.span
  | .variable name => pushOperand f c (.variable name t.span) t.span
  | .nested body opening =>
    let n ← if c.skip then pure 0
      else f.descend body t.span fun e => ⟨e.cause, e.span.shift (t.span.start + opening)⟩
    pushOperand f c (.value n) t.span
  | .symbol s => readSymbol f c s t.span

def readAll (c : Stacks) : List Reading → EvalM σ (ρ ⊕ Breach) ω Stacks
  | [] => pure c
  | .error (e, span) :: _ => fail (.token e) span
  | .ok t :: rest => do readAll (← read f c t) rest

def finish (c : Stacks) : EvalM σ (ρ ⊕ Breach) ω (Option Operand) := do
  if c.expectsOperand then
    match c.waiting with
    | [] => return none
    | item :: _ => fail .missingOperand item.span
  else
    let c ← reduce f staysOpen c c.waiting
    match c.waiting, c.operands with
    | item :: _, _ => fail .unmatchedParenthesis item.span
    | [], [operand] => return some operand
    | [], _ => breach .leftover ⟨0, byteLength f.source⟩

def run : EvalM σ (ρ ⊕ Breach) ω (Option Operand) := do
  finish f (← readAll f {} (tokens f.source))

def integer : EvalM σ (ρ ⊕ Breach) ω Int64 := do
  match ← run f with
  | none => pure 0
  | some operand => f.valueOf operand

def value : EvalM σ (ρ ⊕ Breach) ω Value := do f.result (← run f)

/-- Evaluates what is nested in an expression, watched as well. -/
def nested (access : Access σ ρ ω) (stackDepth : Nat) :
    (levels : Nat) → Option (List Char → EvalM σ (ρ ⊕ Breach) ω Int64)
  | 0 => none
  | levels + 1 => some fun source =>
    integer ⟨access.watched, stackDepth, source, nested access stackDepth levels⟩

end Watched

end ShellCore.Arith
