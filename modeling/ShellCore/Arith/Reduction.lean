import ShellCore.Arith.Access

/-! Evaluation with a stack of operators and a stack of operands. -/

namespace ShellCore.Arith

open Text

inductive Operand
  | value (n : Int64)
  /-- A variable that has not been read yet. -/
  | variable (name : String) (span : Span)
  deriving DecidableEq, Repr

/-- What waits on the operator stack. `skip` tells that the item stands in an operand that is
not evaluated. -/
inductive Pending
  | paren (span : Span) (skip : Bool)
  | operator (op : Operator) (span : Span) (skip : Bool)
  deriving DecidableEq, Repr

def Pending.span : Pending → Span
  | .paren span _ | .operator _ span _ => span

def Pending.skip : Pending → Bool
  | .paren _ skip | .operator _ _ skip => skip

/-- The state of reading an expression. -/
structure Machine where
  pending : List Pending := []
  operands : List Operand := []
  /-- Operators read now stand in an operand that is not evaluated. -/
  skip : Bool := false
  expectsOperand : Bool := true
  deriving DecidableEq, Repr

/-- What stays the same while one expression is read. -/
structure Frame (σ ρ ω : Type) where
  access : Access σ ρ ω
  /-- How many items either stack may hold. -/
  stackDepth : Nat
  source : List Char
  /-- Evaluates an expression one level deeper, if there is a level left. -/
  inner : Option (List Char → EvalM σ ρ ω Int64)

namespace Frame

variable {σ ρ ω : Type} (f : Frame σ ρ ω)

def get (name : String) (span : Span) : EvalM σ ρ ω (Option String) := do
  match ← f.access.get name with
  | .ok value => pure value
  | .error e => fail (.unreadable e) span

def assign (name : String) (n : Int64) (span : Span) : EvalM σ ρ ω Unit := do
  match ← f.access.assign name (Decimal.text n.toInt) span with
  | .ok () => pure ()
  | .error e => fail (.unassignable e) span

/-- Evaluates an expression found at the span. `locate` says how its errors look from outside. -/
def descend (body : List Char) (span : Span) (locate : Error ρ ω → Error ρ ω) :
    EvalM σ ρ ω Int64 :=
  match f.inner with
  | some evaluate => ExceptT.adapt locate (evaluate body)
  | none => fail .nestingTooDeep span

/-- An error in the value of a variable is reported where the variable stands. -/
def blameVariable (text : List Char) (span : Span) (e : Error ρ ω) : Error ρ ω :=
  ⟨if e.cause.isSyntax then .invalidVariableValue (String.ofList text) else e.cause, span⟩

/-- The integer that a variable stands for: none and a blank value count as zero, and a value that
is no constant is evaluated. -/
def resolve (name : String) (span : Span) : EvalM σ ρ ω Int64 := do
  match ← f.get name span with
  | none => pure 0
  | some value =>
    let text := trim value.toList
    if text.isEmpty then pure 0
    else match constant? text with
      | some n => pure n
      | none => f.descend text span (blameVariable text span)

def valueOf : Operand → EvalM σ ρ ω Int64
  | .value n => pure n
  | .variable name span => f.resolve name span

/-- Changes a variable and yields its values before and after. -/
def applyStep (s : Step) (operand : Operand) (span : Span) : EvalM σ ρ ω (Int64 × Int64) := do
  match operand with
  | .value _ => fail .assignmentToValue span
  | .variable name place =>
    let old ← f.resolve name place
    let new ← orFault span (s.apply old)
    f.assign name new place
    pure (old, new)

def applyUnary (op : UnaryOp) (operand : Operand) (span : Span) : EvalM σ ρ ω Int64 := do
  match op with
  | .plus => f.valueOf operand
  | .negate => orFault span (checked (-(← f.valueOf operand).toInt))
  | .logicalNot => pure (ofTruth ((← f.valueOf operand) == 0))
  | .complement => pure (~~~(← f.valueOf operand))
  | .step s => pure (← f.applyStep s operand span).2

def applyBinary (op : BinaryOp) (lhs rhs : Operand) (span : Span) : EvalM σ ρ ω Int64 := do
  match op with
  | .comma => f.valueOf rhs
  | .logicalAnd =>
    if (← f.valueOf lhs) = 0 then pure 0 else pure (ofTruth ((← f.valueOf rhs) != 0))
  | .logicalOr =>
    if (← f.valueOf lhs) = 0 then pure (ofTruth ((← f.valueOf rhs) != 0)) else pure 1
  | .assign compound =>
    match lhs with
    | .value _ => fail .assignmentToValue span
    | .variable name place =>
      let n ← f.valueOf rhs
      let n ← match compound with
        | none => pure n
        | some op => orFault span (op.apply (← f.resolve name place) n)
      f.assign name n place
      pure n
  | .compute op =>
    let a ← f.valueOf lhs
    let b ← f.valueOf rhs
    orFault span (op.apply a b)

/-- Takes the top operand, which an operator at the span needs. -/
def popOperand (m : Machine) (span : Span) : EvalM σ ρ ω (Operand × Machine) :=
  match m.operands with
  | operand :: operands => pure (operand, { m with operands })
  | [] => fail .missingOperand span

/-- Whether operands after the operator are skipped, once it has been applied. Only `&&` and `||`
start skipping, so they end it. -/
def skipAfter (op : Operator) (skip : Bool) (m : Machine) : Bool :=
  match op with
  | .binary .logicalAnd | .binary .logicalOr => skip
  | _ => m.skip

/-- Applies an operator to the operands on the stack. In a skipped operand all values are zero. -/
def apply (op : Operator) (span : Span) (skip : Bool) (m : Machine) : EvalM σ ρ ω Machine := do
  let (result, m) ← match op with
    | .unary op => do
      let (operand, m) ← popOperand m span
      pure (← if skip then pure 0 else f.applyUnary op operand span, m)
    | .binary op => do
      let (rhs, m) ← popOperand m span
      let (lhs, m) ← popOperand m span
      pure (← if skip then pure 0 else f.applyBinary op lhs rhs span, m)
  pure { m with operands := .value result :: m.operands, skip := skipAfter op skip m }

/-- Applies operators from the top of the stack, down to an open parenthesis or to the first one
that is not `ready`. -/
def reduce (ready : Operator → Bool) (m : Machine) : List Pending → EvalM σ ρ ω Machine
  | [] => pure { m with pending := [] }
  | .paren span skip :: rest => pure { m with pending := .paren span skip :: rest }
  | .operator op span skip :: rest =>
    if ready op then do reduce ready (← f.apply op span skip m) rest
    else pure { m with pending := .operator op span skip :: rest }

def pushOperand (m : Machine) (operand : Operand) (span : Span) : EvalM σ ρ ω Machine :=
  if !m.expectsOperand then fail .malformedExpression span
  else if f.stackDepth ≤ m.operands.length then fail .stackOverflow span
  else pure { m with operands := operand :: m.operands, expectsOperand := false }

def pushPending (m : Machine) (item : Pending) : EvalM σ ρ ω Machine :=
  if f.stackDepth ≤ m.pending.length then fail .stackOverflow item.span
  else pure { m with pending := item :: m.pending, expectsOperand := true }

/-- Reads the top operand at once, which leaves its value in its place. -/
def resolveTop (m : Machine) (span : Span) : EvalM σ ρ ω (Int64 × Machine) := do
  let (operand, m) ← popOperand m span
  let n ← if m.skip then pure 0 else f.valueOf operand
  pure (n, { m with operands := .value n :: m.operands })

/-- Whether the left operand alone decides the result, which is then known, and the machine after
the left operand has been read if it may do so. -/
def settle (op : BinaryOp) (m : Machine) (span : Span) : EvalM σ ρ ω (Bool × Machine) := do
  match op with
  | .logicalAnd =>
    let (n, m) ← f.resolveTop m span
    pure (n == 0, m)
  | .logicalOr =>
    let (n, m) ← f.resolveTop m span
    pure (n != 0, m)
  | _ => pure (false, m)

def closeParen (m : Machine) (span : Span) : EvalM σ ρ ω Machine := do
  if m.expectsOperand then fail .missingOperand span
  else
    let m ← f.reduce (fun _ => true) m m.pending
    match m.pending with
    | _ :: rest => pure { m with pending := rest }
    | [] => fail .unmatchedParenthesis span

def readUnary (m : Machine) (s : Symbol) (span : Span) : EvalM σ ρ ω Machine :=
  match s with
  | .openParen => f.pushPending m (.paren span m.skip)
  | s =>
    match s.asUnary? with
    | some op => f.pushPending m (.operator (.unary op) span m.skip)
    | none => fail .missingOperand span

def readBinary (m : Machine) (s : Symbol) (span : Span) : EvalM σ ρ ω Machine :=
  match s.asBinary? with
  | some op => do
    let m ← f.reduce (·.bindsBefore op) m m.pending
    let (decided, m) ← f.settle op m span
    let m ← f.pushPending m (.operator (.binary op) span m.skip)
    pure { m with skip := m.skip || decided }
  | none => fail .malformedExpression span

/-- A step after its variable yields the value before the change. -/
def readPostfix (m : Machine) (s : Step) (span : Span) : EvalM σ ρ ω Machine := do
  let (operand, m) ← popOperand m span
  let n ← if m.skip then pure 0 else do pure (← f.applyStep s operand span).1
  pure { m with operands := .value n :: m.operands }

def readSymbol (m : Machine) (s : Symbol) (span : Span) : EvalM σ ρ ω Machine :=
  match s with
  | .closeParen => f.closeParen m span
  | s =>
    if m.expectsOperand then f.readUnary m s span
    else match s with
      | .step step =>
        if endsWithName (takeBytes span.start f.source) then f.readPostfix m step span
        else f.readBinary m s span
      | s => f.readBinary m s span

def read (m : Machine) (t : Token) : EvalM σ ρ ω Machine := do
  match t.value with
  | .constant n => f.pushOperand m (.value n) t.span
  | .variable name => f.pushOperand m (.variable name t.span) t.span
  | .nested body opening =>
    let n ← if m.skip then pure 0
      else f.descend body t.span fun e => ⟨e.cause, e.span.shift (t.span.start + opening)⟩
    f.pushOperand m (.value n) t.span
  | .symbol s => f.readSymbol m s t.span

def readAll (m : Machine) : List Reading → EvalM σ ρ ω Machine
  | [] => pure m
  | .error (e, span) :: _ => fail (.token e) span
  | .ok t :: rest => do readAll (← f.read m t) rest

/-- The operand that is left when all has been read, or none if there was nothing to read. -/
def finish (m : Machine) : EvalM σ ρ ω (Option Operand) := do
  if m.expectsOperand then
    match m.pending with
    | [] => pure none
    | item :: _ => fail .missingOperand item.span
  else
    let m ← f.reduce (fun _ => true) m m.pending
    match m.pending, m.operands with
    | item :: _, _ => fail .unmatchedParenthesis item.span
    | [], [operand] => pure (some operand)
    | [], _ => fail .malformedExpression ⟨0, byteLength f.source⟩

def run : EvalM σ ρ ω (Option Operand) := do
  f.finish (← f.readAll {} (tokens f.source))

/-- The integer value of the source. A source without tokens is zero. -/
def integer : EvalM σ ρ ω Int64 := do
  match ← f.run with
  | none => pure 0
  | some operand => f.valueOf operand

end Frame

/-- Evaluates what is nested in an expression that has `levels` levels left. -/
def evaluateNested {σ ρ ω : Type} (access : Access σ ρ ω) (stackDepth : Nat) :
    (levels : Nat) → Option (List Char → EvalM σ ρ ω Int64)
  | 0 => none
  | levels + 1 => some fun source =>
    Frame.integer ⟨access, stackDepth, source, evaluateNested access stackDepth levels⟩

end ShellCore.Arith
