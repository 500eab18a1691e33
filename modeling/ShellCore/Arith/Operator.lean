import ShellCore.Arith.Constant

/-! Operators: how they are spelt, how tightly they bind, and what they compute. -/

namespace ShellCore.Arith

/-- Two-operand operators that only compute a value. -/
inductive Operation
  | bitOr | bitXor | bitAnd
  | equal | notEqual | less | lessEqual | greater | greaterEqual
  | shiftLeft | shiftRight
  | add | subtract | multiply | divide | remainder | power
  deriving DecidableEq, Repr

inductive BinaryOp
  | comma
  /-- Stores the right operand, or what the operation makes of the variable and it. -/
  | assign (compound : Option Operation)
  | logicalOr
  | logicalAnd
  | compute (op : Operation)
  deriving DecidableEq, Repr

inductive Step
  | increment
  | decrement
  deriving DecidableEq, Repr

inductive UnaryOp
  | plus | negate | logicalNot | complement
  /-- Changes a variable and yields its new value. -/
  | step (s : Step)
  deriving DecidableEq, Repr

inductive Operator
  | unary (op : UnaryOp)
  | binary (op : BinaryOp)
  deriving DecidableEq, Repr

/-- An operator as it is spelt, before its place tells what it means. -/
inductive Symbol
  | openParen
  | closeParen
  | step (s : Step)
  | unary (op : UnaryOp)
  | binary (op : BinaryOp)
  deriving DecidableEq, Repr

/-- What the symbol means where an operand is expected. -/
def Symbol.asUnary? : Symbol → Option UnaryOp
  | .binary (.compute .add) => some .plus
  | .binary (.compute .subtract) => some .negate
  | .step s => some (.step s)
  | .unary op => some op
  | _ => none

/-- What the symbol means after an operand. -/
def Symbol.asBinary? : Symbol → Option BinaryOp
  | .binary op => some op
  | _ => none

/-- Higher binds tighter. -/
def BinaryOp.precedence : BinaryOp → Nat
  | .comma => 1
  | .assign _ => 2
  | .logicalOr => 3
  | .logicalAnd => 4
  | .compute .bitOr => 5
  | .compute .bitXor => 6
  | .compute .bitAnd => 7
  | .compute .equal | .compute .notEqual => 8
  | .compute .less | .compute .lessEqual | .compute .greater | .compute .greaterEqual => 9
  | .compute .shiftLeft | .compute .shiftRight => 10
  | .compute .add | .compute .subtract => 11
  | .compute .multiply | .compute .divide | .compute .remainder => 12
  | .compute .power => 13

def Operator.precedence : Operator → Nat
  | .unary _ => 14
  | .binary op => op.precedence

def BinaryOp.groupsLeft : BinaryOp → Bool
  | .assign _ | .compute .power => false
  | _ => true

/-- The pending operator takes the operand between the two before the incoming one does. -/
def Operator.bindsBefore (pending : Operator) (incoming : BinaryOp) : Bool :=
  incoming.precedence < pending.precedence ||
    (incoming.precedence == pending.precedence && incoming.groupsLeft)

/-- Why an operation has no result. -/
inductive Fault
  | overflow
  | divisionByZero
  | negativeShift
  deriving DecidableEq, Repr

def Fault.message : Fault → String
  | .overflow => "overflow"
  | .divisionByZero => "division by zero"
  | .negativeShift => "negative shift count"

def checked (n : Int) : Except Fault Int64 :=
  match fit n with
  | some n => .ok n
  | none => .error .overflow

def ofTruth (b : Bool) : Int64 := if b then 1 else 0

def shiftCount (n : Int64) : Except Fault Int64 :=
  if n < 0 then .error .negativeShift
  else if n < 64 then .ok n
  else .error .overflow

/-- Bits that are shifted out do not come back when the shift is undone. -/
def checkedShiftLeft (a count : Int64) : Except Fault Int64 :=
  if (a <<< count) >>> count = a then .ok (a <<< count) else .error .overflow

/-- The accumulator times a power of the base, for an exponent of at most so many bits. The base is
squared each time that the exponent is halved, and the first product that does not fit ends it. -/
def raiseFrom : (bits : Nat) → (acc base : Int64) → (exponent : Nat) → Except Fault Int64
  | 0, acc, _, _ => .ok acc
  | bits + 1, acc, base, exponent =>
    if exponent = 0 then .ok acc
    else if exponent = 1 then checked (acc.toInt * base.toInt)
    else do
      let acc ← (if exponent % 2 = 1 then checked (acc.toInt * base.toInt) else .ok acc)
      let base ← checked (base.toInt * base.toInt)
      raiseFrom bits acc base (exponent / 2)

/-- A negative exponent gives zero. Powers with an exponent of more than 32 bits are not computed,
as only those of 0, 1 and -1 fit. -/
def raise (base exponent : Int64) : Except Fault Int64 :=
  if exponent < 0 then .ok 0
  else if exponent < 4294967296 then raiseFrom 32 1 base exponent.toInt.toNat
  else if base = 0 ∨ base = 1 then .ok base
  else if base = -1 then .ok (if exponent % 2 = 0 then 1 else -1)
  else .error .overflow

/-- Quotients are cut off toward zero and remainders take the sign of the left operand. -/
def Operation.apply (op : Operation) (a b : Int64) : Except Fault Int64 :=
  match op with
  | .bitOr => .ok (a ||| b)
  | .bitXor => .ok (a ^^^ b)
  | .bitAnd => .ok (a &&& b)
  | .equal => .ok (ofTruth (a == b))
  | .notEqual => .ok (ofTruth (a != b))
  | .less => .ok (ofTruth (a < b))
  | .lessEqual => .ok (ofTruth (a ≤ b))
  | .greater => .ok (ofTruth (b < a))
  | .greaterEqual => .ok (ofTruth (b ≤ a))
  | .shiftLeft => (shiftCount b).bind (checkedShiftLeft a)
  | .shiftRight => (shiftCount b).map (a >>> ·)
  | .add => checked (a.toInt + b.toInt)
  | .subtract => checked (a.toInt - b.toInt)
  | .multiply => checked (a.toInt * b.toInt)
  | .divide => if b = 0 then .error .divisionByZero else checked (a.toInt.tdiv b.toInt)
  | .remainder =>
    if b = 0 then .error .divisionByZero
    else (checked (a.toInt.tdiv b.toInt)).map fun _ => Int64.ofInt (a.toInt.tmod b.toInt)
  | .power => raise a b

def Step.apply (s : Step) (n : Int64) : Except Fault Int64 :=
  match s with
  | .increment => checked (n.toInt + 1)
  | .decrement => checked (n.toInt - 1)

/-- Every symbol under its spelling. A spelling stands before those that it starts with. -/
def Symbol.spellings : List (List Char × Symbol) :=
  [([','], .binary .comma),
    (['|', '='], .binary (.assign (some .bitOr))),
    (['|', '|'], .binary .logicalOr),
    (['|'], .binary (.compute .bitOr)),
    (['^', '='], .binary (.assign (some .bitXor))),
    (['^'], .binary (.compute .bitXor)),
    (['&', '='], .binary (.assign (some .bitAnd))),
    (['&', '&'], .binary .logicalAnd),
    (['&'], .binary (.compute .bitAnd)),
    (['=', '='], .binary (.compute .equal)),
    (['='], .binary (.assign none)),
    (['!', '='], .binary (.compute .notEqual)),
    (['<', '<', '='], .binary (.assign (some .shiftLeft))),
    (['<', '<'], .binary (.compute .shiftLeft)),
    (['<', '='], .binary (.compute .lessEqual)),
    (['<'], .binary (.compute .less)),
    (['>', '>', '='], .binary (.assign (some .shiftRight))),
    (['>', '>'], .binary (.compute .shiftRight)),
    (['>', '='], .binary (.compute .greaterEqual)),
    (['>'], .binary (.compute .greater)),
    (['+', '='], .binary (.assign (some .add))),
    (['+', '+'], .step .increment),
    (['+'], .binary (.compute .add)),
    (['-', '='], .binary (.assign (some .subtract))),
    (['-', '-'], .step .decrement),
    (['-'], .binary (.compute .subtract)),
    (['*', '*'], .binary (.compute .power)),
    (['*', '='], .binary (.assign (some .multiply))),
    (['*'], .binary (.compute .multiply)),
    (['/', '='], .binary (.assign (some .divide))),
    (['/'], .binary (.compute .divide)),
    (['%', '='], .binary (.assign (some .remainder))),
    (['%'], .binary (.compute .remainder)),
    (['~'], .unary .complement),
    (['!'], .unary .logicalNot),
    (['('], .openParen),
    ([')'], .closeParen)]

end ShellCore.Arith
