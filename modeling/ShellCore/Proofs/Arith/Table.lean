import ShellCore.Arith.Reduction

/-! The operators in one table, by what they mean at their place. -/

namespace ShellCore.Arith

/-- Operators after their place has told what they mean. The number of a constructor is the index
of its row in the table. -/
inductive Tag
  | comma
  | assign | addAssign | subtractAssign | multiplyAssign | divideAssign | remainderAssign
  | shiftLeftAssign | shiftRightAssign | bitAndAssign | bitXorAssign | bitOrAssign
  | logicalOr | logicalAnd
  | bitOr | bitXor | bitAnd
  | equal | notEqual | less | lessEqual | greater | greaterEqual
  | shiftLeft | shiftRight
  | add | subtract | multiply | divide | remainder | power
  | plus | negate | logicalNot | bitNot
  | preIncrement | preDecrement | postIncrement | postDecrement
  | openParen
  deriving DecidableEq, Repr

inductive Arity
  | unary
  | binary
  deriving DecidableEq, Repr

structure Row where
  tag : Tag
  /-- Higher binds tighter. -/
  precedence : Nat
  groupsLeft : Bool
  arity : Arity
  deriving DecidableEq, Repr

namespace Row

def binary (tag : Tag) (precedence : Nat) : Row := ⟨tag, precedence, true, .binary⟩

def assignment (tag : Tag) : Row := ⟨tag, 2, false, .binary⟩

def unary (tag : Tag) : Row := ⟨tag, 14, false, .unary⟩

/-- Steps after their variable are applied at once, so that nothing is compared with their
precedence. -/
def suffix (tag : Tag) : Row := ⟨tag, 15, true, .unary⟩

end Row

/-- An open parenthesis binds less than all operators, so that none takes it off the stack. -/
def table : List Row :=
  [.binary .comma 1, .assignment .assign, .assignment .addAssign, .assignment .subtractAssign,
    .assignment .multiplyAssign, .assignment .divideAssign, .assignment .remainderAssign,
    .assignment .shiftLeftAssign, .assignment .shiftRightAssign, .assignment .bitAndAssign,
    .assignment .bitXorAssign, .assignment .bitOrAssign, .binary .logicalOr 3,
    .binary .logicalAnd 4, .binary .bitOr 5, .binary .bitXor 6, .binary .bitAnd 7,
    .binary .equal 8, .binary .notEqual 8, .binary .less 9, .binary .lessEqual 9,
    .binary .greater 9, .binary .greaterEqual 9, .binary .shiftLeft 10, .binary .shiftRight 10,
    .binary .add 11, .binary .subtract 11, .binary .multiply 12, .binary .divide 12,
    .binary .remainder 12, ⟨.power, 13, false, .binary⟩, .unary .plus, .unary .negate,
    .unary .logicalNot, .unary .bitNot, .unary .preIncrement, .unary .preDecrement,
    .suffix .postIncrement, .suffix .postDecrement, ⟨.openParen, 0, true, .unary⟩]

namespace Tag

/-- The row at the index of the tag, if the table has one and it is about the tag. -/
def row? (t : Tag) : Option Row := table[t.ctorIdx]?.filter (·.tag = t)

/-- What an operator with two operands and no effect computes. -/
def operation? : Tag → Option Operation
  | .bitOr => some .bitOr
  | .bitXor => some .bitXor
  | .bitAnd => some .bitAnd
  | .equal => some .equal
  | .notEqual => some .notEqual
  | .less => some .less
  | .lessEqual => some .lessEqual
  | .greater => some .greater
  | .greaterEqual => some .greaterEqual
  | .shiftLeft => some .shiftLeft
  | .shiftRight => some .shiftRight
  | .add => some .add
  | .subtract => some .subtract
  | .multiply => some .multiply
  | .divide => some .divide
  | .remainder => some .remainder
  | .power => some .power
  | _ => none

/-- The operator that a compound assignment applies before it stores. -/
def compoundBase? : Tag → Option Tag
  | .addAssign => some .add
  | .subtractAssign => some .subtract
  | .multiplyAssign => some .multiply
  | .divideAssign => some .divide
  | .remainderAssign => some .remainder
  | .shiftLeftAssign => some .shiftLeft
  | .shiftRightAssign => some .shiftRight
  | .bitAndAssign => some .bitAnd
  | .bitXorAssign => some .bitXor
  | .bitOrAssign => some .bitOr
  | _ => none

/-- The operator on the stack that the tag stands for. -/
def operator? (t : Tag) : Option Operator :=
  match t with
  | .comma => some (.binary .comma)
  | .logicalOr => some (.binary .logicalOr)
  | .logicalAnd => some (.binary .logicalAnd)
  | .assign => some (.binary (.assign none))
  | .plus => some (.unary .plus)
  | .negate => some (.unary .negate)
  | .logicalNot => some (.unary .logicalNot)
  | .bitNot => some (.unary .complement)
  | .preIncrement => some (.unary (.step .increment))
  | .preDecrement => some (.unary (.step .decrement))
  | .postIncrement | .postDecrement | .openParen => none
  | t =>
    match t.compoundBase? with
    | some base => base.operation?.map fun op => .binary (.assign (some op))
    | none => t.operation?.map fun op => .binary (.compute op)

end Tag

namespace Symbol

/-- The tag of the symbol where an operand is expected. -/
def prefixTag? : Symbol → Option Tag
  | .binary (.compute .add) => some .plus
  | .binary (.compute .subtract) => some .negate
  | .unary .logicalNot => some .logicalNot
  | .unary .complement => some .bitNot
  | .step .increment => some .preIncrement
  | .step .decrement => some .preDecrement
  | .openParen => some .openParen
  | _ => none

/-- The tag of the symbol after an operand. -/
def binaryTag? : Symbol → Option Tag
  | .binary .comma => some .comma
  | .binary (.assign none) => some .assign
  | .binary (.assign (some .add)) => some .addAssign
  | .binary (.assign (some .subtract)) => some .subtractAssign
  | .binary (.assign (some .multiply)) => some .multiplyAssign
  | .binary (.assign (some .divide)) => some .divideAssign
  | .binary (.assign (some .remainder)) => some .remainderAssign
  | .binary (.assign (some .shiftLeft)) => some .shiftLeftAssign
  | .binary (.assign (some .shiftRight)) => some .shiftRightAssign
  | .binary (.assign (some .bitAnd)) => some .bitAndAssign
  | .binary (.assign (some .bitXor)) => some .bitXorAssign
  | .binary (.assign (some .bitOr)) => some .bitOrAssign
  | .binary .logicalOr => some .logicalOr
  | .binary .logicalAnd => some .logicalAnd
  | .binary (.compute .bitOr) => some .bitOr
  | .binary (.compute .bitXor) => some .bitXor
  | .binary (.compute .bitAnd) => some .bitAnd
  | .binary (.compute .equal) => some .equal
  | .binary (.compute .notEqual) => some .notEqual
  | .binary (.compute .less) => some .less
  | .binary (.compute .lessEqual) => some .lessEqual
  | .binary (.compute .greater) => some .greater
  | .binary (.compute .greaterEqual) => some .greaterEqual
  | .binary (.compute .shiftLeft) => some .shiftLeft
  | .binary (.compute .shiftRight) => some .shiftRight
  | .binary (.compute .add) => some .add
  | .binary (.compute .subtract) => some .subtract
  | .binary (.compute .multiply) => some .multiply
  | .binary (.compute .divide) => some .divide
  | .binary (.compute .remainder) => some .remainder
  | .binary (.compute .power) => some .power
  | _ => none

end Symbol

/-- The row says of its operator what is to be known of it on the stack. -/
structure Row.Describes (row : Row) (op : Operator) : Prop where
  precedence : row.precedence = op.precedence
  arity : row.arity = match op with
    | .unary _ => .unary
    | .binary _ => .binary
  groupsLeft : ∀ b, op = .binary b → row.groupsLeft = b.groupsLeft

namespace Tag

variable {t : Tag} {op : Operator} {compound : Option Operation} {o : Operation}

theorem exists_row (h : t.operator? = some op) : ∃ row, t.row? = some row ∧ row.Describes op := by
  cases t <;> cases h <;> refine ⟨_, rfl, rfl, rfl, ?_⟩ <;> rintro b ⟨⟩ <;> rfl

theorem row?_openParen : ∃ row, openParen.row? = some row ∧ row.precedence = 0 := ⟨_, rfl, rfl⟩

theorem operation?_of_compute (h : t.operator? = some (.binary (.compute o))) :
    t.operation? = some o := by
  cases t <;> cases h <;> rfl

/-- A compound assignment computes what its base does. -/
theorem compoundBase?_of_assign (h : t.operator? = some (.binary (.assign compound))) :
    t.compoundBase?.map operation? = compound.map some := by
  cases t <;> cases h <;> rfl

end Tag

namespace Symbol

variable {l : List Char} {s : Symbol}

/-- What is spelt has a tag exactly if it has a meaning, and the tag has that meaning. -/
theorem prefixTag?_eq (h : (l, s) ∈ spellings) (hs : s ≠ .openParen) :
    s.prefixTag?.map Tag.operator? = s.asUnary?.map fun op => some (.unary op) := by
  have hall : ∀ p ∈ spellings, p.2 ≠ .openParen →
      p.2.prefixTag?.map Tag.operator? = p.2.asUnary?.map fun op => some (.unary op) := by
    decide
  exact hall _ h hs

theorem binaryTag?_eq (h : (l, s) ∈ spellings) :
    s.binaryTag?.map Tag.operator? = s.asBinary?.map fun op => some (.binary op) := by
  have hall : ∀ p ∈ spellings,
      p.2.binaryTag?.map Tag.operator? = p.2.asBinary?.map fun op => some (.binary op) := by
    decide
  exact hall _ h

end Symbol

end ShellCore.Arith
