import ShellCore.Decimal

/-! Integer constants: decimal, octal, hexadecimal, binary, and `base#digits`. -/

namespace ShellCore.Arith

/-- The integer as a machine word, if it fits. -/
def fit (n : Int) : Option Int64 :=
  if Int64.minValue.toInt ≤ n ∧ n ≤ Int64.maxValue.toInt then some (Int64.ofInt n) else none

/-- Up to base 36 the case of a letter does not matter. -/
def digitValue? (base : Nat) (c : Char) : Option Nat :=
  let n := c.toNat
  let v? :=
    if '0' ≤ c ∧ c ≤ '9' then some (n - '0'.toNat)
    else if 'a' ≤ c ∧ c ≤ 'z' then some (n - 'a'.toNat + 10)
    else if 'A' ≤ c ∧ c ≤ 'Z' then some (n - 'A'.toNat + if base ≤ 36 then 10 else 36)
    else if c = '@' then some 62
    else if c = '_' then some 63
    else none
  v?.filter (· < base)

/-- The number that the digits stand for when `high` stands to the left of them. -/
def readDigitsAfter? (base : Nat) (high : Nat) : List Char → Option Nat
  | [] => some high
  | c :: s =>
    match digitValue? base c with
    | some d => readDigitsAfter? base (high * base + d) s
    | none => none

def readDigits? (base : Nat) (s : List Char) : Option Nat :=
  if s.isEmpty then none else readDigitsAfter? base 0 s

/-- The same in a machine word: the first product or sum on the way that does not fit ends it. -/
def readWordAfter? (base : Nat) (high : Int64) : List Char → Option Int64
  | [] => some high
  | c :: s =>
    match digitValue? base c with
    | some d => do
      let shifted ← fit (high.toInt * base)
      let high ← fit (shifted.toInt + d)
      readWordAfter? base high s
    | none => none

/-- The value of a constant without a sign whose base shows in how it starts, of whatever size. -/
def magnitude? : List Char → Option Nat
  | '0' :: 'x' :: digits => readDigits? 16 digits
  | '0' :: 'X' :: digits => readDigits? 16 digits
  | '0' :: 'b' :: digits => readDigits? 2 digits
  | '0' :: 'B' :: digits => readDigits? 2 digits
  | '0' :: c :: digits => readDigits? 8 (c :: digits)
  | s => readDigits? 10 s

def unsigned? (s : List Char) : Option Int64 :=
  match s.dropWhile (· != '#') with
  | _ :: digits =>
    if digits.isEmpty then none
    else match readDigits? 10 (s.takeWhile (· != '#')) with
      | some base => if 2 ≤ base ∧ base ≤ 64 then readWordAfter? base 0 digits else none
      | none => none
  | [] => (magnitude? s).bind fun n => fit n

/-- Reads a constant with an optional sign. The magnitude has to fit by itself, so the least
integer has no constant. -/
def constant? (s : List Char) : Option Int64 :=
  match s with
  | '-' :: s => (unsigned? s).map (-·)
  | '+' :: s => unsigned? s
  | s => unsigned? s

end ShellCore.Arith
