/-! Integers written in decimal. -/

namespace ShellCore.Decimal

def digit (d : Nat) : Char := Char.ofNat ('0'.toNat + d)

def ofNat (n : Nat) : List Char :=
  if n < 10 then [digit n] else ofNat (n / 10) ++ [digit (n % 10)]

def ofInt : Int → List Char
  | .ofNat n => ofNat n
  | .negSucc n => '-' :: ofNat (n + 1)

def natText (n : Nat) : String := String.ofList (ofNat n)

def text (n : Int) : String := String.ofList (ofInt n)

end ShellCore.Decimal
