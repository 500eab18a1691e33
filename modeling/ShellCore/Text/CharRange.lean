/-! Sets of characters listed as ranges of code points. -/

namespace ShellCore.Text

/-- The code points from `first` to `last`, both included. -/
structure CharRange where
  first : Nat
  last : Nat

def CharRange.holds (r : CharRange) (c : Char) : Bool := r.first ≤ c.toNat && c.toNat ≤ r.last

def inRanges (rs : List CharRange) (c : Char) : Bool := rs.any (·.holds c)

end ShellCore.Text
