/-! Parts of a text, given by byte offsets. -/

namespace ShellCore

/-- The bytes from `start` up to, not including, `stop`. -/
structure Span where
  start : Nat
  stop : Nat
  deriving DecidableEq, Repr

def Span.shift (s : Span) (n : Nat) : Span := ⟨s.start + n, s.stop + n⟩

@[simp] theorem Span.shift_zero (s : Span) : s.shift 0 = s := rfl

@[simp] theorem Span.shift_shift (s : Span) (m n : Nat) :
    (s.shift m).shift n = s.shift (m + n) := by
  simp [Span.shift, Nat.add_assoc]

end ShellCore
