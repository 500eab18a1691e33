import ShellCore.Arith.Expansion
import ShellCore.Proofs.Arith.Skipping

/-! Evaluations come to an end: each makes few moves, and no expression is nested too deep in it. -/

namespace ShellCore.Arith

variable {σ ρ ω : Type} {p p' : Point} {f : Frame σ ρ ω}

/-- Bounds the moves that can follow: each reads a token, or applies an operator that a token has
put on the stack. -/
def Point.rank (p : Point) : Nat := 2 * p.unread.length + p.machine.pending.length

theorem Moves.rank_lt (h : Moves p p') : p'.rank < p.rank := by
  unfold Point.rank
  cases h with
  | unary hd | binary hd =>
    obtain ⟨-, hp, -⟩ := Point.due?_eq_some_iff.mp hd
    simp [hp]
  | operand hd hu | stepped hd hu =>
    simp only [hu, Machine.hold, List.length_cons]
    omega
  | opening hd hu | sign hd hu | between hd hu =>
    simp only [hu, Machine.await, List.length_cons]
    omega
  | closing hd hu he hp =>
    simp only [hu, hp, List.length_cons]
    omega

/-- The points are those that an evaluation comes to by its first `n` moves. -/
structure Frame.Begins (f : Frame σ ρ ω) (n : Nat) (p : Nat → Point) (s : Nat → σ) : Prop where
  start : p 0 = ⟨{}, tokens f.source⟩
  move {i : Nat} (h : i < n) :
    outcome (f.move (p i)) (s i) = (.ok (.inl (p (i + 1))), s (i + 1))

namespace Frame.Begins

variable {n : Nat} {p : Nat → Point} {s : Nat → σ}

theorem passes (h : f.Begins n p s) {i : Nat} (hi : i ≤ n) : f.Passes (s 0) (p i) (s i) := by
  induction i with
  | zero =>
    rw [h.start]
    exact .start
  | succ i ih => exact (ih (Nat.le_of_succ_le hi)).move (h.move hi)

theorem rank_add_le (h : f.Begins n p s) {i : Nat} (hi : i ≤ n) :
    (p i).rank + i ≤ 2 * (tokens f.source).length := by
  induction i with
  | zero => simp [h.start, Point.rank]
  | succ i ih =>
    have hl := (h.passes (Nat.le_of_succ_le hi)).layered
    have hlt := (f.moves_of_yields hl.1 ⟨_, _, h.move hi⟩).rank_lt
    have hle := ih (Nat.le_of_succ_le hi)
    omega

theorem le_tokens (h : f.Begins n p s) : n ≤ 2 * (tokens f.source).length :=
  Nat.le_trans (Nat.le_add_left n _) (h.rank_add_le (Nat.le_refl n))

end Frame.Begins

section Contexts

variable (access : Access σ ρ ω) (limits : Limits)
  (evaluate : Nat → List Char → EvalM σ ρ ω Int64)

/-- An expression that is nested so many levels deep, where `evaluate` is how expressions at the
levels below are evaluated. The limit alone tells whether there is such a level. -/
def context (depth : Nat) (source : List Char) : Frame σ ρ ω :=
  ⟨access, limits.stackDepth, source,
    if limits.nestingDepth ≤ depth then none else some (evaluate (depth + 1))⟩

/-- Down to the deepest level that the limit allows, expressions are evaluated with those nested in
them evaluated in the same way. -/
def IsRecursive : Prop :=
  ∀ depth ≤ limits.nestingDepth, ∀ source,
    evaluate depth source = (context access limits evaluate depth source).integer

variable {access limits evaluate}

theorem exists_isRecursive (access : Access σ ρ ω) (limits : Limits) :
    ∃ evaluate, IsRecursive access limits evaluate := by
  refine ⟨fun depth source => Frame.integer ⟨access, limits.stackDepth, source,
    evaluateNested access limits.stackDepth (limits.nestingDepth - depth)⟩, ?_⟩
  intro depth _ source
  unfold context
  dsimp only
  by_cases hd : limits.nestingDepth ≤ depth
  · rw [if_pos hd, Nat.sub_eq_zero_of_le hd]
    rfl
  · obtain ⟨levels, hl⟩ : ∃ levels, limits.nestingDepth - depth = levels + 1 :=
      ⟨limits.nestingDepth - depth - 1, by omega⟩
    have hl' : limits.nestingDepth - (depth + 1) = levels := by omega
    rw [if_neg hd, hl, hl']
    rfl

/-- The levels that are left are what the depth leaves of the limit. -/
theorem evaluateNested_eq (h : IsRecursive access limits evaluate) {levels depth : Nat}
    (hd : depth + levels = limits.nestingDepth) :
    evaluateNested access limits.stackDepth levels =
      if limits.nestingDepth ≤ depth then none else some (evaluate (depth + 1)) := by
  induction levels generalizing depth with
  | zero => exact (if_pos (Nat.le_of_eq hd.symm)).symm
  | succ levels ih =>
    have hd' : depth + 1 + levels = limits.nestingDepth := by omega
    rw [if_neg (by omega), evaluateNested, ih hd']
    exact congrArg some (funext fun source => (h (depth + 1) (by omega) source).symm)

/-- Whatever is done with expressions at deeper levels, none is evaluated. -/
theorem frame_eq_context (h : IsRecursive access limits evaluate) (source : List Char) :
    frame access limits source = context access limits evaluate 0 source := by
  rw [frame, context, evaluateNested_eq h (Nat.zero_add _)]

end Contexts

end ShellCore.Arith
