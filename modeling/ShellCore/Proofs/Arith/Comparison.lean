import ShellCore.Arith.Expansion
import ShellCore.Proofs.Arith.Outcome

/-! Two computations side by side, in surroundings that correspond to each other. -/

namespace ShellCore.Arith

variable {σ σ' ρ ρ' ω ω' α α' β β' : Type}

namespace Cause

/-- The cause where refusals look otherwise. -/
def map (f : ρ → ρ') (g : ω → ω') : Cause ρ ω → Cause ρ' ω'
  | .token e => .token e
  | .invalidVariableValue text => .invalidVariableValue text
  | .unmatchedParenthesis => .unmatchedParenthesis
  | .missingOperand => .missingOperand
  | .malformedExpression => .malformedExpression
  | .stackOverflow => .stackOverflow
  | .nestingTooDeep => .nestingTooDeep
  | .fault f => .fault f
  | .assignmentToValue => .assignmentToValue
  | .unreadable e => .unreadable (f e)
  | .unassignable e => .unassignable (g e)
  | .commandSubstitution message => .commandSubstitution message

theorem isSyntax_map (f : ρ → ρ') (g : ω → ω') (c : Cause ρ ω) :
    (c.map f g).isSyntax = c.isSyntax := by
  cases c <;> rfl

end Cause

/-- What corresponds to what when an expression is evaluated in two kinds of surroundings. -/
structure Comparison (σ σ' ρ ρ' ω ω' : Type) where
  states : σ → σ' → Prop
  spans : Span → Span → Prop
  unreadable : ρ → ρ'
  unassignable : ω → ω'
  /-- Where the first evaluation ends so, nothing is said about the second one. -/
  excused : Cause ρ ω → Prop
  spans_refl (s : Span) : spans s s
  spans_shift {s s' t t' : Span} (h : spans s s') (ht : spans t t') (n : Nat) :
    spans (t.shift (s.start + n)) (t'.shift (s'.start + n))
  not_isSyntax {c : Cause ρ ω} (h : excused c) : c.isSyntax = false

namespace Comparison

variable (V : Comparison σ σ' ρ ρ' ω ω')

structure Errors (e : Error ρ ω) (e' : Error ρ' ω') : Prop where
  cause : e'.cause = e.cause.map V.unreadable V.unassignable
  span : V.spans e.span e'.span

/-- Both computations have ended alike, with results that are related. -/
inductive Ends (P : α → α' → Prop) :
    Except (Error ρ ω) α × σ → Except (Error ρ' ω') α' × σ' → Prop
  | ok {a : α} {a' : α'} {s : σ} {s' : σ'} (ha : P a a') (hs : V.states s s') :
    Ends P (.ok a, s) (.ok a', s')
  | error {e : Error ρ ω} {e' : Error ρ' ω'} {s : σ} {s' : σ'} (he : V.Errors e e')
    (hs : V.states s s') : Ends P (.error e, s) (.error e', s')
  | excused {e : Error ρ ω} {s : σ} {r' : Except (Error ρ' ω') α' × σ'}
    (h : V.excused e.cause) : Ends P (.error e, s) r'

/-- From corresponding states both computations end alike. -/
def Simulates (P : α → α' → Prop) (x : EvalM σ ρ ω α) (x' : EvalM σ' ρ' ω' α') : Prop :=
  ∀ s s', V.states s s' → V.Ends P (outcome x s) (outcome x' s')

/-- Errors that correspond look alike from outside, and an excuse stays one. -/
structure Locates (locate : Error ρ ω → Error ρ ω) (locate' : Error ρ' ω' → Error ρ' ω') :
    Prop where
  errors {e : Error ρ ω} {e' : Error ρ' ω'} (h : V.Errors e e') : V.Errors (locate e) (locate' e')
  excused {e : Error ρ ω} (h : V.excused e.cause) : V.excused (locate e).cause

variable {V} {P : α → α' → Prop} {Q : β → β' → Prop} {x : EvalM σ ρ ω α} {x' : EvalM σ' ρ' ω' α'}

namespace Simulates

theorem pure {a : α} {a' : α'} (h : P a a') : V.Simulates P (Pure.pure a) (Pure.pure a') :=
  fun _ _ hs => .ok h hs

theorem fail {c : Cause ρ ω} {c' : Cause ρ' ω'} {span span' : Span}
    (hc : c' = c.map V.unreadable V.unassignable) (hl : V.spans span span') :
    V.Simulates P (Arith.fail c span) (Arith.fail c' span') :=
  fun _ _ hs => .error ⟨hc, hl⟩ hs

theorem excused {c : Cause ρ ω} (h : V.excused c) (span : Span) (x' : EvalM σ' ρ' ω' α') :
    V.Simulates P (Arith.fail c span) x' :=
  fun _ _ _ => .excused h

theorem bind {k : α → EvalM σ ρ ω β} {k' : α' → EvalM σ' ρ' ω' β'} (h : V.Simulates P x x')
    (hk : ∀ a a', P a a' → V.Simulates Q (k a) (k' a')) :
    V.Simulates Q (x >>= k) (x' >>= k') := by
  intro s s' hs
  have hx := h s s' hs
  rw [outcome_bind, outcome_bind]
  generalize outcome x s = r at hx
  generalize outcome x' s' = r' at hx
  cases hx with
  | ok ha hs => exact hk _ _ ha _ _ hs
  | error he hs => exact .error he hs
  | excused h => exact .excused h

theorem lift {x : StateM σ α} {x' : StateM σ' α'}
    (h : ∀ s s', V.states s s' → P (x s).1 (x' s').1 ∧ V.states (x s).2 (x' s').2) :
    V.Simulates P (ExceptT.lift x) (ExceptT.lift x') := by
  intro s s' hs
  obtain ⟨ha, ht⟩ := h s s' hs
  exact .ok ha ht

theorem adapt {locate : Error ρ ω → Error ρ ω} {locate' : Error ρ' ω' → Error ρ' ω'}
    (h : V.Simulates P x x') (hl : V.Locates locate locate') :
    V.Simulates P (ExceptT.adapt locate x) (ExceptT.adapt locate' x') := by
  intro s s' hs
  have hx := h s s' hs
  rw [outcome_adapt, outcome_adapt]
  generalize outcome x s = r at hx
  generalize outcome x' s' = r' at hx
  cases hx with
  | ok ha hs => exact .ok ha hs
  | error he hs => exact .error (hl.errors he) hs
  | excused h => exact .excused (hl.excused h)

/-- What follows a computation may look at its error. An excused one is passed on. -/
theorem attempt {k : Except (Error ρ ω) α → EvalM σ ρ ω β}
    {k' : Except (Error ρ' ω') α' → EvalM σ' ρ' ω' β'} (h : V.Simulates P x x')
    (hok : ∀ a a', P a a' → V.Simulates Q (k (.ok a)) (k' (.ok a')))
    (herror : ∀ e e', V.Errors e e' → V.Simulates Q (k (.error e)) (k' (.error e')))
    (hexcused : ∀ e, V.excused e.cause → k (.error e) = throw e) :
    V.Simulates Q (ExceptT.lift x.run >>= k) (ExceptT.lift x'.run >>= k') := by
  intro s s' hs
  have hx := h s s' hs
  show V.Ends Q (outcome (k (outcome x s).1) (outcome x s).2)
    (outcome (k' (outcome x' s').1) (outcome x' s').2)
  generalize outcome x s = r at hx
  generalize outcome x' s' = r' at hx
  cases hx with
  | ok ha hs => exact hok _ _ ha _ _ hs
  | error he hs => exact herror _ _ he _ _ hs
  | excused he =>
    dsimp only
    rw [hexcused _ he]
    exact .excused he

theorem orFault {span span' : Span} (hl : V.spans span span') (r : Except Fault α) :
    V.Simulates Eq (Arith.orFault span r) (Arith.orFault span' r) := by
  cases r with
  | ok a => exact pure rfl
  | error e => exact fail rfl hl

end Simulates

theorem locates_blameVariable (text : List Char) {span span' : Span} (h : V.spans span span') :
    V.Locates (Frame.blameVariable text span) (Frame.blameVariable text span') where
  errors {e e'} he := by
    refine ⟨?_, h⟩
    simp only [Frame.blameVariable, he.cause, Cause.isSyntax_map]
    split <;> rfl
  excused {e} he := by
    simp only [Frame.blameVariable, V.not_isSyntax he, Bool.false_eq_true, if_false]
    exact he

/-- Errors of a nested expression are counted from where its brackets stand. -/
theorem locates_nested {span span' : Span} (h : V.spans span span') (n : Nat) :
    V.Locates (fun e => ⟨e.cause, e.span.shift (span.start + n)⟩)
      (fun e => ⟨e.cause, e.span.shift (span'.start + n)⟩) where
  errors he := ⟨he.cause, V.spans_shift h he.span n⟩
  excused he := he

end Comparison

end ShellCore.Arith
