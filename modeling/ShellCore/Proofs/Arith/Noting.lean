import ShellCore.Proofs.Arith.Recording

/-! Evaluations that note which variable's value they are evaluating. -/

namespace ShellCore.Arith

open Text

variable {σ ρ ω α : Type}

/-- The value is evaluated when its variable is read as an integer. -/
def isExpression (value : String) : Bool :=
  let text := trim value.toList
  !text.isEmpty && (constant? text).isNone

/-- The note after a call. A variable that is read is noted if its value has to be evaluated now. -/
def noteCall : Call ρ ω → Option String → Option String
  | .get name (.ok (some value)), _ => if isExpression value then some name else none
  | .get _ _, _ => none
  | _, note => note

/-- The note stays while the value of the variable is evaluated, and is gone afterwards. An error
leaves it. -/
def whileNoted (name : String) (x : EvalM σ ρ ω α) : EvalM (σ × Option String) ρ ω α :=
  ExceptT.mk fun p =>
    match outcome x p.1 with
    | (.ok a, s) => (.ok a, s, none)
    | (.error e, s) => (.error e, s, some name)

theorem outcome_whileNoted (name : String) (x : EvalM σ ρ ω α) (p : σ × Option String) :
    outcome (whileNoted name x) p =
      match outcome x p.1 with
      | (.ok a, s) => (.ok a, s, none)
      | (.error e, s) => (.error e, s, some name) := rfl

/-- Evaluates what is nested in an expression: the value of a variable where there is a note, and
else an expression in brackets, in which notes are made, too. -/
def evaluateNoting (a : Access σ ρ ω) (stackDepth : Nat) :
    (levels : Nat) → Option (List Char → EvalM (σ × Option String) ρ ω Int64)
  | 0 => none
  | levels + 1 => some fun source => ExceptT.mk fun p =>
    match p.2 with
    | some name =>
      outcome (whileNoted name
        (Frame.integer ⟨a, stackDepth, source, evaluateNested a stackDepth levels⟩)) p
    | none =>
      outcome (Frame.integer
        ⟨a.beside noteCall, stackDepth, source, evaluateNoting a stackDepth levels⟩) p

def notingFrame (a : Access σ ρ ω) (limits : Limits) (source : List Char) :
    Frame (σ × Option String) ρ ω :=
  ⟨a.beside noteCall, limits.stackDepth, source,
    evaluateNoting a limits.stackDepth limits.nestingDepth⟩

open Comparison

theorem simulates_whileNoted (name : String) (x : EvalM σ ρ ω α) :
    besides.Simulates Eq (whileNoted name x) x := by
  refine simulates_besides_iff.mpr fun p => ?_
  rw [outcome_whileNoted]
  rcases outcome x p.1 with ⟨e | a, s⟩ <;> exact ⟨rfl, rfl⟩

theorem inner_evaluateNoting (a : Access σ ρ ω) (stackDepth levels : Nat) :
    besides.Inner (evaluateNoting a stackDepth levels)
      (evaluateNested a stackDepth levels) := by
  induction levels with
  | zero => exact .none
  | succ levels ih =>
    refine .some fun body => ?_
    rintro ⟨s, note⟩ _ rfl
    cases note with
    | none =>
      exact (frames_beside noteCall a ih body).integer (Accesses.readings_refl body) (s, none) s rfl
    | some name => exact simulates_whileNoted name _ (s, some name) s rfl

/-- Notes change nothing about an evaluation. -/
theorem outcome_notingFrame (a : Access σ ρ ω) (limits : Limits) (source : List Char) (s : σ)
    (note : Option String) :
    (outcome (notingFrame a limits source).value (s, note)).1 =
        (outcome (frame a limits source).value s).1 ∧
      (outcome (notingFrame a limits source).value (s, note)).2.1 =
        (outcome (frame a limits source).value s).2 :=
  outcome_value_beside noteCall a limits (inner_evaluateNoting a _ _) source (s, note)

end ShellCore.Arith
