import ShellCore.Proofs.Arith.Simulation

/-! What an evaluation asks of the shell around it, in order. -/

namespace ShellCore.Arith

variable {σ σ' τ ρ ω α : Type}

/-- A use of the surroundings, with their answer. -/
inductive Call (ρ ω : Type)
  | get (name : String) (answer : Except ρ (Option String))
  | assign (name value : String) (span : Span) (answer : Except ω Unit)
  | expandWord (text : String) (answer : Option String)
  | substituteCommand (text : String) (answer : Option (Except String String))
  | setExitStatus (exitStatus : ExitStatus)

/-- Writes down the call that an action was, behind the earlier ones. -/
def record (call : α → Call ρ ω) (x : StateM σ α) : StateM (σ × List (Call ρ ω)) α := fun p =>
  ((x p.1).1, (x p.1).2, p.2 ++ [call (x p.1).1])

/-- The same surroundings with a record of what they are asked. -/
def Access.recorded (a : Access σ ρ ω) : Access (σ × List (Call ρ ω)) ρ ω where
  get name := record (.get name) (a.get name)
  assign name value span := record (.assign name value span) (a.assign name value span)
  expandWord text := record (.expandWord text) (a.expandWord text)
  substituteCommand text := record (.substituteCommand text) (a.substituteCommand text)
  setExitStatus exitStatus :=
    record (fun _ => .setExitStatus exitStatus) (a.setExitStatus exitStatus)

/-- Acts beside a second state, which changes with the call that the action was. -/
def beside (change : Call ρ ω → τ → τ) (call : α → Call ρ ω) (x : StateM σ α) :
    StateM (σ × τ) α := fun p =>
  ((x p.1).1, (x p.1).2, change (call (x p.1).1) p.2)

/-- The same surroundings with a second state beside their own. -/
def Access.beside (change : Call ρ ω → τ → τ) (a : Access σ ρ ω) : Access (σ × τ) ρ ω where
  get name := Arith.beside change (.get name) (a.get name)
  assign name value span := Arith.beside change (.assign name value span) (a.assign name value span)
  expandWord text := Arith.beside change (.expandWord text) (a.expandWord text)
  substituteCommand text :=
    Arith.beside change (.substituteCommand text) (a.substituteCommand text)
  setExitStatus exitStatus :=
    Arith.beside change (fun _ => .setExitStatus exitStatus) (a.setExitStatus exitStatus)

/-- The calls that the expansion of an expression makes. -/
def calls (a : Access σ ρ ω) (limits : Limits) (expression : String) (s : σ) : List (Call ρ ω) :=
  (outcome (expandWithin a.recorded limits expression) (s, [])).2.2

namespace Comparison

theorem shift_congr {s s' t t' : Span} (h : s = s') (ht : t = t') (n : Nat) :
    t.shift (s.start + n) = t'.shift (s'.start + n) := by
  rw [h, ht]

theorem not_isSyntax_of_false {c : Cause ρ ω} (h : False) : c.isSyntax = false := h.elim

/-- Two evaluations in which spans and refusals are the same. -/
def ofStates (states : σ → σ' → Prop) (excused : Cause ρ ω → Prop)
    (h : ∀ c, excused c → c.isSyntax = false) : Comparison σ σ' ρ ρ ω ω where
  states
  spans := Eq
  unreadable := id
  unassignable := id
  excused
  spans_refl := Eq.refl
  spans_shift := @shift_congr
  not_isSyntax := h _

variable {states : σ → σ' → Prop} {excused : Cause ρ ω → Prop}
  {h : ∀ c, excused c → c.isSyntax = false}

theorem map_id (c : Cause ρ ω) : c.map id id = c := by cases c <;> rfl

theorem mapError_id {ε : Type} (r : Except ε α) : r.mapError id = r := by cases r <;> rfl

/-- The first evaluation is excused, or the second one has the same result. -/
theorem excused_or_eq_of_ends {r : Except (Error ρ ω) α × σ} {r' : Except (Error ρ ω) α × σ'}
    (hr : (ofStates states excused h).Ends Eq r r') :
    (∃ e, r.1 = .error e ∧ excused e.cause) ∨ r'.1 = r.1 ∧ states r.2 r'.2 := by
  cases hr with
  | ok ha hs => exact .inr ⟨by rw [ha], hs⟩
  | @error e e' s s' he hs =>
    refine .inr ⟨?_, hs⟩
    obtain ⟨cause, span⟩ := e
    obtain ⟨cause', span'⟩ := e'
    obtain ⟨hc, hl⟩ := he
    dsimp only at hc hl
    have hc' : cause' = cause := hc.trans (map_id cause)
    rw [hc', show span = span' from hl]
  | excused he => exact .inl ⟨_, rfl, he⟩

end Comparison

open Comparison

/-- Whatever is beside the state. -/
def besides : Comparison (σ × τ) σ ρ ρ ω ω :=
  .ofStates (fun p s => p.1 = s) (fun _ => False) fun _ => not_isSyntax_of_false

theorem accesses_beside (change : Call ρ ω → τ → τ) (a : Access σ ρ ω) :
    besides.Accesses (a.beside change) a where
  get := by
    rintro name ⟨s, t⟩ _ rfl
    exact ⟨(mapError_id _).symm, rfl⟩
  assign := by
    rintro name value span _ rfl ⟨s, t⟩ _ rfl
    exact ⟨(mapError_id _).symm, rfl⟩
  expandWord := by
    rintro text ⟨s, t⟩ _ rfl
    exact ⟨rfl, rfl⟩
  substituteCommand := by
    rintro text ⟨s, t⟩ _ rfl
    exact ⟨rfl, rfl⟩
  setExitStatus := by
    rintro status ⟨s, t⟩ _ rfl
    rfl

/-- `besides` compares results and states, since it excuses nothing. -/
theorem simulates_besides_iff {x : EvalM (σ × τ) ρ ω α} {y : EvalM σ ρ ω α} :
    besides.Simulates Eq x y ↔
      ∀ p, (outcome x p).1 = (outcome y p.1).1 ∧ (outcome x p).2.1 = (outcome y p.1).2 := by
  constructor
  · intro h p
    rcases excused_or_eq_of_ends (h p p.1 rfl) with ⟨e, -, he⟩ | ⟨hr, hs⟩
    · exact he.elim
    · exact ⟨hr.symm, hs⟩
  · rintro h p _ rfl
    obtain ⟨hr, hs⟩ := h p
    rcases hx : outcome x p with ⟨r, s, t⟩
    rcases hy : outcome y p.1 with ⟨r', s'⟩
    rw [hx, hy] at hr hs
    obtain rfl : r = r' := hr
    obtain rfl : s = s' := hs
    cases r with
    | ok a => exact .ok rfl rfl
    | error e => exact .error ⟨(map_id _).symm, rfl⟩ rfl

theorem frames_beside (change : Call ρ ω → τ → τ) (a : Access σ ρ ω) {stackDepth levels : Nat}
    {inner : Option (List Char → EvalM (σ × τ) ρ ω Int64)}
    (hi : besides.Inner inner (evaluateNested a stackDepth levels)) (source : List Char) :
    besides.Frames ⟨a.beside change, stackDepth, source, inner⟩
      ⟨a, stackDepth, source, evaluateNested a stackDepth levels⟩ :=
  ⟨accesses_beside change a, .inl rfl, hi, rfl⟩

/-- What is beside the state changes nothing about an evaluation, if it does so at no deeper
level. -/
theorem outcome_value_beside (change : Call ρ ω → τ → τ) (a : Access σ ρ ω) (limits : Limits)
    {inner : Option (List Char → EvalM (σ × τ) ρ ω Int64)}
    (hi : besides.Inner inner (evaluateNested a limits.stackDepth limits.nestingDepth))
    (source : List Char) (p : σ × τ) :
    let f : Frame (σ × τ) ρ ω := ⟨a.beside change, limits.stackDepth, source, inner⟩
    (outcome f.value p).1 = (outcome (frame a limits source).value p.1).1 ∧
      (outcome f.value p).2.1 = (outcome (frame a limits source).value p.1).2 := by
  have hf := frames_beside change a hi source
  exact simulates_besides_iff.mp (hf.value (Accesses.readings_refl source)) p

/-- The record is beside the state. -/
theorem recorded_eq_beside (a : Access σ ρ ω) :
    a.recorded = a.beside fun call log => log ++ [call] := rfl

/-- The record changes neither the result nor the state that is left. -/
theorem outcome_recorded (a : Access σ ρ ω) (limits : Limits) (expression : String) (s : σ)
    (log : List (Call ρ ω)) :
    (outcome (expandWithin a.recorded limits expression) (s, log)).1 =
        (outcome (expandWithin a limits expression) s).1 ∧
      (outcome (expandWithin a.recorded limits expression) (s, log)).2.1 =
        (outcome (expandWithin a limits expression) s).2 := by
  have ha := accesses_beside (fun call log => log ++ [call]) a
  rw [recorded_eq_beside]
  exact simulates_besides_iff.mp (ha.expandWithin (.inl rfl) (.inl rfl) expression) (s, log)

end ShellCore.Arith
