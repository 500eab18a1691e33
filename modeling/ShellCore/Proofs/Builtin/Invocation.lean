import ShellCore.Builtin.Getopts
import ShellCore.Proofs.Environment.Protection

/-! What an invocation of the option reader does to the state around it. -/

namespace ShellCore.Builtin

open CommandLine

variable {η : Type} {command : Command η} {args : List String} {action : ShellM η Outcome}

/-- A built-in that works in the scope of its caller works on the state that it is invoked in. -/
theorem invoke_inCallerScope (h : command args = inCallerScope action) (env : Environment η) :
    invoke command args env =
      ((action env).1, { (action env).2 with exitStatus := (action env).1.exitStatus }) := by
  show (do
    modify (Environment.mapScopes ScopeStack.push)
    let outcome ← command args
    modify fun env => { env.mapScopes (·.pop.2) with exitStatus := outcome.exitStatus }
    return outcome : ShellM η Outcome) env = _
  rw [h]
  rfl

namespace Getopts

variable {spec : OptionSpec} {name : String}

theorem invoke_main {text : String} (h : text ≠ "--") (name : String) (rest : List String)
    (env : Environment η) :
    invoke main (text :: name :: rest) env =
      let p := step (.ofText text.toList) (name :: rest) name env
      (p.1, { p.2 with exitStatus := p.1.exitStatus }) := by
  refine invoke_inCallerScope ?_ env
  unfold main
  split
  · rename_i hc
    injection hc with hc
    exact absurd hc h
  · rfl

/-- What becomes of a report. The status tells whether it was the end. -/
def answer (found : Next) : Except ReportError (Option String) → ShellM η Outcome
  | .ok message => do
    if let some message := message then Environment.printError message
    return .ofStatus (if found = .done then .failure else .success)
  | .error e => complain e.message

/-- The message is printed if there is one. -/
def told (message : Option String) (env : Environment η) : Environment η :=
  match message with
  | some message => (Environment.printError message env).2
  | none => env

theorem scopes_told (message : Option String) (env : Environment η) :
    (told message env).scopes = env.scopes := by
  cases message <;> rfl

theorem run_step (spec : OptionSpec) (args : List String) (name : String) (env : Environment η) :
    step spec args name env =
      let p := next args spec (loadCursor env spec args)
      match (report p.1 p.2 spec.silent name).run.run env with
      | (.ok message, env') =>
        (.ofStatus (if p.1 = .done then .failure else .success), told message env')
      | (.error e, env') => complain e.message env' := by
  have hstep : step spec args name env =
      StateT.bind (report (next args spec (loadCursor env spec args)).1
        (next args spec (loadCursor env spec args)).2 spec.silent name).run
        (answer (next args spec (loadCursor env spec args)).1) env := rfl
  rw [hstep]
  dsimp only
  generalize next args spec (loadCursor env spec args) = p
  rcases hr : (report p.1 p.2 spec.silent name).run.run env with ⟨r, env'⟩
  have hr' : (report p.1 p.2 spec.silent name).run env = (r, env') := hr
  simp only [StateT.bind, bind, hr']
  cases r with
  | error e => rfl
  | ok message => cases message <;> rfl

theorem scopes_complain (text : String) (env : Environment η) :
    (complain text env).2.scopes = env.scopes := rfl

theorem maintains_assign (name value : String) :
    Maintains (Environment.Relates ScopeStack.Guards)
      (assign name value : ExceptT ReportError (ShellM η) Unit) := by
  have h := Environment.maintains_assign_visible (η := η) name value
  exact .adapt (h.mono fun _ _ h => ⟨h.scopes.guards, h.host⟩) ReportError.assign

theorem maintains_report (found : Next) (c : Cursor) (silent : Bool) (name : String) :
    Maintains (Environment.Relates ScopeStack.Guards)
      (report found c silent name : ExceptT ReportError (ShellM η) (Option String)) := by
  unfold report
  split
  · exact .throw _
  · refine .bind .get fun env => .bind (maintains_assign name _) fun _ => ?_
    have hrest : ∀ message, Maintains (Environment.Relates ScopeStack.Guards) (do
        assign optIndex (Decimal.natText c.index)
        assign optOffset (Decimal.natText c.sub)
        return message : ExceptT ReportError (ShellM η) (Option String)) :=
      fun _ => .bind (maintains_assign _ _) fun _ => .bind (maintains_assign _ _) fun _ => .pure _
    split
    · exact .bind (maintains_assign optArgument _) fun _ => hrest _
    · have hu := Environment.maintains_unset (η := η) optArgument .visible
      exact .bind (.adapt hu ReportError.unset) fun _ => hrest _

theorem guards_step (spec : OptionSpec) (args : List String) (name : String)
    (env : Environment η) :
    env.scopes.Guards (step spec args name env).2.scopes := by
  rw [run_step]
  have hg := maintains_report (η := η) (next args spec (loadCursor env spec args)).1
    (next args spec (loadCursor env spec args)).2 spec.silent name env
  dsimp only
  split
  · rename_i message env' hr
    rw [hr] at hg
    rw [scopes_told]
    exact hg.scopes
  · rename_i e env' hr
    rw [hr] at hg
    rw [scopes_complain]
    exact hg.scopes

/-- The arguments without the mark before them. -/
def operands : List String → List String
  | "--" :: args => args
  | args => args

/-- The variables that a report to the named one is written to. -/
def reported (name : String) : List String := [name, optArgument, optIndex, optOffset]

/-- The variables that an invocation may write to. -/
def written (args : List String) : List String :=
  match operands args with
  | _ :: name :: _ => reported name
  | _ => []

theorem main_eq (args : List String) :
    main (η := η) args = match operands args with
      | spec :: name :: rest => inCallerScope (step (.ofText spec.toList) (name :: rest) name)
      | _ => complain "usage: getopts option_spec variable_name [argument...]" := by
  unfold main
  split
  · rfl
  · rename_i hm
    have ho : operands args = args := operands.eq_2 args hm
    exact ho.symm ▸ rfl

theorem main_cases (args : List String) :
    (∃ spec args' name, written args = reported name ∧
      main (η := η) args = inCallerScope (step spec args' name)) ∨
      ∃ text, written args = [] ∧ main (η := η) args = complain text := by
  rw [main_eq, written]
  split
  · exact .inl ⟨_, _, _, rfl, rfl⟩
  · exact .inr ⟨_, rfl, rfl⟩

theorem guards_invoke_main (args : List String) (env : Environment η) :
    env.scopes.Guards (invoke main args env).2.scopes := by
  rcases main_cases (η := η) args with ⟨spec, args', name, -, h⟩ | ⟨text, -, h⟩
  · rw [invoke_inCallerScope h]
    exact guards_step spec args' name env
  · have hi : invoke main args env = invoke (fun _ => complain text) args env := by
      unfold invoke
      rw [h]
    rw [hi]
    exact Std.Refl.refl env.scopes

end Getopts

end ShellCore.Builtin
