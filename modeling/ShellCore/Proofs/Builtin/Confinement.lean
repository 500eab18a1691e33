import ShellCore.Proofs.Builtin.Invocation
import ShellCore.Proofs.Environment.Standalone

/-! The option reader disturbs nothing but the variables that it reports to. -/

namespace ShellCore.Builtin.Getopts

open CommandLine Environment ScopeStack

variable {found : Next} {c : Cursor} {silent : Bool} {name : String} {names lost : List String}
  {env env' : Environment (List String)}

theorem behaves_assign (name value : String) :
    Behaves [name, optOffset] []
      (assign name value : ExceptT ReportError (ShellM (List String)) Unit) :=
  (Environment.behaves_assign name value).adapt ReportError.assign

theorem behaves_place (c : Cursor) (message : Option String) :
    Behaves [optIndex, optOffset] [] (do
      assign optIndex (Decimal.natText c.index)
      assign optOffset (Decimal.natText c.sub)
      return message : ExceptT ReportError (ShellM (List String)) (Option String)) := by
  have ho := (behaves_assign optOffset (Decimal.natText c.sub)).bind (fun _ => .pure message)
  have hi := (behaves_assign optIndex (Decimal.natText c.index)).bind (fun _ => ho (by simp))
  exact (hi (by simp)).mono (by decide) (List.Subset.refl _)

/-- The option argument may lose its home, but nothing is written to it after that. -/
theorem behaves_argument (c : Cursor) (r : Report) :
    Behaves [optArgument, optIndex, optOffset] [optArgument] (do
      match r.argument with
      | some argument => assign optArgument argument
      | none => let _ ← ExceptT.adapt ReportError.unset (Environment.unset optArgument .visible)
      assign optIndex (Decimal.natText c.index)
      assign optOffset (Decimal.natText c.sub)
      return r.message : ExceptT ReportError (ShellM (List String)) (Option String)) := by
  have hp := behaves_place c r.message
  dsimp only
  split
  · rename_i argument ha
    have ha := behaves_assign optArgument argument
    exact (ha.bind (fun _ => hp) (by simp)).mono (by decide) (by simp)
  · have hu := (behaves_unset optArgument).adapt ReportError.unset
    exact (hu.bind (fun _ => hp) (by decide)).mono (by decide) (by simp)

theorem behaves_report (hn : isName name.toList) (found : Next) (c : Cursor) (silent : Bool) :
    Behaves (reported name) [optArgument] (report found c silent name :
      ExceptT ReportError (ShellM (List String)) (Option String)) := by
  have hresult : ∀ env : Environment (List String), Behaves _ _ _ := fun env =>
    let r := Report.of env.shellName found c.argument silent
    (behaves_assign name r.value).bind (fun _ => behaves_argument c r) (by simp)
  unfold report
  rw [hn, Bool.not_true, if_neg Bool.false_ne_true]
  exact (Behaves.get.bind hresult (by simp)).mono (by simp [reported]) (by simp)

theorem touches_report (hq : env.Quiet) (found : Next) (c : Cursor) (silent : Bool)
    (name : String) :
    Touches (reported name) [optArgument] env
      ((report found c silent name).run.run env).2 := by
  by_cases hn : isName name.toList
  · exact (behaves_report hn found c silent).touches env hq
  · have hr : ((report found c silent name).run.run env).2 = env := by
      unfold report
      rw [if_pos (by simpa using hn)]
      rfl
    rw [hr]
    exact .refl _ _ env

theorem touches_told (h : Touches names lost env env') (message : Option String) :
    Touches names lost env (told message env') := by
  cases message with
  | none => exact h
  | some message =>
    exact ⟨h.confined, h.homes, h.inherits, h.functions, h.settings, h.host.trans rfl⟩

theorem touches_complain (h : Touches names lost env env') (text : String) :
    Touches names lost env (complain text env').2 :=
  ⟨h.confined, h.homes, h.inherits, h.functions, h.settings, h.host⟩

theorem touches_step (hq : env.Quiet) (spec : OptionSpec) (args : List String) (name : String) :
    Touches (reported name) [optArgument] env (step spec args name env).2 := by
  rw [run_step]
  dsimp only
  generalize next args spec (loadCursor env spec args) = r
  have ht := touches_report hq r.1 r.2 spec.silent name
  split
  · rename_i message env' hr
    rw [hr] at ht
    exact touches_told ht message
  · rename_i e env' hr
    rw [hr] at ht
    exact touches_complain ht e.message

theorem touches_invoke_main (hq : env.Quiet) (args : List String) :
    Touches (written args) [optArgument] env (invoke main args env).2 := by
  rcases main_cases (η := List String) args with ⟨spec, args', name, hw, h⟩ | ⟨text, hw, h⟩
  · rw [invoke_inCallerScope h, hw]
    have ht := touches_step hq spec args' name
    exact ⟨ht.confined, ht.homes, ht.inherits, ht.functions, ht.settings, ht.host⟩
  · unfold invoke
    rw [h]
    exact ⟨.refl _ _, fun k _ => .refl k _, .refl _, rfl, rfl, rfl⟩

/-- What an invocation leaves of a state when only entries of these names may change. -/
structure Spares (names : List String) (env : Environment (List String))
    (o : Outcome × Environment (List String)) : Prop where
  depth : o.2.scopes.depth = env.scopes.depth
  levels : env.scopes.SameLevels o.2.scopes
  functions : o.2.functions = env.functions
  settings : o.2.settings = env.settings
  entries (i : Nat) (k : String) : o.2.scopes.entryAt i k ≠ env.scopes.entryAt i k →
    k ∈ names ∧ env.scopes.IsHome i k
  exitStatus : o.2.exitStatus = o.1.exitStatus

/-- The scope of the built-in is given back empty. -/
theorem pop_main (hq : env.Quiet) (args : List String) :
    (main args (env.mapScopes push)).2.scopes.pop.1 = some (.new env.scopes.depth) := by
  rcases main_cases (η := List String) args with ⟨spec, args', name, -, h⟩ | ⟨text, -, h⟩
  · have hl := (touches_step hq spec args' name).confined.levels.length
    have hs : (main args (env.mapScopes push)).2.scopes =
        (step spec args' name env).2.scopes.pushTable (.new env.scopes.depth) := by
      rw [h]
      rfl
    have hp : ∀ s : ScopeStack, (s.pushTable (.new env.scopes.depth)).pop.1 =
        some (.new s.depth) := fun _ => rfl
    rw [hs, hp, depth, hl]
    rfl
  · rw [h]
    rfl

/-- An invocation writes to the variables of its report only, to each where it is visible or else
on top, and to nothing in a scope of its own. -/
theorem invocation_spares_rest (hq : env.Quiet) (args : List String) :
    Spares (written args) env (invoke main args env) ∧
      (main args (env.mapScopes push)).2.scopes.pop.1 = some (.new env.scopes.depth) := by
  have ht := touches_invoke_main hq args
  have hd := congrArg (· + 1) ht.confined.levels.length
  exact ⟨⟨hd, ht.confined.levels, ht.functions, ht.settings, ht.confined.entries, rfl⟩,
    pop_main hq args⟩

/-- The first option of a word, read in a new scope of a new shell. -/
theorem option_in_scope_spares_rest :
    let env := (Environment.new Host.standalone []).mapScopes push
    Spares ["x", optArgument, optIndex, optOffset] env (invoke main ["ab", "x", "-ab"] env) ∧
      (main ["ab", "x", "-ab"] (env.mapScopes push)).2.scopes.pop.1 = some (.new 2) :=
  invocation_spares_rest ((tame_new []).push.quiet rfl) ["ab", "x", "-ab"]

end ShellCore.Builtin.Getopts
