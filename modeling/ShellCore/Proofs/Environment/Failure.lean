import Mathlib.Control.Monad.Basic
import ShellCore.Proofs.Environment.Attributes
import ShellCore.Proofs.Environment.Protection
import ShellCore.Proofs.Variable.Removal

/-! What assignments leave behind when they fail, and when a variable cannot be unset. -/

namespace ShellCore.Environment

open ScopeStack

variable {η : Type} {name : String} {scope : Scope} {flags set unset : Flags}
  {control : SetControl} {value converted : Option String} {env env' : Environment η}
  {e : AssignError}

/-- How the assignment of a value in a scope fails, and the state after it. The flags decide how
the value is converted, to which an appending assignment has put the old one. -/
inductive Fails (env : Environment η) (name : String) (scope : Scope) (flags : Flags)
    (value converted : Option String) : AssignError → Environment η → Prop
  /-- Nothing has been changed. -/
  | refused (h : env.refuses name scope) :
    Fails env name scope flags value converted (.readOnly name value) env
  /-- What the expression did until it failed stays done. -/
  | evaluated {text message : String} {env' : Environment η} (ha : env.refuses name scope = false)
    (hf : Evaluates flags) (ht : converted = some text)
    (he : evaluator text env = (.error message, env')) :
    Fails env name scope flags value converted (.notInteger name message) env'

theorem run_store_of_writable (hr : (env.scopes.entryOrNew name scope).flags.readOnly = false)
    (flags : Flags) (value : Option String) :
    ∃ env', (store name scope flags value).run.run env = (.ok (), env') := by
  have ha : (env.scopes.entryOrNew name scope).assign name value =
      .ok ((env.scopes.entryOrNew name scope).value,
        { env.scopes.entryOrNew name scope with value }) := by
    simp [Entry.assign, hr]
  rw [run_store, ha]
  exact ⟨_, rfl⟩

theorem run_storeConverted_of_writable
    (hr : (env.scopes.entryOrNew name scope).flags.readOnly = false) (flags : Flags)
    (converted : SpecialAssign) :
    ∃ env', (storeConverted name scope flags converted).run.run env = (.ok (), env') := by
  cases converted with
  | store value => exact run_store_of_writable hr flags value
  | keep => exact ⟨env, rfl⟩

/-- Once its value is known, an assignment to a writable variable succeeds. -/
theorem run_conclude_of_writable (hr : (env.scopes.entryOrNew name scope).flags.readOnly = false)
    (flags set unset : Flags) (converted : SpecialAssign) :
    ∃ env', (conclude name scope flags set unset converted).run.run env = (.ok (), env') := by
  have hd : (modify (declareIn name scope (set \ { readOnly := true }) unset) :
      ExceptT AssignError (ShellM η) Unit).run.run env = (.ok (), _) := rfl
  have hr' : ((declareIn name scope (set \ { readOnly := true }) unset env).scopes.entryOrNew
      name scope).flags.readOnly = false := by
    refine (congrArg (·.flags.readOnly) entryOrNew_update).trans ?_
    simp [hr]
  obtain ⟨env', h⟩ := run_storeConverted_of_writable hr' flags converted
  unfold conclude
  rw [run_bind_of_ok hd, run_bind_of_ok h]
  split
  · exact ⟨_, rfl⟩
  · exact ⟨_, rfl⟩

/-- An evaluation makes no writable variable read-only. -/
theorem writable_after_convert (ha : env.refuses name scope = false) {r : SpecialAssign}
    (h : (convert evaluator name flags value).run.run env = (.ok r, env')) :
    (env'.scopes.entryOrNew name scope).flags.readOnly = false := by
  have hk := (convert_keepsAttributes name flags value env).scopes
  rw [h] at hk
  rw [readOnly_entryOrNew, hk.readOnly_getScoped, ← readOnly_entryOrNew]
  exact readOnly_of_accepted ha

/-- An accepted assignment fails exactly as its conversion does. -/
theorem fails_iff_of_accepted (ha : env.refuses name scope = false)
    {k : SpecialAssign → ExceptT AssignError (ShellM η) Unit}
    (hk : ∀ r env', (env'.scopes.entryOrNew name scope).flags.readOnly = false →
      ∃ env'', (k r).run.run env' = (.ok (), env'')) :
    (convert evaluator name flags converted >>= k).run.run env = (.error e, env') ↔
      Fails env name scope flags value converted e env' := by
  constructor
  · intro h
    rcases hc : (convert evaluator name flags converted).run.run env with ⟨r, env1⟩
    cases r with
    | ok r =>
      obtain ⟨env2, h2⟩ := hk r env1 (writable_after_convert ha hc)
      rw [run_bind_of_ok hc, h2] at h
      cases h
    | error e =>
      rw [run_bind_of_error hc] at h
      cases h
      obtain ⟨hf, text, message, ht, he, rfl⟩ := exists_of_run_convert_eq_error hc
      exact .evaluated ha hf ht he
  · intro h
    cases h with
    | refused h =>
      rw [ha] at h
      cases h
    | @evaluated text message _ _ hf ht he =>
      have hc : (convert evaluator name flags (some text)).run.run env = _ :=
        run_convert_of_evaluates hf text env
      rw [he] at hc
      subst ht
      exact run_bind_of_error hc k

theorem fails_iff_of_refused (hr : env.refuses name scope) :
    ((Except.error (AssignError.readOnly name value) : Except AssignError Unit), env) =
      (.error e, env') ↔ Fails env name scope flags value converted e env' := by
  constructor
  · intro h
    cases h
    exact .refused hr
  · intro h
    cases h with
    | refused _ => rfl
    | evaluated ha =>
      rw [ha] at hr
      cases hr

theorem assign_eq_error_iff :
    (assign name value set unset control).run.run env = (.error e, env') ↔
      Fails env name control.scope (env.assignedFlags name set unset control) value
        (env.assignedValue name value control) e env' := by
  unfold assign
  rw [run_assignWith]
  split
  · rename_i hr
    exact fails_iff_of_refused hr
  · rename_i ha
    exact fails_iff_of_accepted (by simpa using ha)
      fun r env' hr => run_conclude_of_writable hr _ _ _ r

theorem assignValue_eq_error_iff :
    (assignValue name scope value).run.run env = (.error e, env') ↔
      Fails env name scope (env.targetFlags name scope) value value e env' := by
  rw [run_assignValue]
  split
  · rename_i hr
    exact fails_iff_of_refused hr
  · rename_i ha
    exact fails_iff_of_accepted (by simpa using ha)
      fun r env' hr => run_storeConverted_of_writable hr _ r

theorem declare_eq_error_iff :
    (declare name set unset control).run.run env = (.error e, env') ↔
      env.hidesReadOnly name control.scope ∧ e = .readOnly name none ∧ env' = env := by
  rw [run_declare]
  split
  · rename_i hh
    constructor
    · intro h
      cases h
      exact ⟨hh, rfl, rfl⟩
    · rintro ⟨-, rfl, rfl⟩
      rfl
  · rename_i hh
    constructor
    · intro h
      cases h
    · rintro ⟨h, -⟩
      exact absurd h hh

/-- Even where the expression has changed variables, no entry is gone or in another table, and none
that is read-only has another value. -/
theorem Fails.spares (h : Fails env name scope flags value converted e env') :
    KeepsAttributes env.scopes env'.scopes ∧ Guards env.scopes env'.scopes := by
  cases h with
  | refused => exact ⟨Std.Refl.refl _, Std.Refl.refl _⟩
  | @evaluated text _ _ _ _ _ he =>
    have hk := (evaluator_keepsAttributes text env).scopes
    have hg := (grows_evaluator text env).scopes
    rw [he] at hk hg
    exact ⟨hk, hg.guards⟩

/-- A failed assignment that is refused leaves all variables as they were. One whose text is an
expression that fails leaves what evaluating that text by itself leaves: where the expression has
assigned variables these stay assigned, but no entry is gone or in another table, and none that is
read-only has another value. -/
theorem variables_of_failure (env : Environment η) (name : String) :
    (∀ value set unset control e env',
      (assign name value set unset control).run.run env = (.error e, env') ↔
        Fails env name control.scope (env.assignedFlags name set unset control) value
          (env.assignedValue name value control) e env') ∧
    (∀ scope value e env',
      (assignValue name scope value).run.run env = (.error e, env') ↔
        Fails env name scope (env.targetFlags name scope) value value e env') ∧
    (∀ set unset control e env',
      (declare name set unset control).run.run env = (.error e, env') ↔
        env.hidesReadOnly name control.scope ∧ e = .readOnly name none ∧ env' = env) ∧
    ∀ scope flags value converted e env', Fails env name scope flags value converted e env' →
      KeepsAttributes env.scopes env'.scopes ∧ Guards env.scopes env'.scopes := by
  refine ⟨?_, ?_, ?_, ?_⟩
  · intro value set unset control e env'
    exact assign_eq_error_iff
  · intro scope value e env'
    exact assignValue_eq_error_iff
  · intro set unset control e env'
    exact declare_eq_error_iff
  · intro scope flags value converted e env' h
    exact h.spares

/-- The assignment of an integer, given as an expression, to a variable of a new shell. -/
def assignNew (name text : String) : Except AssignError Unit × Environment (List String) :=
  (assign name (some text) { integer := true } {} {}).run.run (.new Host.standalone [])

/-- A variable that the expression assigns before it fails stays assigned. -/
theorem failed_quotient_spares_variables :
    ∃ env', assignNew "i" "y = 5, 1 / 0" = (.error (.notInteger "i" "division by zero"), env') ∧
      env'.value? "y" = some "5" ∧
      KeepsAttributes (Environment.new Host.standalone []).scopes env'.scopes ∧
      Guards (Environment.new Host.standalone []).scopes env'.scopes := by
  have hr : (assignNew "i" "y = 5, 1 / 0").1 = .error (.notInteger "i" "division by zero") := by
    decide +kernel
  have hy : (assignNew "i" "y = 5, 1 / 0").2.value? "y" = some "5" := by decide +kernel
  generalize h : assignNew "i" "y = 5, 1 / 0" = r at hr hy
  obtain ⟨r, env'⟩ := r
  cases hr
  obtain ⟨hassign, -, -, hspares⟩ := variables_of_failure (.new Host.standalone []) "i"
  have hf := (hassign _ _ _ _ _ _).mp h
  exact ⟨env', rfl, hy, hspares _ _ _ _ _ _ hf⟩

/-- A failed assignment can leave a variable that did not exist before. -/
theorem not_unchanged_of_failure :
    ¬ ∀ (env : Environment (List String)) name value set unset control e env',
      (assign name value set unset control).run.run env = (.error e, env') →
        env'.scopes = env.scopes := by
  intro hall
  have hr : (assignNew "i" "y = 5, 1 / 0").1 = .error (.notInteger "i" "division by zero") := by
    decide +kernel
  have hy : ((assignNew "i" "y = 5, 1 / 0").2.scopes.get "y").isSome := by decide +kernel
  generalize h : assignNew "i" "y = 5, 1 / 0" = r at hr hy
  obtain ⟨r, env'⟩ := r
  cases hr
  have hs := hall _ _ _ _ _ _ _ env' h
  rw [hs] at hy
  cases hy

/-- The entries of a name in a scope are unset all together. If one of them is read-only then
unsetting fails, and nothing changes. -/
theorem unset_all_or_none (env : Environment η) (name : String) (scope : Scope) :
    let s := env.scopes
    (∀ error, s.unset name scope = .error error ↔
      error = ⟨name⟩ ∧ ∃ i e, s.Selects name scope i e ∧ e.flags.readOnly) ∧
    ((∃ removed s', s.unset name scope = .ok (removed, s') ∧ s.Removes name scope removed s') ↔
      ∀ i e, s.Selects name scope i e → e.flags.readOnly = false) ∧
    (Environment.unset name scope).run.run env =
      match s.unset name scope with
      | .ok (removed, scopes) => (.ok removed, { env with scopes })
      | .error error => (.error error, env) :=
  ⟨fun _ => unset_eq_error_iff, unset_removes_iff env.scopes name scope, run_unset name scope env⟩

end ShellCore.Environment
