import ShellCore.Environment.Arithmetic
import ShellCore.Proofs.Arith.Effect
import ShellCore.Proofs.Variable.ReadOnly

/-! What assignments and evaluations do to the variables. -/

namespace ShellCore

/-- The variables before and after are related, and the host is the same. -/
structure Environment.Relates {η : Type} (R : ScopeStack → ScopeStack → Prop)
    (env env' : Environment η) : Prop where
  scopes : R env.scopes env'.scopes
  host : env'.host = env.host

namespace Environment

open ScopeStack

variable {η α : Type} {R : ScopeStack → ScopeStack → Prop} {name : String} {scope : Scope}
  {flags set unset : Flags} {control : SetControl} {value : Option String}
  {evaluate : Evaluator η} {env : Environment η}

instance [Std.Refl R] : Std.Refl (Relates (η := η) R) :=
  ⟨fun env => ⟨Std.Refl.refl env.scopes, rfl⟩⟩

instance [Trans R R R] : Trans (Relates (η := η) R) (Relates R) (Relates R) :=
  ⟨fun h h' => ⟨Trans.trans h.scopes h'.scopes, h'.host.trans h.host⟩⟩

/-- An evaluation does nothing to the variables but grow their tables. -/
def Evaluator.Grows (evaluate : Evaluator η) : Prop :=
  ∀ text env, Relates ScopeStack.Grows env (evaluate text env).2

theorem maintains_callHost [Std.Refl R] {ε : Type} (service : Host η → StateM η α) :
    Maintains (Relates R) (ExceptT.lift (callHost service) : ExceptT ε (ShellM η) α) :=
  .lift fun env => ⟨Std.Refl.refl env.scopes, rfl⟩

theorem maintains_convert [Std.Refl R] [Trans R R R]
    (he : ∀ text env, Relates R env (evaluate text env).2) (name : String) (flags : Flags)
    (value : Option String) : Maintains (Relates R) (convert evaluate name flags value) := by
  unfold convert
  split
  · exact maintains_callHost _
  · split
    · exact .pure _
    · split
      · split
        · exact .pure _
        · refine .bind (.lift (he _)) fun r => ?_
          cases r with
          | ok n => exact .pure _
          | error message => exact .throw _
      · exact .pure _

/-- Text for a variable with the flags is an expression. -/
structure Evaluates (flags : Flags) : Prop where
  special : flags.special = false
  allCaps : flags.allCaps = false
  allSmall : flags.allSmall = false
  integer : flags.integer = true

theorem run_convert_of_evaluates (hf : Evaluates flags) (text : String) (env : Environment η) :
    (convert evaluate name flags (some text)).run.run env =
      match evaluate text env with
      | (.ok n, env') => (.ok (.store (some (Decimal.text n.toInt))), env')
      | (.error message, env') => (.error (.notInteger name message), env') := by
  unfold convert
  rw [hf.special, hf.allCaps, hf.allSmall, hf.integer, if_neg Bool.false_ne_true, Bool.or_self,
    if_neg Bool.false_ne_true, if_pos rfl]
  rcases he : evaluate text env with ⟨r, env'⟩
  dsimp only
  rw [run_bind_of_ok (run_lift he)]
  cases r <;> rfl

/-- A conversion fails only as an expression does. -/
theorem exists_of_run_convert_eq_error {e : AssignError} {env' : Environment η}
    (h : (convert evaluate name flags value).run.run env = (.error e, env')) :
    Evaluates flags ∧ ∃ text message, value = some text ∧
      evaluate text env = (.error message, env') ∧ e = .notInteger name message := by
  have hc := h
  unfold convert at h
  split at h
  · cases h
  · rename_i hs
    split at h
    · cases h
    · rename_i hl
      split at h
      · rename_i hi
        simp only [Bool.or_eq_true, not_or, Bool.not_eq_true] at hs hl
        have hf : Evaluates flags := ⟨hs, hl.1, hl.2, hi⟩
        cases value with
        | none => cases h
        | some text =>
          refine ⟨hf, text, ?_⟩
          rw [run_convert_of_evaluates hf] at hc
          rcases he : evaluate text env with ⟨r, env1⟩
          rw [he] at hc
          cases r with
          | ok n => cases hc
          | error message =>
            cases hc
            exact ⟨message, rfl, rfl, rfl⟩
      · cases h

@[simp] theorem readOnly_changeFlags (flags set unset : Flags) :
    (changeFlags flags set unset).readOnly = (flags.readOnly || set.readOnly) := by
  simp [changeFlags]

theorem eq_of_assign {e e' : Entry} {old : Option String}
    (h : e.assign name value = .ok (old, e')) :
    e.flags.readOnly = false ∧ e' = { e with value } := by
  unfold Entry.assign at h
  split at h
  · cases h
  · rename_i hr
    cases h
    exact ⟨by simpa using hr, rfl⟩

theorem run_store (name : String) (scope : Scope) (flags : Flags) (value : Option String)
    (env : Environment η) :
    (store name scope flags value).run.run env =
      match (env.scopes.entryOrNew name scope).assign name value with
      | .error e => (.error e, updateVariable name scope id env)
      | .ok (_, e) =>
        (.ok (), if flags.special && name == optIndex
          then restartScan scope (updateVariable name scope (fun _ => e) env)
          else updateVariable name scope (fun _ => e) env) := by
  show (ExceptT.run (match (env.scopes.entryOrNew name scope).assign name value with
    | .error e => do
      modify (updateVariable name scope id)
      throw e
    | .ok (_, e) => do
      modify (updateVariable name scope fun _ => e)
      if flags.special && name == optIndex then modify (restartScan scope) :
      ExceptT AssignError (ShellM η) Unit)).run env = _
  cases (env.scopes.entryOrNew name scope).assign name value with
  | error e => rfl
  | ok p =>
    cases hs : flags.special && name == optIndex with
    | true =>
      simp only [if_true]
      rfl
    | false => rfl

/-- What is left of an assignment once its value is known. -/
def conclude (name : String) (scope : Scope) (flags set unset : Flags) (converted : SpecialAssign) :
    ExceptT AssignError (ShellM η) Unit := do
  modify (declareIn name scope (set \ { readOnly := true }) unset)
  storeConverted name scope flags converted
  if set.readOnly then modify (updateVariable name scope (·.addFlags { readOnly := true }))

/-- The value that is converted for an assignment. -/
def assignedValue (env : Environment η) (name : String) (value : Option String)
    (control : SetControl) : Option String :=
  if control.append then value.map (env.appendBase name control.scope ++ ·) else value

/-- The flags that decide how the value is converted. -/
def assignedFlags (env : Environment η) (name : String) (set unset : Flags)
    (control : SetControl) : Flags :=
  changeFlags (env.targetFlags name control.scope) (set \ { readOnly := true }) unset

theorem run_assignWith (evaluate : Evaluator η) (name : String) (value : Option String)
    (set unset : Flags) (control : SetControl) (env : Environment η) :
    (assignWith evaluate name value set unset control).run.run env =
      if env.refuses name control.scope then (.error (.readOnly name value), env)
      else (convert evaluate name (env.assignedFlags name set unset control)
          (env.assignedValue name value control) >>=
        conclude name control.scope (env.assignedFlags name set unset control) set unset).run.run
          env := by
  show (ExceptT.run (if env.refuses name control.scope then _ else _ :
    ExceptT AssignError (ShellM η) Unit)).run env = _
  split
  · rfl
  · rfl

/-- The relation holds across changes of these names in the scope that touch neither the read-only
flag of an entry nor the value of a read-only one. -/
def Tolerates (R : ScopeStack → ScopeStack → Prop) (P : String → Prop) (scope : Scope) : Prop :=
  ∀ (s : ScopeStack) (name : String) (f : Entry → Entry), P name →
    (f (s.entryOrNew name scope)).sealed = (s.entryOrNew name scope).sealed →
    R s (s.update name scope f)

namespace Tolerates

variable {P : String → Prop} (h : Tolerates R P scope)

include h

theorem declareIn (hn : P name) (hs : set.readOnly = false) (env : Environment η) :
    Relates R env (declareIn name scope set unset env) :=
  ⟨h env.scopes name _ hn (by simp [Entry.sealed, hs]), rfl⟩

theorem restartScan (ho : P optOffset) (env : Environment η) :
    Relates R env (restartScan scope env) := by
  refine ⟨h env.scopes optOffset _ ho ?_, rfl⟩
  split
  · rfl
  · rename_i hr
    simp [Entry.sealed, hr]

theorem store [Trans R R R] (hn : P name)
    (ho : flags.special → name = optIndex → P optOffset) (value : Option String) :
    Maintains (Relates R) (store name scope flags value : ExceptT AssignError (ShellM η) Unit) := by
  intro env
  rw [run_store]
  rcases ha : (env.scopes.entryOrNew name scope).assign name value with e | ⟨old, e⟩
  · exact ⟨h env.scopes name id hn rfl, rfl⟩
  · have he : e.sealed = (env.scopes.entryOrNew name scope).sealed := by
      obtain ⟨hr, rfl⟩ := eq_of_assign ha
      simp [Entry.sealed, hr]
    have hu : Relates R env (updateVariable name scope (fun _ => e) env) :=
      ⟨h env.scopes name (fun _ => e) hn he, rfl⟩
    dsimp only
    split
    · rename_i hs
      rw [Bool.and_eq_true, beq_iff_eq] at hs
      exact Trans.trans hu (h.restartScan (ho hs.1 hs.2) _)
    · exact hu

theorem storeConverted [Std.Refl R] [Trans R R R] (hn : P name) {converted : SpecialAssign}
    (ho : converted ≠ .keep → flags.special → name = optIndex → P optOffset) :
    Maintains (Relates R)
      (storeConverted name scope flags converted : ExceptT AssignError (ShellM η) Unit) := by
  cases converted with
  | store value => exact h.store hn (ho nofun) value
  | keep => exact .pure ()

theorem conclude [Std.Refl R] [Trans R R R] (hn : P name) {converted : SpecialAssign}
    (ho : converted ≠ .keep → flags.special → name = optIndex → P optOffset)
    (hs : set.readOnly → ∀ s : ScopeStack,
      R s (s.update name scope (·.addFlags { readOnly := true }))) :
    Maintains (Relates R) (conclude name scope flags set unset converted :
      ExceptT AssignError (ShellM η) Unit) := by
  refine .bind (.modify fun env => ?_) fun _ => .bind (h.storeConverted hn ho) fun _ => ?_
  · exact h.declareIn hn (by simp) env
  · split
    · rename_i hr
      exact .modify fun env => ⟨hs hr env.scopes, rfl⟩
    · exact .pure _

end Tolerates

theorem tolerates_grows : Tolerates ScopeStack.Grows (fun _ => True) .visible :=
  fun _ _ _ _ hf => grows_update hf

/-- An assignment that makes nothing read-only, in the scope of the visible entry. -/
theorem maintains_assignWith (he : evaluate.Grows) (hc : control.scope = .visible)
    (hs : set.readOnly = false) (name : String) (value : Option String) (unset : Flags) :
    Maintains (Relates ScopeStack.Grows) (assignWith evaluate name value set unset control) := by
  intro env
  rw [run_assignWith, hc]
  split
  · exact Std.Refl.refl env
  · refine Maintains.bind (maintains_convert he name _ _) (fun converted => ?_) env
    refine tolerates_grows.conclude trivial (fun _ _ _ => trivial) fun hr => ?_
    rw [hs] at hr
    cases hr

theorem grows_closedEvaluator : (closedEvaluator (η := η)).Grows :=
  fun _ env => Std.Refl.refl env

theorem access_keeps : (access (η := η)).Keeps (Relates ScopeStack.Grows) where
  get name env := by
    unfold access
    dsimp only
    split <;> exact Std.Refl.refl env
  assign name value span env :=
    maintains_assignWith grows_closedEvaluator rfl rfl name (some value) _ env
  expandWord text env := ⟨Std.Refl.refl env.scopes, rfl⟩
  substituteCommand text env := ⟨Std.Refl.refl env.scopes, rfl⟩
  setExitStatus status env := ⟨Std.Refl.refl env.scopes, rfl⟩

theorem grows_evaluator : (evaluator (η := η)).Grows :=
  fun text env => access_keeps.evaluateInteger text env

theorem maintains_assign_visible (name value : String) :
    Maintains (Relates ScopeStack.Grows)
      (assign name (some value) {} {} {} : ExceptT AssignError (ShellM η) Unit) :=
  maintains_assignWith grows_evaluator rfl rfl name (some value) {}

/-- These names hide nothing in the scope, and while that is so the read-only entries stay. -/
def Safe (P : String → Prop) (scope : Scope) (s s' : ScopeStack) : Prop :=
  (∀ n, P n → ¬ s.Hides n scope) → Guards s s' ∧ ∀ n, P n → ¬ s'.Hides n scope

instance {P : String → Prop} : Std.Refl (Safe P scope) := ⟨fun s hs => ⟨Std.Refl.refl s, hs⟩⟩

instance {P : String → Prop} : Trans (Safe P scope) (Safe P scope) (Safe P scope) where
  trans h h' hs := by
    obtain ⟨hg, hs'⟩ := h hs
    obtain ⟨hg', hs''⟩ := h' hs'
    exact ⟨Trans.trans hg hg', hs''⟩

theorem safe_update {P : String → Prop} {s : ScopeStack} {f : Entry → Entry} (hn : P name)
    (hf : ∀ v, (s.entryOrNew name scope).sealed = some v →
      (f (s.entryOrNew name scope)).sealed = some v) :
    Safe P scope s (s.update name scope f) := by
  intro hs
  refine ⟨guards_update (hs name hn) hf, fun n hp => ?_⟩
  by_cases hk : n = name
  · subst hk
    exact not_hides_update
  · rw [hides_congr sameLevels_update.length (entryAt_update_other hk)]
    exact hs n hp

theorem tolerates_safe (P : String → Prop) (scope : Scope) : Tolerates (Safe P scope) P scope :=
  fun _ _ _ hn hf => safe_update hn fun _ hv => hf.trans hv

end Environment

end ShellCore
