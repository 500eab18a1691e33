import ShellCore.Proofs.Builtin.Invocation

/-! Read-only variables over whole runs of a shell. -/

namespace ShellCore

open ScopeStack

variable {η : Type} {env : Environment η}

/-- What a script can do to its variables without a reset of read-only flags. -/
inductive Op
  | assign (name : String) (value : Option String) (added removed : Flags) (control : SetControl)
  | assignValue (name : String) (scope : Scope) (value : Option String)
  | declare (name : String) (added removed : Flags) (control : SetControl)
  | unset (name : String) (scope : Scope)
  | expandArithmetic (text : String)
  | getopts (args : List String)
  | push
  | pop

namespace Op

/-- The state after the operation, whether it succeeds or not. -/
def run : Op → Environment η → Environment η
  | .assign name value added removed control, env =>
    ((Environment.assign name value added removed control).run.run env).2
  | .assignValue name scope value, env =>
    ((Environment.assignValue name scope value).run.run env).2
  | .declare name added removed control, env =>
    ((Environment.declare name added removed control).run.run env).2
  | .unset name scope, env => ((Environment.unset name scope).run.run env).2
  | .expandArithmetic text, env => ((Environment.expandArithmetic text).run.run env).2
  | .getopts args, env => (Builtin.invoke Builtin.Getopts.main args env).2
  | .push, env => env.mapScopes ScopeStack.push
  | .pop, env => env.mapScopes (·.pop.2)

/-- The operation assigns the option index in a scope where that loses a read-only option offset. -/
def Exposes (env : Environment η) : Op → Prop
  | .assign name value added removed control =>
    env.Exposes name control.scope (env.assignedFlags name added removed control)
      (env.assignedValue name value control)
  | .assignValue name scope value => env.Exposes name scope (env.targetFlags name scope) value
  | _ => False

end Op

/-- Everything that a program can get to. It may change entries, settings and the host at will. -/
inductive Reachable : Environment η → Prop
  | new (host : Host η) (hostState : η) : Reachable (.new host hostState)
  | run {env : Environment η} (h : Reachable env) (op : Op) : Reachable (op.run env)
  | giveBack {env : Environment η} (h : Reachable env) (t : Table) :
    Reachable (env.mapScopes (·.pushTable t))
  | change {env env' : Environment η} (h : Reachable env) (hl : env.scopes.SameLevels env'.scopes) :
    Reachable env'

/-- The state after some of the operations. -/
def after (env : Environment η) (ops : List Op) (n : Nat) : Environment η :=
  (ops.take n).foldl (fun env op => op.run env) env

/-- Between any two moments of the run, the tables that stay keep their read-only entries. -/
def Protected (env : Environment η) (ops : List Op) : Prop :=
  ∀ n m i, n ≤ m → (∀ j, n ≤ j → j ≤ m → i < (after env ops j).scopes.depth) →
    Keeps i (after env ops n).scopes (after env ops m).scopes

theorem keeps_push (s : ScopeStack) (i : Nat) : Keeps i s s.push := by
  intro name v hv
  exact keeps_of_entryAt (fun j => entryAt_push s j name) hv

theorem keeps_pop {s : ScopeStack} {i : Nat} (hi : i < s.pop.2.depth) : Keeps i s s.pop.2 := by
  intro name v hv
  refine ⟨?_, fun hu j hj => ?_⟩
  · rw [sealed, entryAt, tableAt_pop hi]
    exact hv
  · rcases Nat.lt_or_ge j s.pop.2.depth with hlt | hge
    · rw [entryAt, tableAt_pop hlt]
      exact hu j hj
    · rw [entryAt, tableAt_eq_none (Nat.lt_of_succ_le hge)]
      rfl

theorem levelled_run (op : Op) (h : env.scopes.Levelled) : (op.run env).scopes.Levelled := by
  cases op with
  | assign name value added removed control =>
    have hs := Environment.maintains_assign_sameLevels name value added removed control env
    exact hs.scopes.levelled h
  | assignValue name scope value =>
    exact (Environment.maintains_assignValue_sameLevels name scope value env).scopes.levelled h
  | declare name set unset control =>
    exact (Environment.maintains_declare_sameLevels name set unset control env).scopes.levelled h
  | unset name scope => exact (Environment.maintains_unset name scope env).scopes.levels.levelled h
  | expandArithmetic text =>
    exact (Environment.maintains_expandArithmetic text env).scopes.levels.levelled h
  | getopts args => exact (Builtin.Getopts.guards_invoke_main args env).levels.levelled h
  | push => exact levelled_pushTable h _
  | pop => exact levelled_pop h

theorem Reachable.levelled (h : Reachable env) : env.scopes.Levelled := by
  induction h with
  | new host hostState => exact SameLevels.levelled sameLevels_update levelled_new
  | run _ op ih => exact levelled_run op ih
  | giveBack _ t ih => exact levelled_pushTable ih t
  | change _ hl ih => exact hl.levelled ih

/-- One operation keeps the read-only entries unless it assigns the option index where that loses
the option offset. -/
theorem keeps_run {op : Op} {i : Nat} (hl : env.scopes.Levelled) (hx : ¬ op.Exposes env)
    (hi : i < (op.run env).scopes.depth) : Keeps i env.scopes (op.run env).scopes := by
  cases op with
  | assign name value added removed control => exact (Environment.guards_assign hl hx).keeps i
  | assignValue name scope value => exact (Environment.guards_assignValue hl hx).keeps i
  | declare name set unset control => exact (Environment.guards_declare hl).keeps i
  | unset name scope => exact (Environment.maintains_unset name scope env).scopes.keeps i
  | expandArithmetic text =>
    exact (Environment.maintains_expandArithmetic text env).scopes.guards.keeps i
  | getopts args => exact (Builtin.Getopts.guards_invoke_main args env).keeps i
  | push => exact keeps_push env.scopes i
  | pop => exact keeps_pop hi

theorem loses_run {op : Op} (hl : env.scopes.Levelled) (hx : op.Exposes env) :
    ∃ i, i < env.scopes.depth ∧ i < (op.run env).scopes.depth ∧
      ¬ Keeps i env.scopes (op.run env).scopes := by
  cases op with
  | assign name value added removed control =>
    obtain ⟨i, hi, hk⟩ := Environment.loses_assign hl hx
    have hs := (Environment.maintains_assign_sameLevels name value added removed control env).scopes
    have hd : (Op.run (.assign name value added removed control) env).scopes.depth =
        env.scopes.depth := congrArg (· + 1) hs.length
    exact ⟨i, hi, hd ▸ hi, hk⟩
  | assignValue name scope value =>
    obtain ⟨i, hi, hk⟩ := Environment.loses_assignValue hl hx
    have hs := (Environment.maintains_assignValue_sameLevels name scope value env).scopes
    have hd : (Op.run (.assignValue name scope value) env).scopes.depth =
        env.scopes.depth := congrArg (· + 1) hs.length
    exact ⟨i, hi, hd ▸ hi, hk⟩
  | declare | unset | expandArithmetic | getopts | push | pop => exact hx.elim

theorem after_succ (env : Environment η) (ops : List Op) (n : Nat) :
    after env ops (n + 1) =
      match ops[n]? with
      | some op => op.run (after env ops n)
      | none => after env ops n := by
  unfold after
  rw [List.take_add_one, List.foldl_append]
  cases ops[n]? <;> rfl

theorem levelled_after (h : env.scopes.Levelled) (ops : List Op) (n : Nat) :
    (after env ops n).scopes.Levelled := by
  induction n with
  | zero => exact h
  | succ n ih =>
    rw [after_succ]
    cases ops[n]? with
    | none => exact ih
    | some op => exact levelled_run op ih

/-- A run protects the read-only entries of all tables exactly if no step of it assigns the option
index in a scope where that loses a read-only option offset. -/
theorem protected_iff (h : Reachable env) (ops : List Op) :
    Protected env ops ↔
      ∀ (n : Nat) (op : Op), ops[n]? = some op → ¬ op.Exposes (after env ops n) := by
  have hl := levelled_after h.levelled ops
  constructor
  · intro hp n op ho hx
    obtain ⟨i, hi, hi', hk⟩ := loses_run (hl n) hx
    have hs : after env ops (n + 1) = op.run (after env ops n) := by rw [after_succ, ho]
    rw [← hs] at hi' hk
    refine hk (hp n (n + 1) i (Nat.le_succ n) fun j hj hj' => ?_)
    rcases Nat.lt_or_ge n j with hlt | hge
    · have he : j = n + 1 := by omega
      exact he ▸ hi'
    · have he : j = n := by omega
      exact he ▸ hi
  · intro hx n m i hnm hi
    induction hnm with
    | refl => exact Keeps.refl i _
    | @step m hnm ih =>
      have hm := ih fun j hj hj' => hi j hj (Nat.le_succ_of_le hj')
      have hi' := hi (m + 1) (Nat.le_succ_of_le hnm) (Nat.le_refl _)
      refine hm.trans ?_
      rw [after_succ] at hi' ⊢
      cases ho : ops[m]? with
      | none => exact Keeps.refl i _
      | some op =>
        rw [ho] at hi'
        exact keeps_run (hl m) (hx m op ho) hi'

/-- A read-only option offset above the global table, and then an assignment to the option index. -/
def offsetThenIndex (control : SetControl) : List Op :=
  [.push, .assign optOffset (some "5") { readOnly := true } {} { forceNew := true },
    .assign optIndex (some "1") {} {} control]

/-- Assigned where it is visible, the option index leaves the offset as it is. -/
theorem protected_visible_index :
    Protected (.new Host.standalone []) (offsetThenIndex {}) := by
  refine (protected_iff (.new _ _) _).mpr fun n op ho hx => ?_
  rcases n with - | - | - | n
  · cases ho
    exact hx
  · cases ho
    exact absurd hx.name_eq (by decide)
  · cases ho
    cases hx.hides
  · cases ho

/-- Assigned in the global scope, it takes the offset out of its table. -/
theorem not_protected_global_index :
    ¬ Protected (.new Host.standalone []) (offsetThenIndex { outermost := true }) := by
  intro hp
  have hd : ∀ j, 2 ≤ j → j ≤ 3 → 1 < (after (.new Host.standalone [])
      (offsetThenIndex { outermost := true }) j).scopes.depth := by
    intro j hj hj'
    have h : j = 2 ∨ j = 3 := by omega
    rcases h with rfl | rfl
    · decide
    · decide
  have hk := (hp 2 3 1 (by decide) hd optOffset (some "5") rfl).1
  cases hk

end ShellCore
