import ShellCore.Variable.ScopeStack

/-! Operations that reach no further down than the scopes that are pushed for them. -/

namespace ShellCore.ScopeStack

variable {s : ScopeStack}

/-- An operation on the topmost table. -/
inductive LocalOp
  /-- Changes the entry of the innermost scope, which is made if it is missing. -/
  | update (name : String) (f : Entry → Entry)
  | unset (name : String)
  /-- Changes the entry of the table itself, which is made if it is missing. -/
  | add (name : String) (f : Entry → Entry)
  | insert (name : String) (e : Entry)
  | remove (name : String)
  /-- Changes the entry of the table itself, if there is one. -/
  | modify (name : String) (f : Entry → Entry)

def LocalOp.run (s : ScopeStack) : LocalOp → ScopeStack
  | .update name f => s.update name .innermost f
  | .unset name =>
    match s.unset name .innermost with
    | .ok (_, s') => s'
    | .error _ => s
  | .add name f => s.mapTop (·.update name f)
  | .insert name e => s.mapTop (·.insert name e)
  | .remove name => s.mapTop (·.remove name)
  | .modify name f => s.mapTop (·.modify name f)

theorem LocalOp.exists_mapTop (s : ScopeStack) (op : LocalOp) : ∃ f, op.run s = s.mapTop f := by
  cases op with
  | update name f => exact ⟨(·.update name f), rfl⟩
  | unset name =>
    simp only [run, ScopeStack.unset]
    split
    · rename_i h
      split at h <;> cases h
      exact ⟨(·.remove name), rfl⟩
    · obtain ⟨l, g⟩ := s
      exact ⟨id, by cases l <;> rfl⟩
  | add name f => exact ⟨(·.update name f), rfl⟩
  | insert name e => exact ⟨(·.insert name e), rfl⟩
  | remove name => exact ⟨(·.remove name), rfl⟩
  | modify name f => exact ⟨(·.modify name f), rfl⟩

/-- What happens while a scope is kept by a guard. -/
inductive Action
  | op (op : LocalOp)
  /-- Pushes a new table and holds one more guard, which pops it. -/
  | pushScope
  /-- Drops the latest of the guards that are held inside. -/
  | drop

/-- The tables while one guard is held and others inside it. -/
structure Kept where
  scopes : ScopeStack
  inner : Nat := 0

namespace Kept

variable {k : Kept}

def step (k : Kept) : Action → Kept
  | .op op => { k with scopes := op.run k.scopes }
  | .pushScope => ⟨k.scopes.push, k.inner + 1⟩
  | .drop =>
    match k.inner with
    | 0 => k
    | inner + 1 => ⟨k.scopes.pop.2, inner⟩

def run (k : Kept) (actions : List Action) : Kept := actions.foldl step k

/-- The tables that the guards keep, the innermost first. -/
def own (k : Kept) : List Table := k.scopes.locals.take (k.inner + 1)

/-- Each guard keeps one table, and below these lie those of `s`. -/
def Above (s : ScopeStack) (k : Kept) : Prop :=
  ∃ own, own.length = k.inner + 1 ∧ k.scopes = ⟨own ++ s.locals, s.globals⟩

theorem above_push (s : ScopeStack) : Above s ⟨s.push, 0⟩ := ⟨[.new s.depth], rfl, rfl⟩

theorem above_step (h : Above s k) (action : Action) : Above s (k.step action) := by
  obtain ⟨scopes, inner⟩ := k
  obtain ⟨own, hl, rfl⟩ := h
  -- The first guard is never dropped here, so there is a topmost table of one's own.
  obtain ⟨t, own, rfl⟩ := List.exists_cons_of_length_eq_add_one hl
  cases action with
  | op op =>
    obtain ⟨f, hf⟩ := op.exists_mapTop ⟨t :: own ++ s.locals, s.globals⟩
    exact ⟨f t :: own, hl, hf⟩
  | pushScope => exact ⟨_ :: t :: own, congrArg (· + 1) hl, rfl⟩
  | drop =>
    cases inner with
    | zero => exact ⟨t :: own, hl, rfl⟩
    | succ inner => exact ⟨own, Nat.succ.inj hl, rfl⟩

theorem above_run (h : Above s k) (actions : List Action) : Above s (k.run actions) := by
  induction actions generalizing k with
  | nil => exact h
  | cons action actions ih => exact ih (above_step h action)

theorem Above.own_eq (h : Above s k) :
    k.own.length = k.inner + 1 ∧ k.scopes = ⟨k.own ++ s.locals, s.globals⟩ := by
  obtain ⟨own, hl, hk⟩ := h
  have ho : k.own = own := by rw [Kept.own, hk, ← hl, List.take_left]
  rw [ho]
  exact ⟨hl, hk⟩

theorem Above.pop (h : Above s k) (hi : k.inner = 0) : k.scopes.pop.2 = s := by
  obtain ⟨own, hl, hk⟩ := h
  obtain ⟨t, rfl⟩ := List.length_eq_one_iff.mp (hi ▸ hl)
  rw [hk]
  rfl

theorem inner_run_drop (k : Kept) : (k.run (List.replicate k.inner .drop)).inner = 0 := by
  obtain ⟨scopes, inner⟩ := k
  induction inner generalizing scopes with
  | zero => rfl
  | succ inner ih => exact ih scopes.pop.2

end Kept

/-- Whatever is done to the innermost scope while a guard keeps one, and in scopes that are pushed
inside, a name has the innermost of the entries made there, or else the one that it had before. The
tables below are as they were, and are all that is left when the guards have been dropped. -/
theorem own_scopes_leave_no_trace (s : ScopeStack) (actions : List Action) :
    let k := Kept.run ⟨s.push, 0⟩ actions
    k.own.length = k.inner + 1 ∧ k.scopes.tables = k.own ++ s.tables ∧
      (∀ name, k.scopes.get name = (k.own.findSome? (·.lookup name)).or (s.get name)) ∧
      (k.run (List.replicate k.inner .drop)).scopes.pop.2 = s := by
  intro k
  have hk : Kept.Above s k := Kept.above_run (Kept.above_push s) actions
  obtain ⟨hl, hs⟩ := hk.own_eq
  have ht : k.scopes.tables = k.own ++ s.tables := by
    rw [hs]
    exact List.append_assoc k.own s.locals [s.globals]
  refine ⟨hl, ht, fun name => ?_, (Kept.above_run hk _).pop k.inner_run_drop⟩
  rw [get, ht, List.findSome?_append]
  rfl

end ShellCore.ScopeStack
