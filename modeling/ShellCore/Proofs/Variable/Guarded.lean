import ShellCore.Proofs.Variable.ReadOnly

/-! Scopes that are kept or lent under guards, and what all changes of a stack of tables keep. -/

namespace ShellCore

/-- All entries have been made in local scopes. -/
def Table.AllLocal (t : Table) : Prop := ∀ name e, t.lookup name = some e → e.flags.isLocal

namespace ScopeStack

variable {s s' : ScopeStack} {name : String} {scope : Scope} {f : Entry → Entry} {i : Nat}
  {t : Table} {removed : Option Entry}

/-- Each table is at its level, and exactly the entries above the global table are local. -/
structure WellScoped (s : ScopeStack) : Prop where
  levelled : s.Levelled
  isLocal (i : Nat) (name : String) (e : Entry) :
    s.entryAt i name = some e → e.flags.isLocal = (i != 0)

theorem wellScoped_new : ScopeStack.new.WellScoped := by
  refine ⟨levelled_new, fun i name e he => ?_⟩
  rw [entryAt, ScopeStack.new, tableAt_nil] at he
  split at he <;> cases he

namespace WellScoped

theorem isLocal_of_tableAt (h : s.WellScoped) (ht : s.tableAt i = some t) (name : String) :
    (t.entryOrNew name).flags.isLocal = (i != 0) := by
  rcases hl : t.lookup name with - | e
  · simp [Table.entryOrNew, hl, Table.fresh, h.levelled i t ht]
  · have he : s.entryAt i name = some e := by
      rw [entryAt, ht]
      exact hl
    simp [Table.entryOrNew, hl, h.isLocal i name e he]

theorem isLocal_entryOrNew (h : s.WellScoped) (name : String) (scope : Scope) :
    (s.entryOrNew name scope).flags.isLocal = (s.home name scope != 0) := by
  cases scope with
  | outermost =>
    -- An entry that moves to the global table loses its flag.
    have hg := h.isLocal_of_tableAt (tableAt_zero s) name
    unfold entryOrNew promote home
    dsimp only
    split
    · exact hg
    · split
      · simp [Table.entryOrNew, Entry.removeFlags, SDiff.sdiff, Flags.combine]
      · exact hg
  | innermost => exact h.isLocal_of_tableAt (tableAt_top s) name
  | visible => exact h.isLocal_of_tableAt (tableAt_home s name) name

theorem update (h : s.WellScoped) (hf : ∀ e, (f e).flags = e.flags) :
    (s.update name scope f).WellScoped := by
  refine ⟨sameLevels_update.levelled h.levelled, fun i k e he => ?_⟩
  rw [entryAt_update] at he
  split at he
  · rename_i hk
    split at he
    · rename_i hi
      cases he
      rw [hf, h.isLocal_entryOrNew, hi]
    · split at he
      · cases he
      · exact h.isLocal i k e he
  · exact h.isLocal i k e he

theorem unset (h : s.WellScoped) (hu : s.unset name scope = .ok (removed, s')) :
    s'.WellScoped := by
  refine ⟨(guards_unset hu).levels.levelled h.levelled, fun i k e he => ?_⟩
  rw [entryAt_unset hu] at he
  split at he
  · cases he
  · exact h.isLocal i k e he

theorem pushTable (h : s.WellScoped) (ht : t.AllLocal) : (s.pushTable t).WellScoped := by
  refine ⟨levelled_pushTable h.levelled t, fun i k e he => ?_⟩
  rw [ScopeStack.pushTable, entryAt_cons] at he
  split at he
  · rename_i hi
    rw [ht k e he, hi]
    rfl
  · exact h.isLocal i k e he

theorem push (h : s.WellScoped) : s.push.WellScoped :=
  h.pushTable fun _ _ he => nomatch he

theorem pop (h : s.WellScoped) : s.pop.2.WellScoped := by
  refine ⟨levelled_pop h.levelled, fun i k e he => ?_⟩
  rw [entryAt_pop] at he
  split at he
  · exact h.isLocal i k e he
  · cases he

theorem allLocal_pop (h : s.WellScoped) (ht : s.pop.1 = some t) : t.AllLocal := by
  intro k e he
  have hl := lookup_pop s k
  rw [ht, Option.bind_some, he] at hl
  rw [h.isLocal _ k e hl.symm]
  rfl

end WellScoped

/-- What happens when a guard is dropped. -/
inductive Guard
  /-- The topmost table is popped. -/
  | scope
  /-- The table that has been lent is pushed again, if there was one. -/
  | lent (table : Option Table)

/-- Scopes, with the tables that have been popped from them and the guards that are held, the
latest first. -/
structure Guarded where
  scopes : ScopeStack := .new
  popped : List Table := []
  guards : List Guard := []

inductive Event
  /-- Changes the value of the entry in the scope, which is made if it is missing. -/
  | write (name : String) (scope : Scope) (value : Entry → Option String)
  | unset (name : String) (scope : Scope)
  | push
  | pop
  /-- Pushes one of the tables that have been popped. -/
  | pushTable (n : Nat)
  /-- Pushes a new table and holds a guard that pops it. -/
  | pushScope
  /-- Pops the topmost table and holds a guard that pushes it again. -/
  | lendTop
  /-- Drops the latest guard. -/
  | drop

def Event.run (s : Guarded) : Event → Guarded
  | .write name scope value =>
    { s with scopes := s.scopes.update name scope fun e => { e with value := value e } }
  | .unset name scope =>
    match s.scopes.unset name scope with
    | .ok (_, scopes) => { s with scopes }
    | .error _ => s
  | .push => { s with scopes := s.scopes.push }
  | .pop => { s with scopes := s.scopes.pop.2, popped := s.scopes.pop.1.toList ++ s.popped }
  | .pushTable n =>
    match s.popped[n]? with
    | some t => { s with scopes := s.scopes.pushTable t }
    | none => s
  | .pushScope => { s with scopes := s.scopes.push, guards := .scope :: s.guards }
  | .lendTop => { s with scopes := s.scopes.pop.2, guards := .lent s.scopes.pop.1 :: s.guards }
  | .drop =>
    match s.guards with
    | [] => s
    | .scope :: guards => { s with scopes := s.scopes.pop.2, guards }
    | .lent table :: guards => { s with scopes := s.scopes.giveBack table, guards }

namespace Guarded

variable {s : Guarded}

def run (s : Guarded) (events : List Event) : Guarded := events.foldl Event.run s

/-- The scopes are well-formed, and so will they be when any table comes back to them. -/
structure Sound (s : Guarded) : Prop where
  scopes : s.scopes.WellScoped
  popped (t : Table) : t ∈ s.popped → t.AllLocal
  lent (t : Table) : .lent (some t) ∈ s.guards → t.AllLocal

theorem sound_step (h : s.Sound) (event : Event) : (event.run s).Sound := by
  cases event with
  | write name scope value => exact ⟨h.scopes.update fun _ => rfl, h.popped, h.lent⟩
  | unset name scope =>
    simp only [Event.run]
    split
    · rename_i hu
      exact ⟨h.scopes.unset hu, h.popped, h.lent⟩
    · exact h
  | push => exact ⟨h.scopes.push, h.popped, h.lent⟩
  | pop =>
    refine ⟨h.scopes.pop, fun t ht => ?_, h.lent⟩
    rcases List.mem_append.mp ht with ht | ht
    · exact h.scopes.allLocal_pop (Option.mem_toList.mp ht)
    · exact h.popped t ht
  | pushTable n =>
    simp only [Event.run]
    split
    · rename_i t ht
      exact ⟨h.scopes.pushTable (h.popped t (List.mem_of_getElem? ht)), h.popped, h.lent⟩
    · exact h
  | pushScope =>
    refine ⟨h.scopes.push, h.popped, fun t ht => ?_⟩
    rcases List.mem_cons.mp ht with ht | ht
    · cases ht
    · exact h.lent t ht
  | lendTop =>
    refine ⟨h.scopes.pop, h.popped, fun t ht => ?_⟩
    rcases List.mem_cons.mp ht with ht | ht
    · injection ht with ht
      exact h.scopes.allLocal_pop ht.symm
    · exact h.lent t ht
  | drop =>
    have hl := h.lent
    simp only [Event.run]
    split
    · exact h
    · rename_i guards hg
      rw [hg] at hl
      exact ⟨h.scopes.pop, h.popped, fun t ht => hl t (List.mem_cons_of_mem _ ht)⟩
    · rename_i table guards hg
      rw [hg] at hl
      have hl' : ∀ t, .lent (some t) ∈ guards → t.AllLocal :=
        fun t ht => hl t (List.mem_cons_of_mem _ ht)
      cases table with
      | none => exact ⟨h.scopes, h.popped, hl'⟩
      | some t => exact ⟨h.scopes.pushTable (hl t List.mem_cons_self), h.popped, hl'⟩

theorem sound_run (h : s.Sound) (events : List Event) : (s.run events).Sound := by
  induction events generalizing s with
  | nil => exact h
  | cons event events ih => exact ih (sound_step h event)

theorem sound_new : Sound {} :=
  ⟨wellScoped_new, fun _ ht => absurd ht List.not_mem_nil, fun _ ht => absurd ht List.not_mem_nil⟩

end Guarded

/-- A program whose scopes are all kept or lent under guards. Each guard has a body and is dropped
after it. -/
inductive Program
  | done
  | write (name : String) (scope : Scope) (value : Entry → Option String) (rest : Program)
  | unset (name : String) (scope : Scope) (rest : Program)
  | inScope (body rest : Program)
  | lending (body rest : Program)

namespace Program

variable {s : Guarded}

def events : Program → List Event
  | .done => []
  | .write name scope value rest => .write name scope value :: rest.events
  | .unset name scope rest => .unset name scope :: rest.events
  | .inScope body rest => .pushScope :: (body.events ++ .drop :: rest.events)
  | .lending body rest => .lendTop :: (body.events ++ .drop :: rest.events)

/-- What a program leaves as it was. -/
structure Restores (s s' : Guarded) : Prop where
  depth : s'.scopes.depth = s.scopes.depth
  popped : s'.popped = s.popped
  guards : s'.guards = s.guards

theorem Restores.trans {s' s'' : Guarded} (h : Restores s s') (h' : Restores s' s'') :
    Restores s s'' :=
  ⟨h'.depth.trans h.depth, h'.popped.trans h.popped, h'.guards.trans h.guards⟩

theorem depth_giveBack {s s' : ScopeStack} (h : s'.depth = s.pop.2.depth) :
    (s'.giveBack s.pop.1).depth = s.depth := by
  obtain ⟨l, g⟩ := s
  cases l with
  | nil => exact h
  | cons t l => exact congrArg (· + 1) h

/-- A table that is given back at its old level is the table that was taken off. -/
theorem pop_giveBack {s s' : ScopeStack} (hl : s.Levelled) (h : s'.depth = s.pop.2.depth) :
    (s'.giveBack s.pop.1).pop.1 = s.pop.1 := by
  obtain ⟨l, g⟩ := s
  cases l with
  | nil =>
    have hn : s'.locals = [] := List.eq_nil_of_length_eq_zero (Nat.succ.inj h)
    show s'.pop.1 = none
    rw [ScopeStack.pop, hn]
  | cons t l =>
    have ht : t.level = l.length + 1 := hl _ t (by rw [tableAt_cons, if_pos rfl])
    have hd : s'.depth = t.level := h.trans ht.symm
    show some { t with level := s'.depth } = some t
    rw [hd]

theorem depth_pop_of_push {s s' : ScopeStack} (h : s'.depth = s.push.depth) :
    s'.pop.2.depth = s.depth := by
  obtain ⟨l, g⟩ := s'
  cases l with
  | nil => cases h
  | cons t l => exact Nat.succ.inj h

theorem restores_write (s : Guarded) (name : String) (scope : Scope)
    (value : Entry → Option String) :
    Restores s (Event.run s (.write name scope value)) :=
  ⟨congrArg (· + 1) sameLevels_update.length, rfl, rfl⟩

theorem restores_unset (s : Guarded) (name : String) (scope : Scope) :
    Restores s (Event.run s (.unset name scope)) := by
  simp only [Event.run]
  split
  · rename_i removed scopes hu
    exact ⟨congrArg (· + 1) (guards_unset hu).levels.length, rfl, rfl⟩
  · exact ⟨rfl, rfl, rfl⟩

theorem restores_inScope {s' : Guarded} (h : Restores (Event.run s .pushScope) s') :
    Restores s (Event.run s' .drop) := by
  have hg : s'.guards = .scope :: s.guards := h.guards
  have hd : Event.run s' .drop = { s' with scopes := s'.scopes.pop.2, guards := s.guards } := by
    simp only [Event.run, hg]
  rw [hd]
  exact ⟨depth_pop_of_push h.depth, h.popped, rfl⟩

theorem run_drop_lent {s' : Guarded} (h : Restores (Event.run s .lendTop) s') :
    Event.run s' .drop =
      { s' with scopes := s'.scopes.giveBack s.scopes.pop.1, guards := s.guards } := by
  have hg : s'.guards = .lent s.scopes.pop.1 :: s.guards := h.guards
  simp only [Event.run, hg]

theorem restores_lending {s' : Guarded} (h : Restores (Event.run s .lendTop) s') :
    Restores s (Event.run s' .drop) := by
  rw [run_drop_lent h]
  exact ⟨depth_giveBack h.depth, h.popped, rfl⟩

theorem run_guarded (s : Guarded) (event : Event) (body rest : List Event) :
    s.run (event :: (body ++ .drop :: rest)) =
      (Event.run ((Event.run s event).run body) .drop).run rest := by
  simp only [Guarded.run, List.foldl_cons, List.foldl_append]

theorem restores_run (p : Program) (s : Guarded) : Restores s (s.run p.events) := by
  -- What a body keeps of the guards is what makes the next drop that of its own guard.
  induction p generalizing s with
  | done => exact ⟨rfl, rfl, rfl⟩
  | write name scope value rest ih => exact (restores_write s name scope value).trans (ih _)
  | unset name scope rest ih => exact (restores_unset s name scope).trans (ih _)
  | inScope body rest ihb ihr =>
    rw [events, run_guarded]
    exact (restores_inScope (ihb _)).trans (ihr _)
  | lending body rest ihb ihr =>
    rw [events, run_guarded]
    exact (restores_lending (ihb _)).trans (ihr _)

/-- The table that has been lent is on top again, with its entries and its level. -/
theorem pop_run_lending (hl : s.scopes.Levelled) (body : Program) :
    (s.run (Program.lending body .done).events).scopes.pop.1 = s.scopes.pop.1 := by
  have hb := restores_run body (Event.run s .lendTop)
  rw [events, run_guarded, run_drop_lent hb]
  exact pop_giveBack hl hb.depth

end Program

/-- In every state that the changes and guards lead to, each table is at the level that it says,
and the local entries are those above the global table. From any such state, also inside a program,
a program under guards ends at the depth that it starts at, and a table that is lent to one comes
back as it was. -/
theorem wellScoped_after (events : List Event) :
    let s := Guarded.run {} events
    s.scopes.tables ≠ [] ∧ (∀ i t, s.scopes.tableAt i = some t → t.level = i) ∧
      (∀ i name e, s.scopes.entryAt i name = some e → (e.flags.isLocal ↔ i ≠ 0)) ∧
      ∀ p : Program, (s.run p.events).scopes.depth = s.scopes.depth ∧
        (s.run (Program.lending p .done).events).scopes.pop.1 = s.scopes.pop.1 := by
  intro s
  have hs : s.Sound := Guarded.sound_run Guarded.sound_new events
  refine ⟨List.append_ne_nil_of_right_ne_nil _ (List.cons_ne_nil _ _), hs.scopes.levelled,
    fun i name e he => ?_, fun p => ⟨(Program.restores_run p s).depth,
      Program.pop_run_lending hs.scopes.levelled p⟩⟩
  rw [hs.scopes.isLocal i name e he]
  simp

end ScopeStack

end ShellCore
