import ShellCore.Proofs.Variable.Confinement

/-! Which entry a change in a scope finds or makes, and where it leaves the entry. -/

namespace ShellCore.ScopeStack

variable {s s' : ScopeStack} {name : String} {scope : Scope}

/-- Of the name, `s'` has the entry where the scope puts it. In the other tables it has what `s`
has, unless the scope is the global one, which leaves no other entry of the name. -/
def Puts (s : ScopeStack) (name : String) (scope : Scope) (e : Entry) (s' : ScopeStack) : Prop :=
  match scope with
  | .outermost => ∀ i, s'.entryAt i name = if i = 0 then some e else none
  | .innermost => ∀ i, s'.entryAt i name = if i + 1 = s.depth then some e else s.entryAt i name
  | .visible => ∃ i, s.IsHome i name ∧
      ∀ j, s'.entryAt j name = if j = i then some e else s.entryAt j name

theorem puts_update (s : ScopeStack) (name : String) (scope : Scope) (f : Entry → Entry) :
    s.Puts name scope (f (s.entryOrNew name scope)) (s.update name scope f) := by
  cases scope with
  | outermost =>
    intro i
    rw [entryAt_update, if_pos rfl, if_pos rfl]
    rfl
  | innermost =>
    intro i
    rw [entryAt_update, if_pos rfl, if_neg innermost_ne_outermost]
    by_cases hi : i = s.locals.length <;> simp [home, depth, hi]
  | visible =>
    refine ⟨s.home name .visible, isHome_iff.mpr rfl, fun j => ?_⟩
    rw [entryAt_update, if_pos rfl, if_neg visible_ne_outermost]

/-- The global entry stays, and is else the one that was visible. -/
theorem entryOrNew_outermost (s : ScopeStack) (name : String) :
    (∀ e, s.entryAt 0 name = some e → s.entryOrNew name .outermost = e) ∧
      ∀ i e, s.entryAt 0 name = none → s.entryAt i name = some e → s.Unhidden i name →
        s.entryOrNew name .outermost = e.removeFlags { isLocal := true } := by
  constructor
  · intro e he
    have hh : s.entryAt (s.home name .outermost) name = some e := he
    exact entryOrNew_of_entryAt_home hh
  · intro i e hn he hu
    have hg : s.get name = some e := get_eq_some_iff.mpr ⟨i, he, hu⟩
    have hs : s.getScoped name .outermost = some e := by
      rw [getScoped, lookup_globals, hn, hg, Option.none_or]
    rw [entryOrNew_of_getScoped hs, if_pos ⟨rfl, hn⟩]

theorem fresh_of_getScoped_eq_none (h : s.Levelled) (hn : s.getScoped name scope = none) :
    s.entryOrNew name scope = { flags := { isLocal := s.home name scope != 0 } } := by
  obtain ⟨t, ht, he⟩ := entryOrNew_of_getScoped_eq_none hn
  rw [he, Table.fresh, h _ t ht]

/-- Looking a name up in a scope finds what a change in the scope starts from, or nothing where the
change makes the entry. The change leaves the entry, which is then visible, where the scope puts it,
and touches neither other names nor the tables themselves. -/
theorem scoped_change {s : ScopeStack} (h : s.Levelled) (name : String) (scope : Scope)
    (f : Entry → Entry) :
    (∀ e, s.getScoped name scope = some e → s.entryOrNew name scope =
      if scope = .outermost ∧ s.entryAt 0 name = none then e.removeFlags { isLocal := true }
      else e) ∧
    (s.getScoped name scope = none ↔ s.entryAt (s.home name scope) name = none ∧
      (scope = .outermost → ∀ i, s.entryAt i name = none)) ∧
    (s.getScoped name scope = none →
      s.entryOrNew name scope = { flags := { isLocal := s.home name scope != 0 } }) ∧
    (∀ e, s.entryAt 0 name = some e → s.entryOrNew name .outermost = e) ∧
    (∀ i e, s.entryAt 0 name = none → s.entryAt i name = some e → s.Unhidden i name →
      s.entryOrNew name .outermost = e.removeFlags { isLocal := true }) ∧
    s.Puts name scope (f (s.entryOrNew name scope)) (s.update name scope f) ∧
    (s.update name scope f).get name = some (f (s.entryOrNew name scope)) ∧
    (∀ i k, k ≠ name → (s.update name scope f).entryAt i k = s.entryAt i k) ∧
    (s.update name scope f).depth = s.depth ∧ s.SameLevels (s.update name scope f) ∧
    (s.update name scope f).Levelled := by
  have hl : s.SameLevels (s.update name scope f) := sameLevels_update
  obtain ⟨hglobal, hpromoted⟩ := entryOrNew_outermost s name
  refine ⟨fun e he => entryOrNew_of_getScoped he, getScoped_eq_none_iff,
    fresh_of_getScoped_eq_none h, hglobal, hpromoted, puts_update s name scope f, get_update,
    fun i k hk => entryAt_update_other hk i, congrArg (· + 1) hl.length, hl, hl.levelled h⟩

/-- The upper one of two local entries becomes the global one. -/
theorem scoped_change_promotes :
    let set := fun value (s : ScopeStack) =>
      s.push.update "x" .innermost fun e => { e with value := some value }
    let s := set "2" (set "1" .new)
    s.Levelled ∧ s.getScoped "x" .outermost = some ⟨some "2", .plain, { isLocal := true }⟩ ∧
      (s.update "x" .outermost id).get "x" = some ⟨some "2", .plain, {}⟩ := by
  intro set s
  have hset : ∀ value s, Levelled s → (set value s).Levelled := fun value s hs =>
    sameLevels_update.levelled (levelled_pushTable hs (.new s.depth))
  have hs : s.Levelled := hset "2" _ (hset "1" _ levelled_new)
  have hfound : s.getScoped "x" .outermost = some ⟨some "2", .plain, { isLocal := true }⟩ := rfl
  obtain ⟨hstart, -, -, -, -, -, hvisible, -⟩ := scoped_change hs "x" .outermost id
  refine ⟨hs, hfound, ?_⟩
  rw [hvisible, hstart _ hfound]
  rfl

end ShellCore.ScopeStack
