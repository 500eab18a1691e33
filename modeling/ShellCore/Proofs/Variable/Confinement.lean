import ShellCore.Proofs.Variable.ReadOnly

/-! Changes that are confined to some names, and for each name to one table. -/

namespace ShellCore.ScopeStack

variable {s s' s'' : ScopeStack} {name k : String} {scope : Scope} {f : Entry → Entry} {i : Nat}
  {removed : Option Entry} {names names' : List String}

/-- The table has the visible entry of the name, or is the topmost one if the name has none. -/
def IsHome (s : ScopeStack) (i : Nat) (name : String) : Prop :=
  (∃ e, s.entryAt i name = some e ∧ s.Unhidden i name) ∨
    (∀ j, s.entryAt j name = none) ∧ i + 1 = s.depth

/-- The tables stay. Only entries of these names change, each only in its home. -/
structure Confined (names : List String) (s s' : ScopeStack) : Prop where
  levels : s.SameLevels s'
  entries (i : Nat) (k : String) : s'.entryAt i k ≠ s.entryAt i k → k ∈ names ∧ s.IsHome i k

/-- The home of the name is the same. -/
def SameHome (name : String) (s s' : ScopeStack) : Prop :=
  ∀ i, s'.IsHome i name ↔ s.IsHome i name

theorem isHome_iff : s.IsHome i name ↔ i = s.home name .visible := by
  constructor
  · rintro (⟨e, he, hu⟩ | ⟨hn, hi⟩)
    · exact (home_of_unhidden he hu).symm
    · unfold home
      rcases hp : position name s.globals s.locals with - | p
      · exact Nat.succ.inj hi
      · have hs : (s.entryAt p name).isSome := entryAt_position hp
        rw [hn p] at hs
        cases hs
  · rintro rfl
    unfold home
    rcases hp : position name s.globals s.locals with - | p
    · exact .inr ⟨entryAt_of_position_eq_none hp, rfl⟩
    · obtain ⟨e, he⟩ := Option.isSome_iff_exists.mp (entryAt_position hp)
      exact .inl ⟨e, he, unhidden_position hp⟩

theorem SameHome.refl (name : String) (s : ScopeStack) : SameHome name s s := fun _ => .rfl

theorem SameHome.trans (h : SameHome name s s') (h' : SameHome name s' s'') :
    SameHome name s s'' := fun i => (h' i).trans (h i)

theorem sameHome_of_entryAt (hl : s'.depth = s.depth)
    (he : ∀ i, s'.entryAt i k = s.entryAt i k) : SameHome k s s' := by
  intro i
  simp only [IsHome, Unhidden, he, hl]

theorem Confined.refl (names : List String) (s : ScopeStack) : Confined names s s :=
  ⟨.refl s, fun _ _ h => absurd rfl h⟩

theorem Confined.mono (h : Confined names s s') (hn : names ⊆ names') : Confined names' s s' :=
  ⟨h.levels, fun i k hk => ⟨hn (h.entries i k hk).1, (h.entries i k hk).2⟩⟩

/-- The second change finds its names at home. -/
theorem Confined.trans (h : Confined names s s') (h' : Confined names' s' s'')
    (hh : ∀ k ∈ names', SameHome k s s') : Confined (names ++ names') s s'' := by
  refine ⟨h.levels.trans h'.levels, fun i k hk => ?_⟩
  by_cases he : s''.entryAt i k = s'.entryAt i k
  · obtain ⟨hp, hi⟩ := h.entries i k (he ▸ hk)
    exact ⟨List.mem_append_left names' hp, hi⟩
  · obtain ⟨hq, hi⟩ := h'.entries i k he
    exact ⟨List.mem_append_right names hq, (hh k hq i).mp hi⟩

theorem confined_update : Confined [name] s (s.update name .visible f) := by
  refine ⟨sameLevels_update, fun i k hk => ?_⟩
  rw [entryAt_update, if_neg visible_ne_outermost] at hk
  split at hk
  · rename_i hn
    split at hk
    · rename_i hi
      exact ⟨List.mem_singleton.mpr hn, isHome_iff.mpr (hn ▸ hi)⟩
    · exact absurd rfl hk
  · exact absurd rfl hk

theorem sameHome_update : SameHome k s (s.update name .visible f) := by
  by_cases hk : k = name
  · subst hk
    intro i
    rw [isHome_iff, isHome_iff, home_update]
  · exact sameHome_of_entryAt (congrArg (· + 1) sameLevels_update.length) (entryAt_update_other hk)

theorem confined_unset (h : s.unset name .visible = .ok (removed, s')) :
    Confined [name] s s' := by
  refine ⟨(guards_unset h).levels, fun i k hk => ?_⟩
  rw [entryAt_unset h] at hk
  split at hk
  · rename_i hc
    obtain ⟨rfl, hi⟩ := hc
    exact ⟨List.mem_singleton_self k, isHome_iff.mpr (hi.resolve_left visible_ne_outermost)⟩
  · exact absurd rfl hk

theorem sameHome_unset (h : s.unset name scope = .ok (removed, s')) (hk : k ≠ name) :
    SameHome k s s' := by
  refine sameHome_of_entryAt (congrArg (· + 1) (guards_unset h).levels.length) fun i => ?_
  rw [entryAt_unset h, if_neg fun hc => hk hc.1]

/-- This is the only table that has the name, or no table has it. -/
def Lodged (s : ScopeStack) (name : String) (lodging : Option Nat) : Prop :=
  ∀ i, (s.entryAt i name).isSome ↔ lodging = some i

namespace Lodged

variable {lodging : Option Nat}

theorem position_eq (h : s.Lodged name lodging) :
    position name s.globals s.locals = lodging := by
  rcases hp : position name s.globals s.locals with - | i
  · rcases lodging with - | i
    · rfl
    · have hs := (h i).mpr rfl
      have hn : s.entryAt i name = none := entryAt_of_position_eq_none hp i
      rw [hn] at hs
      cases hs
  · exact ((h i).mp (entryAt_position hp)).symm

theorem get_eq (h : s.Lodged name lodging) : s.get name = lodging.bind (s.entryAt · name) := by
  rw [ScopeStack.get_eq, h.position_eq]

theorem isHome_iff (h : s.Lodged name lodging) :
    s.IsHome i name ↔ i = lodging.getD s.locals.length := by
  rw [ScopeStack.isHome_iff, home, h.position_eq]

/-- A name that no table had gets lodged on top. -/
theorem confined (h : s.Lodged name lodging) (hc : Confined names s s')
    (hs : (s'.get name).isSome) :
    s'.Lodged name (some (lodging.getD s.locals.length)) := by
  have hi : ∀ i, (s'.entryAt i name).isSome → i = lodging.getD s.locals.length := by
    intro i hi
    by_cases he : s'.entryAt i name = s.entryAt i name
    · rw [he, h i] at hi
      rw [hi]
      rfl
    · exact h.isHome_iff.mp (hc.entries i name he).2
  obtain ⟨e, he⟩ := Option.isSome_iff_exists.mp hs
  obtain ⟨j, hj, -⟩ := get_eq_some_iff.mp he
  have hsome : (s'.entryAt j name).isSome := by
    rw [hj]
    rfl
  intro i
  constructor
  · intro hs
    rw [hi i hs]
  · intro hl
    cases hl
    rwa [← hi j hsome]

theorem push (h : s.Lodged name lodging) : s.push.Lodged name lodging := by
  intro i
  rw [entryAt_push]
  exact h i

theorem pop (h : s.Lodged name lodging) (hl : lodging ≠ some s.pop.2.depth) :
    s.pop.2.Lodged name lodging := by
  intro i
  rw [entryAt_pop]
  split
  · exact h i
  · rename_i hi
    refine ⟨fun hs => Bool.noConfusion hs, fun hi' => ?_⟩
    obtain ⟨e, he⟩ := Option.isSome_iff_exists.mp ((h i).mpr hi')
    have hd := lt_depth_of_entryAt he
    have hle := s.depth_le_pop
    have hne : i ≠ s.pop.2.depth := fun he => hl (he ▸ hi')
    omega

theorem pop_lodging (h : s.Lodged name (some s.pop.2.depth)) : s.pop.2.Lodged name none := by
  intro i
  rw [entryAt_pop]
  split
  · rename_i hi
    rw [h i]
    simp [Nat.ne_of_gt hi]
  · simp

theorem get_pop (h : s.Lodged name lodging) (hl : lodging ≠ some s.pop.2.depth) :
    s.pop.2.get name = s.get name := by
  have hp := h.pop hl
  rw [hp.get_eq, h.get_eq]
  cases lodging with
  | none => rfl
  | some i =>
    obtain ⟨e, he⟩ := Option.isSome_iff_exists.mp ((hp i).mpr rfl)
    have hi := lt_depth_of_entryAt he
    rw [Option.bind_some, Option.bind_some, entryAt_pop, if_pos hi]

end Lodged

end ShellCore.ScopeStack
