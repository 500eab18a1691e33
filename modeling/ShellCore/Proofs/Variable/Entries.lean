import ShellCore.Proofs.Variable.Tables

/-! What the changes of a stack of tables do to each entry. -/

namespace ShellCore

@[simp] theorem Flags.readOnly_union (a b : Flags) :
    (a ∪ b).readOnly = (a.readOnly || b.readOnly) := rfl

@[simp] theorem Flags.readOnly_sdiff (a b : Flags) :
    (a \ b).readOnly = (a.readOnly && !b.readOnly) := rfl

/-- The flags that stay when a variable is exported, or changes its table or how long it lives. -/
def Flags.lasting (flags : Flags) : Flags :=
  flags \ { exported := true, isLocal := true, temporary := true }

@[simp] theorem Flags.readOnly_lasting (flags : Flags) :
    flags.lasting.readOnly = flags.readOnly := by simp [lasting]

@[simp] theorem Flags.special_lasting (flags : Flags) :
    flags.lasting.special = flags.special := by simp [lasting, SDiff.sdiff, combine]

@[simp] theorem Flags.allCaps_lasting (flags : Flags) :
    flags.lasting.allCaps = flags.allCaps := by simp [lasting, SDiff.sdiff, combine]

@[simp] theorem Flags.allSmall_lasting (flags : Flags) :
    flags.lasting.allSmall = flags.allSmall := by simp [lasting, SDiff.sdiff, combine]

@[simp] theorem Flags.integer_lasting (flags : Flags) :
    flags.lasting.integer = flags.integer := by simp [lasting, SDiff.sdiff, combine]

@[simp] theorem Flags.lasting_removeLocal (flags : Flags) :
    Flags.lasting (flags \ { isLocal := true }) = flags.lasting := by
  simp [lasting, SDiff.sdiff, combine]

namespace ScopeStack

variable {s s' : ScopeStack} {name k : String} {scope : Scope} {f : Entry → Entry} {i j : Nat}
  {e : Entry} {removed : Option Entry}

theorem visible_ne_outermost : Scope.visible ≠ .outermost := by decide

theorem innermost_ne_outermost : Scope.innermost ≠ .outermost := by decide

theorem get_eq_none_iff : s.get name = none ↔ ∀ i, s.entryAt i name = none := by
  rw [get_eq]
  rcases hp : position name s.globals s.locals with - | i
  · simp [entryAt_of_position_eq_none hp]
  · have he : s.entryAt i name ≠ none := by
      have := entryAt_position hp
      exact Option.isSome_iff_ne_none.mp this
    simp only [Option.bind_some, he, false_iff]
    exact fun h => he (h i)

theorem home_of_unhidden (he : s.entryAt i name = some e) (hu : s.Unhidden i name) :
    s.home name .visible = i := by
  unfold home
  rcases hp : position name s.globals s.locals with - | p
  · have hn : s.entryAt i name = none := entryAt_of_position_eq_none hp i
    rw [hn] at he
    cases he
  · have hs : (s.entryAt p name).isSome := entryAt_position hp
    have hup : s.Unhidden p name := unhidden_position hp
    rcases Nat.lt_trichotomy i p with h | h | h
    · rw [hu p h] at hs
      cases hs
    · exact h.symm
    · rw [hup i h] at he
      cases he

theorem get_eq_some_iff :
    s.get name = some e ↔ ∃ i, s.entryAt i name = some e ∧ s.Unhidden i name := by
  rw [get_eq]
  constructor
  · intro h
    obtain ⟨i, hp, he⟩ := Option.bind_eq_some_iff.mp h
    exact ⟨i, he, unhidden_position hp⟩
  · rintro ⟨i, he, hu⟩
    rcases hp : position name s.globals s.locals with - | p
    · have hn : s.entryAt i name = none := entryAt_of_position_eq_none hp i
      rw [hn] at he
      cases he
    · have hi : p = i := by simpa [home, hp] using home_of_unhidden he hu
      rw [Option.bind_some, hi, he]

/-- Nothing hides what a change in the scope of the visible entry leaves. -/
theorem unhidden_home : s.Unhidden (s.home name .visible) name := by
  unfold home
  rcases hp : position name s.globals s.locals with - | i
  · exact fun j _ => entryAt_of_position_eq_none hp j
  · exact unhidden_position hp

theorem lookup_globals (s : ScopeStack) (name : String) :
    s.globals.lookup name = s.entryAt 0 name := by
  rw [entryAt, tableAt_zero, Option.bind_some]

theorem lookup_top (s : ScopeStack) (name : String) :
    s.top.lookup name = s.entryAt s.locals.length name := by
  rw [entryAt, tableAt_top, Option.bind_some]

theorem locals_promote (s : ScopeStack) (name : String) :
    (s.promote name).locals = s.locals.map (·.remove name) := by
  unfold promote
  dsimp only
  split
  · rfl
  · split <;> rfl

theorem tableAt_promote (s : ScopeStack) (name : String) (i : Nat) :
    (s.promote name).tableAt i =
      if i = 0 then some (s.promote name).globals else (s.tableAt i).map (·.remove name) := by
  have hl := locals_promote s name
  have hg := tableAt_globals ⟨s.locals.map (·.remove name), s.globals⟩ (s.promote name).globals i
  rw [← hl] at hg
  refine hg.trans ?_
  by_cases hi : i = 0
  · simp [hi]
  · rw [if_neg hi, if_neg hi, hl, tableAt_map, if_neg hi]

theorem level_promote (s : ScopeStack) (name : String) :
    (s.promote name).globals.level = s.globals.level := by
  unfold promote
  dsimp only
  split
  · rfl
  · split <;> rfl

theorem lookup_promote_other (s : ScopeStack) (hk : k ≠ name) :
    (s.promote name).globals.lookup k = s.globals.lookup k := by
  unfold promote
  dsimp only
  split
  · rfl
  · split
    · simp [hk]
    · rfl

/-- A change of one name in a scope leaves the entry in its home. The global scope removes all
others of the name. -/
theorem entryAt_update (s : ScopeStack) (name : String) (scope : Scope) (f : Entry → Entry)
    (i : Nat) (k : String) :
    (s.update name scope f).entryAt i k =
      if k = name then
        if i = s.home name scope then some (f (s.entryOrNew name scope))
        else if scope = .outermost then none
        else s.entryAt i k
      else s.entryAt i k := by
  cases scope with
  | outermost =>
    simp only [update, entryAt]
    rw [tableAt_globals (s.promote name), tableAt_promote]
    by_cases hi : i = 0
    · subst hi
      by_cases hk : k = name
      · simp [hk, home, entryOrNew]
      · simp [hk, lookup_promote_other s hk, tableAt_zero]
    · cases s.tableAt i <;> by_cases hk : k = name <;> simp [hi, hk, home]
  | innermost =>
    simp only [update, entryAt]
    rw [tableAt_mapTop]
    by_cases hi : i = s.locals.length
    · subst hi
      by_cases hk : k = name <;> simp [hk, home, entryOrNew, tableAt_top]
    · by_cases hk : k = name <;> simp [hi, hk, home]
  | visible =>
    simp only [update, entryAt]
    rw [tableAt_mapVisible]
    by_cases hi : i = s.home name .visible
    · subst hi
      by_cases hk : k = name <;> simp [hk, entryOrNew, tableAt_home]
    · by_cases hk : k = name <;> simp [hi, hk]

theorem sameLevels_update : s.SameLevels (s.update name scope f) := by
  intro i
  cases scope with
  | outermost =>
    simp only [update]
    rw [tableAt_globals (s.promote name), tableAt_promote]
    by_cases hi : i = 0
    · simp [hi, tableAt_zero, level_promote]
    · cases s.tableAt i <;> simp [hi]
  | innermost =>
    simp only [update]
    rw [tableAt_mapTop]
    cases s.tableAt i <;> split <;> simp
  | visible =>
    simp only [update]
    rw [tableAt_mapVisible]
    cases s.tableAt i <;> split <;> simp

theorem get_congr (he : ∀ i, s'.entryAt i k = s.entryAt i k) : s'.get k = s.get k := by
  ext e
  rw [get_eq_some_iff, get_eq_some_iff]
  simp only [Unhidden, he]

theorem get_update_other (hk : k ≠ name) : (s.update name scope f).get k = s.get k :=
  get_congr fun i => by rw [entryAt_update, if_neg hk]

theorem get_update_visible :
    (s.update name .visible f).get name = some (f (s.entryOrNew name .visible)) := by
  refine get_eq_some_iff.mpr ⟨s.home name .visible, ?_, fun j hj => ?_⟩
  · rw [entryAt_update, if_pos rfl, if_pos rfl]
  · rw [entryAt_update, if_pos rfl, if_neg (by omega), if_neg visible_ne_outermost]
    exact unhidden_home j hj

/-- An entry in its home is the one that is changed. -/
theorem entryOrNew_of_entryAt_home (h : s.entryAt (s.home name scope) name = some e) :
    s.entryOrNew name scope = e := by
  cases scope with
  | outermost =>
    have hg : s.globals.lookup name = some e := (lookup_globals s name).trans h
    have hp : (s.promote name).globals = s.globals := by
      simp [promote, Table.contains, hg]
    simp [entryOrNew, Table.entryOrNew, hp, hg]
  | innermost =>
    have ht : s.top.lookup name = some e := (lookup_top s name).trans h
    simp [entryOrNew, Table.entryOrNew, ht]
  | visible =>
    rw [entryAt, tableAt_home, Option.bind_some] at h
    simp [entryOrNew, Table.entryOrNew, h]

theorem lookup_promote (s : ScopeStack) (name : String) :
    (s.promote name).globals.lookup name =
      (s.entryAt 0 name).or ((s.get name).map (·.removeFlags { isLocal := true })) := by
  rw [← lookup_globals]
  rcases hg : s.globals.lookup name with - | e
  · have hget : s.get name = s.locals.findSome? (·.lookup name) := by simp [get, tables, hg]
    rw [hget]
    rcases hl : s.locals.findSome? (·.lookup name) with - | e <;>
      simp [promote, Table.contains, hg, hl]
  · simp [promote, Table.contains, hg]

/-- What is found in a scope is what is changed there, but an entry that moves to the global table
is no longer local. -/
theorem entryOrNew_of_getScoped (h : s.getScoped name scope = some e) :
    s.entryOrNew name scope =
      if scope = .outermost ∧ s.entryAt 0 name = none then e.removeFlags { isLocal := true }
      else e := by
  cases scope with
  | outermost =>
    rw [getScoped, lookup_globals] at h
    rw [entryOrNew, Table.entryOrNew, lookup_promote]
    rcases hg : s.entryAt 0 name with - | e₀ <;> simp_all
  | innermost =>
    rw [getScoped] at h
    simp [entryOrNew, Table.entryOrNew, h]
  | visible =>
    obtain ⟨i, he, hu⟩ := get_eq_some_iff.mp h
    have hi : s.home name .visible = i := home_of_unhidden he hu
    rw [entryOrNew_of_entryAt_home (by rw [hi]; exact he)]
    simp

/-- Where nothing is found, the table in which the entry is made has none of the name, and no entry
moves there. -/
theorem getScoped_eq_none_iff :
    s.getScoped name scope = none ↔
      s.entryAt (s.home name scope) name = none ∧
        (scope = .outermost → ∀ i, s.entryAt i name = none) := by
  cases scope with
  | outermost =>
    rw [getScoped, lookup_globals, Option.or_eq_none_iff, get_eq_none_iff]
    simp [home]
  | innermost =>
    rw [getScoped, lookup_top]
    simp [home]
  | visible =>
    rw [getScoped]
    rcases hg : s.get name with - | e
    · simp [get_eq_none_iff.mp hg]
    · obtain ⟨i, he, hu⟩ := get_eq_some_iff.mp hg
      simp [home_of_unhidden he hu, he]

/-- An entry that is made is local except in the global table. -/
theorem entryOrNew_of_getScoped_eq_none (h : s.getScoped name scope = none) :
    ∃ t, s.tableAt (s.home name scope) = some t ∧ s.entryOrNew name scope = t.fresh := by
  obtain ⟨hn, hall⟩ := getScoped_eq_none_iff.mp h
  cases scope with
  | outermost =>
    refine ⟨s.globals, tableAt_zero s, ?_⟩
    have hget : s.get name = none := get_eq_none_iff.mpr (hall rfl)
    rw [entryOrNew, Table.entryOrNew, lookup_promote, hall rfl 0, hget]
    simp [Table.fresh, level_promote]
  | innermost =>
    refine ⟨s.top, tableAt_top s, ?_⟩
    rw [home, ← lookup_top] at hn
    simp [entryOrNew, Table.entryOrNew, hn]
  | visible =>
    refine ⟨s.visibleTable name, tableAt_home s name, ?_⟩
    rw [entryAt, tableAt_home, Option.bind_some] at hn
    simp [entryOrNew, Table.entryOrNew, hn]

/-- Apart from being local, what is changed has the flags of what is found, if anything is. -/
theorem flags_entryOrNew (s : ScopeStack) (name : String) (scope : Scope) :
    (s.entryOrNew name scope).flags \ { isLocal := true } =
      (((s.getScoped name scope).map (·.flags)).getD {}) \ { isLocal := true } := by
  rcases h : s.getScoped name scope with - | e
  · obtain ⟨t, -, ht⟩ := entryOrNew_of_getScoped_eq_none h
    simp [ht, Table.fresh, SDiff.sdiff, Flags.combine]
  · rw [entryOrNew_of_getScoped h]
    split <;> simp [Entry.removeFlags, SDiff.sdiff, Flags.combine]

/-- An entry that is made has no lasting flags, unless it is one that moves to the global table. -/
theorem lasting_entryOrNew (s : ScopeStack) (name : String) (scope : Scope) :
    (s.entryOrNew name scope).flags.lasting =
      ((s.getScoped name scope).map (·.flags.lasting)).getD {} := by
  rw [← Flags.lasting_removeLocal, flags_entryOrNew, Flags.lasting_removeLocal]
  cases s.getScoped name scope with
  | none => simp [Flags.lasting, SDiff.sdiff, Flags.combine]
  | some e => rfl

theorem readOnly_entryOrNew (s : ScopeStack) (name : String) (scope : Scope) :
    (s.entryOrNew name scope).flags.readOnly =
      (s.getScoped name scope).any (·.flags.readOnly) := by
  rw [← Flags.readOnly_lasting, lasting_entryOrNew]
  cases s.getScoped name scope <;> simp

/-- Unsetting a name removes the entry in the home of the scope, or all entries in the global
one. -/
theorem tableAt_unset (h : s.unset name scope = .ok (removed, s')) (i : Nat) :
    s'.tableAt i =
      if scope = .outermost ∨ i = s.home name scope then (s.tableAt i).map (·.remove name)
      else s.tableAt i := by
  unfold unset at h
  dsimp only at h
  split at h
  · cases h
  · injection h with h
    injection h with _ h
    subst h
    cases scope with
    | outermost =>
      have hm := tableAt_map (·.remove name) s i
      have hg := tableAt_globals ⟨s.locals.map (·.remove name), s.globals⟩ (s.globals.remove name) i
      refine hg.trans ?_
      by_cases hi : i = 0
      · simp [hi, tableAt_zero]
      · simp [hi, hm]
    | innermost =>
      simp only [tableAt_mapTop]
      simp [home]
    | visible =>
      simp only [tableAt_mapVisible]
      simp

theorem entryAt_unset (h : s.unset name scope = .ok (removed, s')) (i : Nat) (k : String) :
    s'.entryAt i k =
      if k = name ∧ (scope = .outermost ∨ i = s.home name scope) then none
      else s.entryAt i k := by
  rw [entryAt, tableAt_unset h]
  by_cases hi : scope = .outermost ∨ i = s.home name scope
  · rw [if_pos hi, entryAt]
    cases s.tableAt i <;> by_cases hk : k = name <;> simp [hi, hk]
  · rw [if_neg hi, if_neg (fun hk => hi hk.2)]
    rfl

theorem get_unset_other (h : s.unset name scope = .ok (removed, s')) (hk : k ≠ name) :
    s'.get k = s.get k :=
  get_congr fun i => by rw [entryAt_unset h, if_neg fun hc => hk hc.1]

/-- What is removed was not read-only. -/
theorem readOnly_of_unset (h : s.unset name scope = .ok (removed, s'))
    (he : s.entryAt i name = some e) (hi : scope = .outermost ∨ i = s.home name scope) :
    e.flags.readOnly = false := by
  have hmem : ∃ t ∈ s.unsetTables name scope, t.lookup name = some e := by
    obtain ⟨t, ht, hl⟩ := Option.bind_eq_some_iff.mp he
    cases scope with
    | outermost => exact ⟨t, mem_tables.mpr ⟨i, ht⟩, hl⟩
    | innermost =>
      have hi : i = s.locals.length := by simpa [home] using hi
      rw [hi, tableAt_top] at ht
      cases ht
      exact ⟨s.top, List.mem_singleton_self _, hl⟩
    | visible =>
      have hi : i = s.home name .visible := by simpa using hi
      refine ⟨t, ?_, hl⟩
      have hc : (position name s.globals s.locals).isSome := by
        rcases hp : position name s.globals s.locals with - | p
        · have hn : s.entryAt i name = none := entryAt_of_position_eq_none hp i
          rw [hn] at he
          cases he
        · rfl
      obtain ⟨p, hp⟩ := Option.isSome_iff_exists.mp hc
      have hip : i = p := by simpa [home, hp] using hi
      simp [unsetTables, find?_contains, hp, ← hip, ht]
  obtain ⟨t, ht, hl⟩ := hmem
  unfold unset at h
  dsimp only at h
  split at h
  · cases h
  · rename_i hany
    simp only [List.any_eq_true, List.mem_filterMap, not_exists, not_and] at hany
    simpa using hany e ⟨t, ht, hl⟩

theorem mem_of_mem_unsetTables {t : Table} (h : t ∈ s.unsetTables name scope) :
    t ∈ s.tables := by
  cases scope with
  | outermost => exact h
  | innermost =>
    obtain rfl := List.mem_singleton.mp h
    exact mem_tables.mpr ⟨_, tableAt_top s⟩
  | visible => exact List.mem_of_find?_eq_some (Option.mem_toList.mp h)

/-- Only a read-only entry cannot be unset. -/
theorem exists_readOnly_of_unset {error : UnsetError} (h : s.unset name scope = .error error) :
    ∃ i e, s.entryAt i name = some e ∧ e.flags.readOnly := by
  unfold unset at h
  dsimp only at h
  split at h
  · rename_i hany
    obtain ⟨e, he, hr⟩ := List.any_eq_true.mp hany
    obtain ⟨t, ht, hl⟩ := List.mem_filterMap.mp he
    obtain ⟨i, hi⟩ := mem_tables.mp (mem_of_mem_unsetTables ht)
    exact ⟨i, e, by rw [entryAt, hi]; exact hl, hr⟩
  · cases h

end ScopeStack

end ShellCore
