import ShellCore.Proofs.Variable.Entries

/-! Which changes of a stack of tables leave its read-only entries alone. -/

namespace ShellCore

/-- The value of a read-only entry. -/
def Entry.sealed (e : Entry) : Option (Option String) :=
  if e.flags.readOnly then some e.value else none

theorem Entry.sealed_eq_some_iff {e : Entry} {v : Option String} :
    e.sealed = some v ↔ e.flags.readOnly ∧ e.value = v := by
  unfold sealed
  split
  · rename_i hr
    simp [hr]
  · rename_i hr
    simp [hr]

namespace ScopeStack

variable {s s' s'' : ScopeStack} {name k : String} {scope : Scope} {f : Entry → Entry} {i j : Nat}
  {v : Option String} {e : Entry} {removed : Option Entry}

/-- The value of the read-only entry of the name in a table. -/
def sealed (s : ScopeStack) (i : Nat) (name : String) : Option (Option String) :=
  (s.entryAt i name).bind (·.sealed)

/-- A read-only entry in the table stays as it is, and stays visible if it was. -/
def Keeps (i : Nat) (s s' : ScopeStack) : Prop :=
  ∀ name v, s.sealed i name = some v →
    s'.sealed i name = some v ∧ (s.Unhidden i name → s'.Unhidden i name)

/-- Each table keeps its read-only entries. -/
structure Guards (s s' : ScopeStack) : Prop where
  levels : s.SameLevels s'
  keeps (i : Nat) : Keeps i s s'

/-- The entries stay where they are, those that are read-only as they are, and a name gets a new
entry only if it had none. -/
structure Grows (s s' : ScopeStack) : Prop where
  levels : s.SameLevels s'
  sealed (i : Nat) (name : String) : s'.sealed i name = s.sealed i name
  present (i : Nat) (name : String) : s'.entryAt i name = none → s.entryAt i name = none
  unhidden (i : Nat) (name : String) :
    s.entryAt i name ≠ none → s.Unhidden i name → s'.Unhidden i name

/-- Making an entry of the name in the scope would remove a read-only entry or hide one. -/
def Hides (s : ScopeStack) (name : String) : Scope → Prop
  | .outermost => ∃ i v, i ≠ 0 ∧ s.sealed i name = some v
  | .innermost => s.entryAt s.locals.length name = none ∧
      ∃ i v, s.sealed i name = some v ∧ s.Unhidden i name
  | .visible => False

theorem exists_of_sealed (h : s.sealed i name = some v) :
    ∃ e, s.entryAt i name = some e ∧ e.sealed = some v := Option.bind_eq_some_iff.mp h

theorem ne_none_of_sealed (h : s.sealed i name = some v) : s.entryAt i name ≠ none := by
  obtain ⟨e, he, -⟩ := exists_of_sealed h
  rw [he]
  exact nofun

theorem Keeps.refl (i : Nat) (s : ScopeStack) : Keeps i s s := fun _ _ h => ⟨h, id⟩

theorem Keeps.trans (h : Keeps i s s') (h' : Keeps i s' s'') : Keeps i s s'' := by
  intro name v hv
  obtain ⟨hv', hu⟩ := h name v hv
  obtain ⟨hv'', hu'⟩ := h' name v hv'
  exact ⟨hv'', fun h => hu' (hu h)⟩

instance : Std.Refl Guards := ⟨fun s => ⟨.refl s, fun i => .refl i s⟩⟩

instance : Trans Guards Guards Guards :=
  ⟨fun h h' => ⟨h.levels.trans h'.levels, fun i => (h.keeps i).trans (h'.keeps i)⟩⟩

instance : Std.Refl Grows := ⟨fun s => ⟨.refl s, fun _ _ => rfl, fun _ _ => id, fun _ _ _ => id⟩⟩

instance : Trans Grows Grows Grows where
  trans h h' := {
    levels := h.levels.trans h'.levels
    sealed i name := (h'.sealed i name).trans (h.sealed i name)
    present i name he := h.present i name (h'.present i name he)
    unhidden i name he hu :=
      h'.unhidden i name (fun he' => he (h.present i name he')) (h.unhidden i name he hu) }

theorem Grows.guards (h : Grows s s') : Guards s s' := by
  refine ⟨h.levels, fun i name v hv => ⟨?_, ?_⟩⟩
  · rw [h.sealed, hv]
  · exact h.unhidden i name (ne_none_of_sealed hv)

/-- New entries are neither read-only nor on top of other ones. -/
theorem Grows.hides (h : Grows s s') (hh : s'.Hides name scope) : s.Hides name scope := by
  cases scope with
  | outermost =>
    obtain ⟨i, v, hi, hv⟩ := hh
    exact ⟨i, v, hi, by rw [← h.sealed, hv]⟩
  | innermost =>
    obtain ⟨ht, i, v, hv, hu⟩ := hh
    rw [h.levels.length] at ht
    refine ⟨h.present _ _ ht, i, v, by rw [← h.sealed, hv], fun j hj => ?_⟩
    exact h.present _ _ (hu j hj)
  | visible => exact hh

theorem hides_congr (hl : s'.locals.length = s.locals.length)
    (he : ∀ i, s'.entryAt i k = s.entryAt i k) : s'.Hides k scope ↔ s.Hides k scope := by
  cases scope <;> simp only [Hides, sealed, Unhidden, he, hl]

theorem entryAt_update_other (hk : k ≠ name) (i : Nat) :
    (s.update name scope f).entryAt i k = s.entryAt i k := by
  rw [entryAt_update, if_neg hk]

theorem entryAt_update_home (s : ScopeStack) (name : String) (scope : Scope) (f : Entry → Entry) :
    (s.update name scope f).entryAt (s.home name scope) name =
      some (f (s.entryOrNew name scope)) := by
  rw [entryAt_update, if_pos rfl, if_pos rfl]

theorem home_update :
    (s.update name scope f).home name scope = s.home name scope := by
  cases scope with
  | outermost => rfl
  | innermost => exact sameLevels_update.length
  | visible =>
    refine home_of_unhidden (entryAt_update_home s name .visible f) fun j hj => ?_
    rw [entryAt_update, if_pos rfl, if_neg (by omega), if_neg visible_ne_outermost]
    exact unhidden_home j hj

theorem entryOrNew_update :
    (s.update name scope f).entryOrNew name scope = f (s.entryOrNew name scope) := by
  refine entryOrNew_of_entryAt_home ?_
  rw [home_update, entryAt_update_home]

theorem entryAt_update_above (hi : i ≠ 0) :
    (s.update name .outermost f).entryAt i name = none := by
  have hh : i ≠ s.home name .outermost := hi
  rw [entryAt_update, if_pos rfl, if_neg hh, if_pos rfl]

theorem get_update : (s.update name scope f).get name = some (f (s.entryOrNew name scope)) := by
  have he := entryAt_update_home s name scope f
  cases scope with
  | outermost =>
    exact get_eq_some_iff.mpr ⟨_, he, fun j hj => entryAt_update_above (Nat.ne_of_gt hj)⟩
  | innermost =>
    refine get_eq_some_iff.mpr ⟨_, he, fun j hj => ?_⟩
    rw [entryAt, tableAt_eq_none (by rw [sameLevels_update.length]; exact hj)]
    rfl
  | visible => exact get_update_visible

/-- What was changed is found again in the scope, and it is visible. -/
theorem getScoped_update {scope' : Scope} (hs : scope' = scope ∨ scope' = .visible) :
    (s.update name scope f).getScoped name scope' = some (f (s.entryOrNew name scope)) := by
  rcases hs with rfl | rfl
  · have he := entryAt_update_home s name scope' f
    cases scope' with
    | outermost =>
      rw [home] at he
      rw [getScoped, lookup_globals, he, Option.some_or]
    | innermost =>
      rw [getScoped, lookup_top, sameLevels_update.length]
      exact he
    | visible => exact get_update
  · exact get_update

/-- Once the entry has been made, it can be changed again. -/
theorem not_hides_update : ¬ (s.update name scope f).Hides name scope := by
  cases scope with
  | outermost =>
    rintro ⟨i, v, hi, hv⟩
    exact ne_none_of_sealed hv (entryAt_update_above hi)
  | innermost =>
    rintro ⟨ht, -⟩
    rw [sameLevels_update.length] at ht
    have hh := entryAt_update_home s name .innermost f
    rw [home, ht] at hh
    cases hh
  | visible => exact id

theorem keeps_of_entryAt (he : ∀ i, s'.entryAt i k = s.entryAt i k) (hv : s.sealed i k = some v) :
    s'.sealed i k = some v ∧ (s.Unhidden i k → s'.Unhidden i k) := by
  refine ⟨by rw [sealed, he]; exact hv, fun hu j hj => ?_⟩
  rw [he, hu j hj]

theorem guards_update (hh : ¬ s.Hides name scope)
    (hf : ∀ v, (s.entryOrNew name scope).sealed = some v →
      (f (s.entryOrNew name scope)).sealed = some v) :
    Guards s (s.update name scope f) := by
  refine ⟨sameLevels_update, fun i k v hv => ?_⟩
  by_cases hk : k = name
  · subst hk
    by_cases hi : i = s.home k scope
    · subst hi
      obtain ⟨e, he, hev⟩ := exists_of_sealed hv
      rw [entryOrNew_of_entryAt_home he] at hf
      refine ⟨?_, fun hu j hj => ?_⟩
      · rw [sealed, entryAt_update_home, entryOrNew_of_entryAt_home he]
        exact hf v hev
      · rw [entryAt_update, if_pos rfl, if_neg (by omega), hu j hj]
        split <;> rfl
    · cases scope with
      | outermost => exact absurd ⟨i, v, hi, hv⟩ hh
      | innermost =>
        refine ⟨?_, fun hu => ?_⟩
        · rw [sealed, entryAt_update, if_pos rfl, if_neg hi, if_neg innermost_ne_outermost]
          exact hv
        · -- The new entry would hide the read-only one.
          obtain ⟨e, he, -⟩ := exists_of_sealed hv
          have hlt := lt_depth_of_entryAt he
          have hne : i ≠ s.locals.length := hi
          have ht := hu s.locals.length (by unfold depth at hlt; omega)
          exact absurd ⟨ht, i, v, hv, hu⟩ hh
      | visible =>
        refine ⟨?_, fun hu => ?_⟩
        · rw [sealed, entryAt_update, if_pos rfl, if_neg hi, if_neg visible_ne_outermost]
          exact hv
        · obtain ⟨e, he, -⟩ := exists_of_sealed hv
          exact absurd (home_of_unhidden he hu).symm hi
  · exact keeps_of_entryAt (entryAt_update_other hk) hv

theorem grows_update (hf : (f (s.entryOrNew name .visible)).sealed =
      (s.entryOrNew name .visible).sealed) :
    Grows s (s.update name .visible f) := by
  have hn : s.entryAt (s.home name .visible) name = none → s.get name = none := by
    intro hh
    rcases hg : s.get name with - | e
    · rfl
    · obtain ⟨i, he, hu⟩ := get_eq_some_iff.mp hg
      rw [home_of_unhidden he hu, he] at hh
      cases hh
  refine ⟨sameLevels_update, fun i k => ?_, fun i k he => ?_, fun i k he hu j hj => ?_⟩
  · by_cases hk : k = name
    · subst hk
      by_cases hi : i = s.home k .visible
      · subst hi
        rw [sealed, entryAt_update_home, Option.bind_some, hf, sealed]
        rcases he : s.entryAt (s.home k .visible) k with - | e
        · have hr := readOnly_entryOrNew s k .visible
          simp only [getScoped, hn he, Option.any_none] at hr
          simp [Entry.sealed, hr]
        · rw [entryOrNew_of_entryAt_home he]
          rfl
      · rw [sealed, entryAt_update, if_pos rfl, if_neg hi, if_neg visible_ne_outermost]
        rfl
    · rw [sealed, entryAt_update_other hk]
      rfl
  · rw [entryAt_update] at he
    split at he
    · split at he
      · cases he
      · rwa [if_neg visible_ne_outermost] at he
    · exact he
  · rw [entryAt_update]
    split
    · rename_i hk
      subst hk
      obtain ⟨e, he⟩ := Option.ne_none_iff_exists'.mp he
      rw [home_of_unhidden he hu, if_neg (by omega), if_neg visible_ne_outermost]
      exact hu j hj
    · exact hu j hj

theorem guards_unset (h : s.unset name scope = .ok (removed, s')) : Guards s s' := by
  refine ⟨fun i => ?_, fun i k v hv => ⟨?_, fun hu j hj => ?_⟩⟩
  · rw [tableAt_unset h]
    split
    · cases s.tableAt i <;> rfl
    · rfl
  · rw [sealed, entryAt_unset h]
    by_cases hk : k = name ∧ (scope = .outermost ∨ i = s.home name scope)
    · obtain ⟨rfl, hi⟩ := hk
      obtain ⟨e, he, hev⟩ := exists_of_sealed hv
      have hr := readOnly_of_unset h he hi
      simp [Entry.sealed, hr] at hev
    · rw [if_neg hk]
      exact hv
  · rw [entryAt_unset h]
    split
    · rfl
    · exact hu j hj

/-- Where a change of the name hides a read-only entry, that entry is lost. -/
theorem exists_not_keeps (hh : s.Hides k scope) (hl : s.SameLevels s')
    (hs : ∀ i, s''.entryAt i k = (s'.update k scope f).entryAt i k) :
    ∃ i, i < s.depth ∧ ¬ Keeps i s s'' := by
  cases scope with
  | outermost =>
    obtain ⟨i, v, hi, hv⟩ := hh
    obtain ⟨e, hie, -⟩ := exists_of_sealed hv
    refine ⟨i, lt_depth_of_entryAt hie, fun hk => ?_⟩
    refine ne_none_of_sealed (hk k v hv).1 ?_
    rw [hs, entryAt_update_above hi]
  | innermost =>
    obtain ⟨ht, i, v, hv, hu⟩ := hh
    obtain ⟨e, hie, -⟩ := exists_of_sealed hv
    have hlt := lt_depth_of_entryAt hie
    have hne : i ≠ s.locals.length := by
      intro hi
      rw [hi, ht] at hie
      cases hie
    refine ⟨i, hlt, fun hk => ?_⟩
    have hn := (hk k v hv).2 hu s.locals.length (by unfold depth at hlt; omega)
    have hh := entryAt_update_home s' k .innermost f
    rw [home, hl.length, ← hs, hn] at hh
    cases hh
  | visible => exact hh.elim

end ScopeStack

end ShellCore
