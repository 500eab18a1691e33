import ShellCore.Proofs.Variable.ReadOnly
import ShellCore.Proofs.Variable.Update

/-! Which entries unsetting a name removes, and what is left of the name. -/

namespace ShellCore.ScopeStack

variable {s s' : ScopeStack} {name : String} {scope : Scope} {i : Nat} {e : Entry}
  {removed : Option Entry} {l l' : List Table}

/-- The table has the entry of the name, which is one of those in the scope: all of them, the one
of the topmost table, or the visible one. -/
def Selects (s : ScopeStack) (name : String) (scope : Scope) (i : Nat) (e : Entry) : Prop :=
  s.entryAt i name = some e ∧
    match scope with
    | .outermost => True
    | .innermost => i + 1 = s.depth
    | .visible => s.Unhidden i name

/-- The entry of the topmost table for which this holds, if there is one. -/
def Topmost (P : Nat → Entry → Prop) : Option Entry → Prop
  | some e => ∃ i, P i e ∧ ∀ j e', P j e' → j ≤ i
  | none => ∀ i e, ¬ P i e

/-- Exactly the entries of the name in the scope are gone. The topmost of them has been yielded, and
the topmost of the others is visible. -/
structure Removes (s : ScopeStack) (name : String) (scope : Scope) (removed : Option Entry)
    (s' : ScopeStack) : Prop where
  levels : s.SameLevels s'
  entries (i : Nat) (k : String) (e : Entry) :
    s'.entryAt i k = some e ↔ s.entryAt i k = some e ∧ ¬ (k = name ∧ s.Selects name scope i e)
  removed : Topmost (s.Selects name scope) removed
  visible : Topmost (fun i e => s.entryAt i name = some e ∧ ¬ s.Selects name scope i e)
    (s'.get name)
  global : scope = .outermost → s'.get name = none

theorem selects_iff :
    s.Selects name scope i e ↔
      s.entryAt i name = some e ∧ (scope = .outermost ∨ i = s.home name scope) := by
  refine and_congr_right fun he => ?_
  cases scope with
  | outermost => simp
  | innermost => simp [home, depth]
  | visible =>
    refine ⟨fun hu => .inr (home_of_unhidden he hu).symm, fun hi => ?_⟩
    rw [hi.resolve_left visible_ne_outermost]
    exact unhidden_home

theorem unhidden_iff : s.Unhidden i name ↔ ∀ j e, s.entryAt j name = some e → j ≤ i := by
  constructor
  · intro hu j e he
    refine Nat.le_of_not_lt fun hj => ?_
    rw [hu j hj] at he
    cases he
  · intro hle j hj
    refine Option.eq_none_iff_forall_ne_some.mpr fun e he => ?_
    exact Nat.not_le_of_lt hj (hle j e he)

theorem topmost_get (s : ScopeStack) (name : String) :
    Topmost (fun i e => s.entryAt i name = some e) (s.get name) := by
  rcases hg : s.get name with - | e
  · intro i e he
    rw [get_eq_none_iff.mp hg i] at he
    cases he
  · obtain ⟨i, he, hu⟩ := get_eq_some_iff.mp hg
    exact ⟨i, he, unhidden_iff.mp hu⟩

theorem Topmost.congr {P Q : Nat → Entry → Prop} (h : ∀ i e, P i e ↔ Q i e)
    (hp : Topmost P removed) : Topmost Q removed := by
  obtain rfl : P = Q := funext fun i => funext fun e => propext (h i e)
  exact hp

theorem find?_bind_lookup (s : ScopeStack) (name : String) :
    (s.tables.find? (·.contains name)).bind (·.lookup name) = s.get name := by
  rw [find?_contains, get_eq, Option.bind_assoc]
  rfl

/-- The entries that are to be removed, the topmost one first. -/
def unsetEntries (s : ScopeStack) (name : String) (scope : Scope) : List Entry :=
  (s.unsetTables name scope).filterMap (·.lookup name)

theorem unsetEntries_innermost (s : ScopeStack) (name : String) :
    s.unsetEntries name .innermost = (s.entryAt s.locals.length name).toList := by
  rw [← lookup_top]
  show [s.top].filterMap (·.lookup name) = _
  cases h : s.top.lookup name <;> simp [h]

theorem unsetEntries_visible (s : ScopeStack) (name : String) :
    s.unsetEntries name .visible = (s.get name).toList := by
  rw [← find?_bind_lookup]
  show (s.tables.find? (·.contains name)).toList.filterMap (·.lookup name) = _
  cases s.tables.find? (·.contains name) with
  | none => rfl
  | some t => cases h : t.lookup name <;> simp [h]

theorem mem_unsetEntries : e ∈ s.unsetEntries name scope ↔ ∃ i, s.Selects name scope i e := by
  cases scope with
  | outermost =>
    simp only [unsetEntries, unsetTables, List.mem_filterMap, mem_tables, Selects, entryAt,
      Option.bind_eq_some_iff, and_true]
    constructor
    · rintro ⟨t, ⟨i, ht⟩, he⟩
      exact ⟨i, t, ht, he⟩
    · rintro ⟨i, t, ht, he⟩
      exact ⟨t, ⟨i, ht⟩, he⟩
  | innermost =>
    rw [unsetEntries_innermost, Option.mem_toList]
    simp [Selects, depth]
  | visible =>
    rw [unsetEntries_visible, Option.mem_toList, get_eq_some_iff]
    rfl

theorem topmost_unsetEntries (s : ScopeStack) (name : String) (scope : Scope) :
    Topmost (s.Selects name scope) (s.unsetEntries name scope).head? := by
  cases scope with
  | outermost =>
    have hg : (s.unsetEntries name .outermost).head? = s.get name := List.head?_filterMap
    rw [hg]
    exact (topmost_get s name).congr fun i e => (and_iff_left trivial).symm
  | innermost =>
    rw [unsetEntries_innermost]
    rcases he : s.entryAt s.locals.length name with - | e
    · rintro i e ⟨he', hi⟩
      rw [← Nat.succ.inj hi, he'] at he
      cases he
    · exact ⟨_, ⟨he, rfl⟩, fun j e' hj => Nat.le_of_eq (Nat.succ.inj hj.2)⟩
  | visible =>
    rw [unsetEntries_visible]
    have ht := topmost_get s name
    rcases hg : s.get name with - | e <;> rw [hg] at ht
    · exact fun i e he => ht i e he.1
    · obtain ⟨i, he, hle⟩ := ht
      exact ⟨i, ⟨he, unhidden_iff.mpr hle⟩, fun j e' hj => hle j e' hj.1⟩

theorem unset_eq_error_iff {error : UnsetError} :
    s.unset name scope = .error error ↔
      error = ⟨name⟩ ∧ ∃ i e, s.Selects name scope i e ∧ e.flags.readOnly := by
  have hany : (s.unsetEntries name scope).any (·.flags.readOnly) ↔
      ∃ i e, s.Selects name scope i e ∧ e.flags.readOnly := by
    simp only [List.any_eq_true, mem_unsetEntries]
    constructor
    · rintro ⟨e, ⟨i, hs⟩, hr⟩
      exact ⟨i, e, hs, hr⟩
    · rintro ⟨i, e, hs, hr⟩
      exact ⟨e, ⟨i, hs⟩, hr⟩
  rw [← hany]
  unfold unset
  dsimp only
  split
  · rename_i hr
    have hr : (s.unsetEntries name scope).any (·.flags.readOnly) := hr
    simp [hr, eq_comm]
  · rename_i hr
    have hr : ¬ (s.unsetEntries name scope).any (·.flags.readOnly) := hr
    simp [hr]

theorem eq_head?_of_unset (h : s.unset name scope = .ok (removed, s')) :
    removed = (s.unsetEntries name scope).head? := by
  unfold unset at h
  dsimp only at h
  split at h
  · cases h
  · injection h with h
    injection h with h _
    exact h.symm

theorem removes_unset (h : s.unset name scope = .ok (removed, s')) :
    s.Removes name scope removed s' := by
  have hentries : ∀ i k e, s'.entryAt i k = some e ↔
      s.entryAt i k = some e ∧ ¬ (k = name ∧ s.Selects name scope i e) := by
    intro i k e
    rw [entryAt_unset h, selects_iff]
    by_cases hc : k = name ∧ (scope = .outermost ∨ i = s.home name scope)
    · obtain ⟨rfl, hi⟩ := hc
      simp [hi]
    · rw [if_neg hc]
      exact (and_iff_left fun hs => hc ⟨hs.1, hs.2.2⟩).symm
  refine ⟨(guards_unset h).levels, hentries, ?_, ?_, ?_⟩
  · rw [eq_head?_of_unset h]
    exact topmost_unsetEntries s name scope
  · exact (topmost_get s' name).congr fun i e => by simpa using hentries i name e
  · rintro rfl
    refine get_eq_none_iff.mpr fun i => ?_
    rw [entryAt_unset h, if_pos ⟨rfl, .inl rfl⟩]

/-- The entries of a name in a scope are removed all together, or not at all if one of them is
read-only. -/
theorem unset_removes_iff (s : ScopeStack) (name : String) (scope : Scope) :
    (∃ removed s', s.unset name scope = .ok (removed, s') ∧ s.Removes name scope removed s') ↔
      ∀ i e, s.Selects name scope i e → e.flags.readOnly = false := by
  rcases h : s.unset name scope with error | ⟨removed, s'⟩
  · obtain ⟨-, i, e, hs, hr⟩ := unset_eq_error_iff.mp h
    constructor
    · rintro ⟨removed, s', h, -⟩
      cases h
    · intro hw
      rw [hw i e hs] at hr
      cases hr
  · refine iff_of_true ⟨removed, s', rfl, removes_unset h⟩ fun i e hs => ?_
    refine Bool.eq_false_iff.mpr fun hr => ?_
    have he := unset_eq_error_iff.mpr ⟨rfl, i, e, hs, hr⟩
    rw [h] at he
    cases he

/-- The entries of a name, the visible one first. -/
def entriesOf (s : ScopeStack) (name : String) : List Entry := s.tables.filterMap (·.lookup name)

/-- The entry that the visible one hides. -/
def beneath (s : ScopeStack) (name : String) : Option Entry := (s.entriesOf name)[1]?

theorem head?_entriesOf (s : ScopeStack) (name : String) :
    (s.entriesOf name).head? = s.get name := List.head?_filterMap

theorem entriesOf_congr (hd : s'.depth = s.depth)
    (he : ∀ i, s'.entryAt i name = s.entryAt i name) : s'.entriesOf name = s.entriesOf name := by
  have hm : (s'.tables.map (·.lookup name)).reverse = (s.tables.map (·.lookup name)).reverse := by
    refine List.ext_getElem? fun i => ?_
    rw [← List.map_reverse, ← List.map_reverse, List.getElem?_map, List.getElem?_map]
    show (s'.tableAt i).map _ = (s.tableAt i).map _
    have he := he i
    unfold entryAt at he
    have hi : (s'.tableAt i).isSome = (s.tableAt i).isSome := by
      rw [Bool.eq_iff_iff, isSome_tableAt, isSome_tableAt, Nat.succ.inj hd]
    cases h : s.tableAt i <;> cases h' : s'.tableAt i <;> rw [h, h'] at he hi <;> simp_all
  have hid : ∀ s : ScopeStack, s.entriesOf name =
      (s.tables.map (·.lookup name)).filterMap id := by
    intro s
    rw [List.filterMap_map]
    rfl
  rw [hid, hid, List.reverse_inj.mp hm]

theorem filterMap_lookup_changeFirst
    (h : changeFirst name (·.remove name) l = some l') :
    l'.filterMap (·.lookup name) = (l.filterMap (·.lookup name)).tail ∧
      l.filterMap (·.lookup name) ≠ [] := by
  induction l generalizing l' with
  | nil => cases h
  | cons t l ih =>
    by_cases ht : t.contains name
    · rw [changeFirst, if_pos ht] at h
      obtain ⟨e, he⟩ := Option.isSome_iff_exists.mp ht
      cases h
      simp [he]
    · rw [changeFirst, if_neg ht, Option.map_eq_some_iff] at h
      obtain ⟨m, hm, rfl⟩ := h
      have hn : t.lookup name = none := by simpa [Table.contains] using ht
      simpa [hn] using ih hm

theorem entriesOf_unset (h : s.unset name .visible = .ok (removed, s')) :
    s'.entriesOf name = (s.entriesOf name).tail := by
  have hs : s.mapVisible name (·.remove name) = s' := by
    unfold unset at h
    dsimp only at h
    split at h
    · cases h
    · injection h with h
      exact congrArg Prod.snd h
  rcases hg : s.get name with - | e
  · have hn := get_eq_none_iff.mp hg
    have hn' : s'.get name = none := get_eq_none_iff.mpr fun i => by
      rw [entryAt_unset h, hn i, ite_self]
    rw [← head?_entriesOf, List.head?_eq_none_iff] at hg hn'
    rw [hg, hn', List.tail_nil]
  · obtain ⟨locals, globals⟩ := s
    unfold mapVisible at hs
    dsimp only at hs
    split at hs
    · rename_i locals' hc
      obtain ⟨ht, hne⟩ := filterMap_lookup_changeFirst hc
      subst hs
      simp only [entriesOf, tables, List.filterMap_append, ht,
        List.tail_append_of_ne_nil hne]
    · rename_i hc
      have hl : locals.filterMap (·.lookup name) = [] := by
        simpa [Table.contains] using changeFirst_eq_none_iff.mp hc
      split at hs
      · subst hs
        cases hl' : globals.lookup name <;> simp [entriesOf, tables, hl, hl']
      · rename_i hc'
        have hl' : globals.lookup name = none := by simpa [Table.contains] using hc'
        rw [← head?_entriesOf] at hg
        simp [entriesOf, tables, hl, hl'] at hg

theorem get_unset_visible (h : s.unset name .visible = .ok (removed, s')) :
    s'.get name = s.beneath name := by
  rw [← head?_entriesOf, entriesOf_unset h, beneath, ← List.head?_drop, List.drop_one]

end ShellCore.ScopeStack
