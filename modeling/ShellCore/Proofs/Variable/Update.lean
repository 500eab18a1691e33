import ShellCore.Proofs.Variable.ReadOnly

/-! Two changes of a variable in one scope are one change, and a change looks at one entry only. -/

namespace ShellCore.ScopeStack

variable {s : ScopeStack} {name : String} {l l' : List Table} {f g : Table → Table}

theorem changeFirst_eq_none_iff :
    changeFirst name f l = none ↔ ∀ t ∈ l, t.contains name = false := by
  induction l with
  | nil => simp [changeFirst]
  | cons t l ih => by_cases ht : t.contains name <;> simp [changeFirst, ht, ih]

theorem changeFirst_changeFirst (hf : ∀ t, (f t).contains name)
    (h : changeFirst name f l = some l') : changeFirst name g l' = changeFirst name (g ∘ f) l := by
  induction l generalizing l' with
  | nil => cases h
  | cons t l ih =>
    by_cases ht : t.contains name
    · simp only [changeFirst, if_pos ht, Option.some.injEq] at h
      subst h
      simp [changeFirst, hf, ht]
    · simp only [changeFirst, if_neg ht, Option.map_eq_some_iff] at h
      obtain ⟨m, hm, rfl⟩ := h
      simp [changeFirst, ht, ih hm]

theorem mapVisible_mapVisible (hf : ∀ t, (f t).contains name) :
    (s.mapVisible name f).mapVisible name g = s.mapVisible name (g ∘ f) := by
  obtain ⟨l, t⟩ := s
  rcases hl : changeFirst name f l with - | l'
  · have hn := changeFirst_eq_none_iff.mp hl
    have hg : changeFirst name g l = none := changeFirst_eq_none_iff.mpr hn
    have hgf : changeFirst name (g ∘ f) l = none := changeFirst_eq_none_iff.mpr hn
    by_cases ht : t.contains name
    · simp [mapVisible, hl, hg, hgf, ht, hf]
    · cases l with
      | nil => simp [mapVisible, changeFirst, ht, hf, mapTop]
      | cons u l =>
        have hu : changeFirst name g (f u :: l) = some (g (f u) :: l) := by simp [changeFirst, hf]
        simp [mapVisible, hl, hgf, ht, hu, mapTop]
  · have hg := changeFirst_changeFirst (g := g) hf hl
    rcases hgf : changeFirst name (g ∘ f) l with - | l''
    · have hn := changeFirst_eq_none_iff.mp hgf
      rw [changeFirst_eq_none_iff.mpr hn] at hl
      cases hl
    · rw [hgf] at hg
      simp only [mapVisible, hl, hg, hgf]

theorem update_update (s : ScopeStack) (name : String) (scope : Scope) (f g : Entry → Entry) :
    (s.update name scope f).update name scope g = s.update name scope (g ∘ f) := by
  have hc : ∀ t : Table, (t.update name f).contains name := fun t => by simp [Table.contains]
  have hu : (fun t : Table => t.update name g) ∘ (fun t : Table => t.update name f) =
      fun t : Table => t.update name (g ∘ f) := funext fun t => t.update_update name f g
  cases scope with
  | outermost =>
    have hr : (fun t : Table => t.remove name) ∘ (fun t : Table => t.remove name) =
        fun t : Table => t.remove name := funext fun t => t.remove_remove name
    have hp : ∀ s : ScopeStack, s.globals.contains name →
        s.promote name = ⟨s.locals.map (·.remove name), s.globals⟩ := by
      intro s hs
      simp only [promote, hs, if_true]
    simp only [update]
    rw [hp _ (hc _)]
    simp only [locals_promote, List.map_map, hr, Table.update_update]
  | innermost =>
    obtain ⟨l, t⟩ := s
    cases l <;> simp [update, mapTop, Table.update_update]
  | visible =>
    simp only [update]
    rw [mapVisible_mapVisible hc, hu]

theorem changeFirst_congr (h : ∀ t, l.find? (·.contains name) = some t → f t = g t) :
    changeFirst name f l = changeFirst name g l := by
  induction l with
  | nil => rfl
  | cons t l ih =>
    by_cases ht : t.contains name
    · rw [changeFirst, changeFirst, if_pos ht, if_pos ht, h t (by simp [ht])]
    · have hl := ih fun u hu => h u (by simpa [ht] using hu)
      rw [changeFirst, changeFirst, if_neg ht, if_neg ht, hl]

theorem mapTop_congr (h : f s.top = g s.top) : s.mapTop f = s.mapTop g := by
  obtain ⟨l, t⟩ := s
  cases l with
  | nil =>
    have h : f t = g t := h
    simp only [mapTop, h]
  | cons u l =>
    have h : f u = g u := h
    simp only [mapTop, h]

theorem mapVisible_congr (h : f (s.visibleTable name) = g (s.visibleTable name)) :
    s.mapVisible name f = s.mapVisible name g := by
  obtain ⟨l, t⟩ := s
  have hl : changeFirst name f l = changeFirst name g l := by
    refine changeFirst_congr fun u hu => ?_
    have hv : (ScopeStack.mk l t).visibleTable name = u := by
      simp [visibleTable, tables, List.find?_append, hu]
    rwa [hv] at h
  unfold mapVisible
  rw [hl]
  rcases hg : changeFirst name g l with - | l'
  · have hn : l.find? (·.contains name) = none := by
      simpa using changeFirst_eq_none_iff.mp hg
    by_cases ht : t.contains name
    · have hv : (ScopeStack.mk l t).visibleTable name = t := by
        simp [visibleTable, tables, List.find?_append, hn, ht]
      rw [hv] at h
      simp only [ht, if_true, h]
    · have hv : (ScopeStack.mk l t).visibleTable name = (ScopeStack.mk l t).top := by
        simp [visibleTable, tables, List.find?_append, hn, ht]
      rw [hv] at h
      simp only [ht, Bool.false_eq_true, if_false]
      exact mapTop_congr h
  · rfl

theorem update_congr {f g : Entry → Entry} {scope : Scope}
    (h : f (s.entryOrNew name scope) = g (s.entryOrNew name scope)) :
    s.update name scope f = s.update name scope g := by
  cases scope with
  | outermost =>
    have ht : (s.promote name).globals.update name f = (s.promote name).globals.update name g :=
      congrArg (Table.insert _ name) h
    simp only [update, ht]
  | innermost =>
    have ht : s.top.update name f = s.top.update name g := congrArg (Table.insert _ name) h
    exact mapTop_congr (f := (·.update name f)) (g := (·.update name g)) ht
  | visible =>
    have ht : (s.visibleTable name).update name f = (s.visibleTable name).update name g :=
      congrArg (Table.insert _ name) h
    exact mapVisible_congr (f := (·.update name f)) (g := (·.update name g)) ht

end ShellCore.ScopeStack
