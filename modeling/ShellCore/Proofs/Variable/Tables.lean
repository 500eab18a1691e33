import ShellCore.Variable.ScopeStack

/-! Tables and entries counted from the global table, which keeps their numbers under pushes. -/

namespace ShellCore.ScopeStack

variable {s s' s'' : ScopeStack} {name k : String} {scope : Scope} {f : Table → Table} {t g : Table}
  {l l' : List Table} {i j : Nat} {e : Entry}

def tableAt (s : ScopeStack) (i : Nat) : Option Table := s.tables.reverse[i]?

def entryAt (s : ScopeStack) (i : Nat) (name : String) : Option Entry :=
  (s.tableAt i).bind (·.lookup name)

/-- Each table is at the level that it says. -/
def Levelled (s : ScopeStack) : Prop := ∀ i t, s.tableAt i = some t → t.level = i

/-- The tables stay, each at its level. -/
def SameLevels (s s' : ScopeStack) : Prop :=
  ∀ i, (s'.tableAt i).map (·.level) = (s.tableAt i).map (·.level)

/-- No table above hides an entry of the name in this one. -/
def Unhidden (s : ScopeStack) (i : Nat) (name : String) : Prop :=
  ∀ j, i < j → s.entryAt j name = none

/-- The table of the visible entry of the name. -/
def position (name : String) (globals : Table) : List Table → Option Nat
  | [] => if globals.contains name then some 0 else none
  | t :: rest => if t.contains name then some (rest.length + 1) else position name globals rest

/-- The table in which `update` leaves the entry. -/
def home (s : ScopeStack) (name : String) : Scope → Nat
  | .outermost => 0
  | .innermost => s.locals.length
  | .visible => (position name s.globals s.locals).getD s.locals.length

theorem tableAt_nil (g : Table) (i : Nat) :
    (ScopeStack.mk [] g).tableAt i = if i = 0 then some g else none := by
  cases i <;> simp [tableAt, tables]

theorem tableAt_cons (t g : Table) (l : List Table) (i : Nat) :
    (ScopeStack.mk (t :: l) g).tableAt i =
      if i = l.length + 1 then some t else (ScopeStack.mk l g).tableAt i := by
  have hlen : (l ++ [g]).reverse.length = l.length + 1 := by simp
  simp only [tableAt, tables, List.cons_append, List.reverse_cons]
  by_cases h : i = l.length + 1
  · rw [if_pos h, List.getElem?_append_right (by omega), hlen, h]
    simp
  · rw [if_neg h]
    rcases Nat.lt_or_ge i (l.length + 1) with hi | hi
    · exact List.getElem?_append_left (by omega)
    · rw [List.getElem?_eq_none (by simp; omega), List.getElem?_eq_none (by omega)]

theorem tableAt_eq_none (h : s.locals.length < i) : s.tableAt i = none :=
  List.getElem?_eq_none (by simp [tables]; omega)

theorem tableAt_zero (s : ScopeStack) : s.tableAt 0 = some s.globals := by
  simp [tableAt, tables]

theorem tableAt_top (s : ScopeStack) : s.tableAt s.locals.length = some s.top := by
  obtain ⟨l, g⟩ := s
  cases l with
  | nil => rfl
  | cons t l => simp [tableAt_cons, top]

theorem isSome_tableAt : (s.tableAt i).isSome ↔ i ≤ s.locals.length := by
  have hlen : s.tables.reverse.length = s.locals.length + 1 := by simp [tables]
  rw [tableAt, Option.isSome_iff_ne_none, Ne, List.getElem?_eq_none_iff, hlen, Nat.not_le]
  exact Nat.lt_succ_iff

theorem lt_depth_of_tableAt (h : s.tableAt i = some t) : i < s.depth := by
  have hs : (s.tableAt i).isSome := by
    rw [h]
    rfl
  exact Nat.lt_succ_of_le (isSome_tableAt.mp hs)

theorem lt_depth_of_entryAt (h : s.entryAt i name = some e) : i < s.depth := by
  obtain ⟨t, ht, -⟩ := Option.bind_eq_some_iff.mp h
  exact lt_depth_of_tableAt ht

theorem SameLevels.refl (s : ScopeStack) : s.SameLevels s := fun _ => rfl

theorem SameLevels.trans (h : s.SameLevels s') (h' : s'.SameLevels s'') : s.SameLevels s'' :=
  fun i => (h' i).trans (h i)

theorem SameLevels.levelled (h : s.SameLevels s') (hs : s.Levelled) : s'.Levelled := by
  intro i t ht
  have hi := h i
  rw [ht, Option.map_some] at hi
  obtain ⟨u, hu, hl⟩ := Option.map_eq_some_iff.mp hi.symm
  rw [← hl]
  exact hs i u hu

theorem SameLevels.length (h : s.SameLevels s') : s'.locals.length = s.locals.length := by
  have hi : ∀ i, i ≤ s'.locals.length ↔ i ≤ s.locals.length := by
    intro i
    rw [← isSome_tableAt, ← isSome_tableAt, ← Option.isSome_map, h i, Option.isSome_map]
  exact Nat.le_antisymm ((hi _).mp (Nat.le_refl _)) ((hi _).mpr (Nat.le_refl _))

instance : Std.Refl SameLevels := ⟨.refl⟩

instance : Trans SameLevels SameLevels SameLevels := ⟨.trans⟩

theorem mem_tables : t ∈ s.tables ↔ ∃ i, s.tableAt i = some t := by
  rw [← List.mem_reverse]
  exact List.mem_iff_getElem?

theorem tableAt_globals (s : ScopeStack) (g : Table) (i : Nat) :
    (ScopeStack.mk s.locals g).tableAt i = if i = 0 then some g else s.tableAt i := by
  obtain ⟨l, g'⟩ := s
  cases i <;> simp [tableAt, tables]

theorem tableAt_map (f : Table → Table) (s : ScopeStack) (i : Nat) :
    (ScopeStack.mk (s.locals.map f) s.globals).tableAt i =
      if i = 0 then some s.globals else (s.tableAt i).map f := by
  obtain ⟨l, g⟩ := s
  cases i with
  | zero => simp [tableAt, tables]
  | succ i => simp [tableAt, tables, ← List.map_reverse]

theorem tableAt_mapTop (s : ScopeStack) (f : Table → Table) (i : Nat) :
    (s.mapTop f).tableAt i =
      if i = s.locals.length then (s.tableAt i).map f else s.tableAt i := by
  obtain ⟨l, g⟩ := s
  cases l with
  | nil =>
    by_cases h : i = 0 <;> simp [mapTop, tableAt_nil, h]
  | cons t l =>
    by_cases h : i = l.length + 1 <;> simp [mapTop, tableAt_cons, h]

theorem entryAt_cons (t g : Table) (l : List Table) (i : Nat) (name : String) :
    (ScopeStack.mk (t :: l) g).entryAt i name =
      if i = l.length + 1 then t.lookup name else (ScopeStack.mk l g).entryAt i name := by
  rw [entryAt, tableAt_cons]
  split <;> rfl

theorem levelled_new : ScopeStack.new.Levelled := by
  intro i t ht
  rw [ScopeStack.new, tableAt_nil] at ht
  split at ht <;> cases ht
  rename_i hi
  exact hi.symm

theorem tableAt_pushTable (s : ScopeStack) (t : Table) (i : Nat) :
    (s.pushTable t).tableAt i =
      if i = s.depth then some { t with level := s.depth } else s.tableAt i :=
  tableAt_cons _ s.globals s.locals i

theorem levelled_pushTable (h : s.Levelled) (t : Table) : (s.pushTable t).Levelled := by
  intro i u hu
  rw [tableAt_pushTable] at hu
  split at hu
  · rename_i hi
    cases hu
    exact hi.symm
  · exact h i u hu

/-- A new table hides nothing. -/
theorem entryAt_push (s : ScopeStack) (i : Nat) (name : String) :
    s.push.entryAt i name = s.entryAt i name := by
  rw [entryAt, push, tableAt_pushTable]
  split
  · rename_i hi
    have hn : s.tableAt s.depth = none := tableAt_eq_none (Nat.lt_succ_self _)
    rw [hi, entryAt, hn]
    rfl
  · rfl

theorem tableAt_pop (hi : i < s.pop.2.depth) : s.pop.2.tableAt i = s.tableAt i := by
  obtain ⟨l, g⟩ := s
  cases l with
  | nil => rfl
  | cons t l =>
    have hne : i ≠ l.length + 1 := Nat.ne_of_lt hi
    rw [tableAt_cons, if_neg hne]
    rfl

theorem entryAt_pop (s : ScopeStack) (i : Nat) (name : String) :
    s.pop.2.entryAt i name = if i < s.pop.2.depth then s.entryAt i name else none := by
  split
  · rename_i hi
    rw [entryAt, tableAt_pop hi]
    rfl
  · rename_i hi
    have hn : s.pop.2.tableAt i = none := tableAt_eq_none (Nat.le_of_not_lt hi)
    rw [entryAt, hn]
    rfl

/-- What a scope that is left has of a name. -/
theorem lookup_pop (s : ScopeStack) (name : String) :
    s.pop.1.bind (·.lookup name) = s.entryAt s.pop.2.depth name := by
  obtain ⟨l, g⟩ := s
  cases l with
  | nil =>
    have hn : (ScopeStack.mk [] g).tableAt 1 = none := tableAt_eq_none Nat.zero_lt_one
    show none = (ScopeStack.mk [] g).entryAt 1 name
    rw [entryAt, hn]
    rfl
  | cons t l =>
    show t.lookup name = (ScopeStack.mk (t :: l) g).entryAt (l.length + 1) name
    rw [entryAt_cons, if_pos rfl]

theorem depth_le_pop (s : ScopeStack) : s.depth ≤ s.pop.2.depth + 1 := by
  obtain ⟨l, g⟩ := s
  cases l with
  | nil => exact Nat.le_succ 1
  | cons t l => exact Nat.le_refl _

theorem levelled_pop (h : s.Levelled) : s.pop.2.Levelled := by
  intro i t ht
  exact h i t (tableAt_pop (lt_depth_of_tableAt ht) ▸ ht)

theorem position_le (h : position name g l = some i) : i ≤ l.length := by
  induction l with
  | nil =>
    simp only [position] at h
    split at h <;> cases h
    exact Nat.le_refl 0
  | cons t l ih =>
    simp only [position] at h
    split at h
    · cases h
      exact Nat.le_refl _
    · exact Nat.le_succ_of_le (ih h)

theorem entryAt_position (h : position name g l = some i) :
    ((ScopeStack.mk l g).entryAt i name).isSome := by
  induction l with
  | nil =>
    simp only [position] at h
    split at h <;> cases h
    assumption
  | cons t l ih =>
    simp only [position] at h
    split at h
    · cases h
      rwa [entryAt_cons, if_pos rfl]
    · have hi := position_le h
      rw [entryAt_cons, if_neg (by omega)]
      exact ih h

theorem unhidden_position (h : position name g l = some i) :
    (ScopeStack.mk l g).Unhidden i name := by
  induction l with
  | nil =>
    intro j hj
    rw [entryAt, tableAt_nil, if_neg (by omega)]
    rfl
  | cons t l ih =>
    intro j hj
    simp only [position] at h
    split at h
    · cases h
      rw [entryAt, tableAt_eq_none (by simpa using hj)]
      rfl
    · rename_i ht
      rw [entryAt_cons]
      split
      · simpa [Table.contains] using ht
      · exact ih h j hj

theorem entryAt_of_position_eq_none (h : position name g l = none) (i : Nat) :
    (ScopeStack.mk l g).entryAt i name = none := by
  induction l with
  | nil =>
    simp only [position] at h
    split at h
    · cases h
    · rename_i hg
      rw [entryAt, tableAt_nil]
      split
      · simpa [Table.contains] using hg
      · rfl
  | cons t l ih =>
    simp only [position] at h
    split at h
    · cases h
    · rename_i ht
      rw [entryAt_cons]
      split
      · simpa [Table.contains] using ht
      · exact ih h

theorem tableAt_changeFirst (h : changeFirst name f l = some l') :
    ∃ i, position name g l = some i ∧ l'.length = l.length ∧ ∀ j,
      (ScopeStack.mk l' g).tableAt j = if j = i then ((ScopeStack.mk l g).tableAt j).map f
        else (ScopeStack.mk l g).tableAt j := by
  induction l generalizing l' with
  | nil => cases h
  | cons t l ih =>
    by_cases ht : t.contains name
    · simp only [changeFirst, if_pos ht, Option.some.injEq] at h
      subst h
      refine ⟨l.length + 1, by simp [position, ht], rfl, fun j => ?_⟩
      rw [tableAt_cons, tableAt_cons]
      by_cases hj : j = l.length + 1 <;> simp [hj]
    · simp only [changeFirst, if_neg ht, Option.map_eq_some_iff] at h
      obtain ⟨m, hm, rfl⟩ := h
      obtain ⟨i, hi, hl, hj⟩ := ih hm
      have hle := position_le hi
      refine ⟨i, by simp [position, ht, hi], by simp [hl], fun j => ?_⟩
      rw [tableAt_cons, tableAt_cons, hl, hj]
      by_cases h1 : j = l.length + 1
      · simp [h1, show l.length + 1 ≠ i by omega]
      · simp [h1]

theorem position_of_changeFirst_eq_none (h : changeFirst name f l = none) :
    position name g l = if g.contains name then some 0 else none := by
  induction l with
  | nil => rfl
  | cons t l ih =>
    by_cases ht : t.contains name
    · simp [changeFirst, ht] at h
    · simp only [changeFirst, if_neg ht, Option.map_eq_none_iff] at h
      simp [position, ht, ih h]

theorem tableAt_mapVisible (s : ScopeStack) (name : String) (f : Table → Table) (i : Nat) :
    (s.mapVisible name f).tableAt i =
      if i = s.home name .visible then (s.tableAt i).map f else s.tableAt i := by
  obtain ⟨l, g⟩ := s
  unfold mapVisible home
  rcases hc : changeFirst name f l with - | l'
  · rw [position_of_changeFirst_eq_none hc]
    by_cases hg : g.contains name
    · simp only [hg, if_true, Option.getD_some]
      rw [tableAt_globals ⟨l, g⟩]
      by_cases hi : i = 0 <;> simp [hi, tableAt_zero]
    · simp only [hg, Bool.false_eq_true, if_false, Option.getD_none]
      exact tableAt_mapTop ⟨l, g⟩ f i
  · obtain ⟨p, hp, -, ht⟩ := tableAt_changeFirst (g := g) hc
    simp only [hp, Option.getD_some]
    exact ht i

theorem find?_contains (s : ScopeStack) (name : String) :
    s.tables.find? (·.contains name) = (position name s.globals s.locals).bind s.tableAt := by
  obtain ⟨l, g⟩ := s
  induction l with
  | nil =>
    by_cases hg : g.contains name <;> simp [tables, position, hg, tableAt_nil]
  | cons t l ih =>
    by_cases ht : t.contains name
    · simp [tables, position, ht, tableAt_cons]
    · have hf : (ScopeStack.mk (t :: l) g).tables.find? (·.contains name) =
          (ScopeStack.mk l g).tables.find? (·.contains name) := by simp [tables, ht]
      rw [hf, ih]
      simp only [position, if_neg ht]
      rcases hp : position name g l with - | i
      · rfl
      · have hi := position_le hp
        simp only [Option.bind_some]
        rw [tableAt_cons, if_neg (by omega)]

theorem tableAt_home (s : ScopeStack) (name : String) :
    s.tableAt (s.home name .visible) = some (s.visibleTable name) := by
  rw [visibleTable, find?_contains, home]
  rcases hp : position name s.globals s.locals with - | i
  · exact tableAt_top s
  · have hs := Option.isSome_of_isSome_bind (entryAt_position hp)
    obtain ⟨t, ht⟩ := Option.isSome_iff_exists.mp hs
    have ht' : s.tableAt i = some t := ht
    simp [ht']

theorem get_eq (s : ScopeStack) (name : String) :
    s.get name = (position name s.globals s.locals).bind (s.entryAt · name) := by
  obtain ⟨l, g⟩ := s
  induction l with
  | nil =>
    rcases hg : g.lookup name with - | e <;>
      simp [get, tables, position, Table.contains, entryAt, tableAt_nil, hg]
  | cons t l ih =>
    rcases ht : t.lookup name with - | e
    · have hg : (ScopeStack.mk (t :: l) g).get name = (ScopeStack.mk l g).get name := by
        simp [get, tables, ht]
      rw [hg, ih]
      simp only [position, Table.contains, ht, Option.isSome_none, Bool.false_eq_true, if_false]
      rcases hp : position name g l with - | i
      · rfl
      · have hi := position_le hp
        simp only [Option.bind_some]
        rw [entryAt_cons, if_neg (by omega)]
    · simp [get, tables, position, Table.contains, entryAt_cons, ht]

end ShellCore.ScopeStack
