/-! Finite maps from names, kept as lists in which no name occurs twice. -/

namespace ShellCore

structure Dictionary (α : Type) where
  toList : List (String × α)
  nodup : (toList.map Prod.fst).Nodup

namespace Dictionary

variable {α β : Type}

def empty : Dictionary α := ⟨[], List.nodup_nil⟩

instance : EmptyCollection (Dictionary α) := ⟨empty⟩

instance : Inhabited (Dictionary α) := ⟨empty⟩

def get? (d : Dictionary α) (name : String) : Option α := d.toList.lookup name

def contains (d : Dictionary α) (name : String) : Bool := (d.get? name).isSome

def size (d : Dictionary α) : Nat := d.toList.length

/-- The list with the value in the place of the one under the same name, or else at the end. -/
def put (name : String) (a : α) : List (String × α) → List (String × α)
  | [] => [(name, a)]
  | p :: l => if p.1 = name then (name, a) :: l else p :: put name a l

theorem fst_mem_put {name k : String} {a : α} {l : List (String × α)} :
    k ∈ (put name a l).map Prod.fst ↔ k = name ∨ k ∈ l.map Prod.fst := by
  induction l with
  | nil => simp [put]
  | cons p l ih => by_cases h : p.1 = name <;> grind [put]

theorem nodup_put {name : String} {a : α} {l : List (String × α)}
    (h : (l.map Prod.fst).Nodup) : ((put name a l).map Prod.fst).Nodup := by
  induction l with
  | nil => simp [put]
  | cons p l ih =>
    simp only [List.map_cons, List.nodup_cons] at h
    by_cases hp : p.1 = name
    · simp only [put, if_pos hp, List.map_cons, List.nodup_cons]
      exact ⟨hp ▸ h.1, h.2⟩
    · simp only [put, if_neg hp, List.map_cons, List.nodup_cons, fst_mem_put]
      exact ⟨fun hm => hm.elim hp h.1, ih h.2⟩

def insert (d : Dictionary α) (name : String) (a : α) : Dictionary α :=
  ⟨put name a d.toList, nodup_put d.nodup⟩

def erase (d : Dictionary α) (name : String) : Dictionary α :=
  ⟨d.toList.filter (·.1 != name), d.nodup.sublist (List.filter_sublist.map _)⟩

/-- The first value under each name of the list. -/
def ofList : List (String × α) → Dictionary α
  | [] => {}
  | p :: l => ⟨p :: ((ofList l).erase p.1).toList, by
      rw [List.map_cons, List.nodup_cons]
      exact ⟨by simp [erase], ((ofList l).erase p.1).nodup⟩⟩

def names (d : Dictionary α) : List String := d.toList.map Prod.fst

theorem lookup_cons (n k : String) (a : α) (l : List (String × α)) :
    ((n, a) :: l).lookup k = if k = n then some a else l.lookup k := by
  by_cases h : k = n
  · simp [h]
  · simp [List.lookup_cons, h, beq_eq_false_iff_ne.mpr h]

theorem lookup_put (name k : String) (a : α) (l : List (String × α)) :
    (put name a l).lookup k = if k = name then some a else l.lookup k := by
  induction l with
  | nil => simp [put, lookup_cons]
  | cons p l ih =>
    obtain ⟨n, b⟩ := p
    by_cases hn : n = name
    · subst hn
      by_cases hk : k = n <;> simp [put, lookup_cons, hk]
    · by_cases hk : k = n
      · subst hk
        simp [put, hn]
      · simp [put, lookup_cons, hn, hk, ih]

theorem lookup_filter (name k : String) (l : List (String × α)) :
    (l.filter (·.1 != name)).lookup k = if k = name then none else l.lookup k := by
  induction l with
  | nil => simp
  | cons p l ih =>
    obtain ⟨n, b⟩ := p
    by_cases hn : n = name
    · have hf : ((n, b) :: l).filter (·.1 != name) = l.filter (·.1 != name) := by simp [hn]
      rw [hf, ih, lookup_cons]
      by_cases hk : k = name <;> simp [hk, hn]
    · have hf : ((n, b) :: l).filter (·.1 != name) = (n, b) :: l.filter (·.1 != name) := by
        simp [hn]
      rw [hf, lookup_cons, lookup_cons, ih]
      by_cases hk : k = n
      · simp [hk, hn]
      · simp [hk]

theorem put_put (name : String) (a b : α) (l : List (String × α)) :
    put name b (put name a l) = put name b l := by
  induction l with
  | nil => simp [put]
  | cons p l ih =>
    by_cases hp : p.1 = name
    · simp [put, hp]
    · simp [put, hp, ih]

/-- Of two values put under one name, the second stays. -/
theorem insert_insert (d : Dictionary α) (name : String) (a b : α) :
    (d.insert name a).insert name b = d.insert name b := by
  simp only [insert, put_put]

theorem erase_erase (d : Dictionary α) (name : String) :
    (d.erase name).erase name = d.erase name := by
  simp only [erase, List.filter_filter, Bool.and_self]

theorem lookup_eq_some_iff {l : List (String × α)} (h : (l.map Prod.fst).Nodup) {k : String}
    {a : α} : l.lookup k = some a ↔ (k, a) ∈ l := by
  induction l with
  | nil => simp
  | cons p l ih =>
    obtain ⟨n, b⟩ := p
    rw [List.map_cons, List.nodup_cons] at h
    rw [lookup_cons, List.mem_cons, Prod.mk.injEq]
    by_cases hk : k = n
    · subst hk
      have hn : (k, a) ∉ l := fun hm => h.1 (List.mem_map.mpr ⟨_, hm, rfl⟩)
      simp [hn, eq_comm]
    · rw [if_neg hk, ih h.2]
      simp [hk]

theorem mem_toList_iff {d : Dictionary α} {k : String} {a : α} :
    (k, a) ∈ d.toList ↔ d.get? k = some a :=
  (lookup_eq_some_iff d.nodup).symm

/-- Dictionaries with the same values differ in their order at most. -/
theorem perm_of_get? {d d' : Dictionary α} (h : ∀ k, d'.get? k = d.get? k) :
    d'.toList.Perm d.toList := by
  have hd : ∀ d : Dictionary α, d.toList.Nodup := fun d =>
    List.Pairwise.of_map Prod.fst (fun _ _ hne he => hne (congrArg Prod.fst he)) d.nodup
  refine (List.perm_ext_iff_of_nodup (hd d') (hd d)).mpr fun p => ?_
  rw [mem_toList_iff, mem_toList_iff, h]

theorem get?_of_perm {d d' : Dictionary α} (h : d'.toList.Perm d.toList) (k : String) :
    d'.get? k = d.get? k := by
  ext a
  rw [← mem_toList_iff, ← mem_toList_iff, h.mem_iff]

@[simp] theorem get?_empty (k : String) : (empty : Dictionary α).get? k = none := rfl

@[simp] theorem get?_insert (d : Dictionary α) (name k : String) (a : α) :
    (d.insert name a).get? k = if k = name then some a else d.get? k :=
  lookup_put name k a d.toList

@[simp] theorem get?_erase (d : Dictionary α) (name k : String) :
    (d.erase name).get? k = if k = name then none else d.get? k :=
  lookup_filter name k d.toList

@[simp] theorem get?_ofList (l : List (String × α)) (k : String) :
    (ofList l).get? k = l.lookup k := by
  induction l with
  | nil => rfl
  | cons p l ih =>
    obtain ⟨n, b⟩ := p
    have he : ((ofList l).erase n).toList.lookup k = _ := get?_erase (ofList l) n k
    show ((n, b) :: ((ofList l).erase n).toList).lookup k = _
    by_cases hk : k = n <;> simp [lookup_cons, hk, he, ih]

end Dictionary

end ShellCore
