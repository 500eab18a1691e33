import ShellCore.Proofs.Variable.ReadOnly

/-! The lasting flags of entries, and changes that keep them. -/

namespace ShellCore.ScopeStack

variable {s s' s'' : ScopeStack} {name : String} {scope : Scope} {f : Entry → Entry} {i : Nat}
  {e : Entry} {F : Flags → Prop}

/-- The lasting flags of the entry of the name in a table. -/
def attributes (s : ScopeStack) (i : Nat) (name : String) : Option Flags :=
  (s.entryAt i name).map (·.flags.lasting)

/-- A name that has entries keeps them all, each with its lasting flags, and gets no others. The
entries of a name that had none have no lasting flags. -/
structure KeepsAttributes (s s' : ScopeStack) : Prop where
  levels : s.SameLevels s'
  kept (name : String) : (∀ i, s'.attributes i name = s.attributes i name) ∨
    (s.get name = none ∧ ∀ i, (s'.attributes i name).getD {} = {})

theorem attributes_eq_none_iff : s.attributes i name = none ↔ s.entryAt i name = none :=
  Option.map_eq_none_iff

/-- Equal attributes in all tables are the attributes of one visible entry. -/
theorem lasting_get_congr (h : ∀ i, s'.attributes i name = s.attributes i name) :
    (s'.get name).map (·.flags.lasting) = (s.get name).map (·.flags.lasting) := by
  have hn : ∀ i, s'.entryAt i name = none ↔ s.entryAt i name = none := by
    intro i
    rw [← attributes_eq_none_iff, h, attributes_eq_none_iff]
  rcases hg : s.get name with - | e
  · have hg' : s'.get name = none := get_eq_none_iff.mpr fun i =>
      (hn i).mpr (get_eq_none_iff.mp hg i)
    rw [hg']
  · obtain ⟨i, he, hu⟩ := get_eq_some_iff.mp hg
    have hi := h i
    rw [attributes, attributes, he] at hi
    obtain ⟨e', he', hf⟩ := Option.map_eq_some_iff.mp hi
    have hg' : s'.get name = some e' :=
      get_eq_some_iff.mpr ⟨i, he', fun j hj => (hn j).mpr (hu j hj)⟩
    rw [hg', Option.map_some, hf]
    rfl

theorem attributes_get (s : ScopeStack) (name : String) :
    ∃ i, (s.get name).map (·.flags.lasting) = s.attributes i name := by
  rcases hg : s.get name with - | e
  · exact ⟨0, by rw [attributes, get_eq_none_iff.mp hg]⟩
  · obtain ⟨i, he, -⟩ := get_eq_some_iff.mp hg
    exact ⟨i, by rw [attributes, he]⟩

namespace KeepsAttributes

theorem get_eq_none (h : KeepsAttributes s s') (hn : s'.get name = none) : s.get name = none := by
  rcases h.kept name with ha | ⟨ha, -⟩
  · have hl := lasting_get_congr ha
    rw [hn] at hl
    exact Option.map_eq_none_iff.mp hl.symm
  · exact ha

instance : Std.Refl KeepsAttributes := ⟨fun s => ⟨.refl s, fun _ => .inl fun _ => rfl⟩⟩

instance : Trans KeepsAttributes KeepsAttributes KeepsAttributes where
  trans h h' := by
    refine ⟨h.levels.trans h'.levels, fun name => ?_⟩
    rcases h'.kept name with ha' | ⟨hn', ha'⟩
    · rcases h.kept name with ha | ⟨hn, ha⟩
      · exact .inl fun i => (ha' i).trans (ha i)
      · exact .inr ⟨hn, fun i => (congrArg (·.getD {}) (ha' i)).trans (ha i)⟩
    · exact .inr ⟨h.get_eq_none hn', ha'⟩

/-- A change in any scope would find the same lasting flags. -/
theorem lasting_getScoped (h : KeepsAttributes s s') (name : String) (scope : Scope) :
    ((s'.getScoped name scope).map (·.flags.lasting)).getD {} =
      ((s.getScoped name scope).map (·.flags.lasting)).getD {} := by
  have hlen := h.levels.length
  rcases h.kept name with ha | ⟨hn, ha⟩
  · have hg := lasting_get_congr ha
    cases scope with
    | outermost =>
      have h0 := ha 0
      simp only [ScopeStack.attributes, ← lookup_globals] at h0
      rw [getScoped, getScoped, Option.map_or, Option.map_or, h0, hg]
    | innermost =>
      have ht := ha s.locals.length
      simp only [ScopeStack.attributes, ← lookup_top] at ht
      rw [← hlen, ← lookup_top] at ht
      rw [getScoped, getScoped, ht]
    | visible => rw [getScoped, getScoped, hg]
  · obtain ⟨i, hi⟩ := attributes_get s' name
    have hv : ((s'.get name).map (·.flags.lasting)).getD {} = {} := hi ▸ ha i
    have hs := get_eq_none_iff.mp hn
    cases scope with
    | outermost =>
      have h0 := ha 0
      rw [ScopeStack.attributes, ← lookup_globals] at h0
      rw [getScoped, getScoped, lookup_globals s, hs, hn]
      rcases hg : s'.globals.lookup name with - | e
      · simpa using hv
      · rw [hg] at h0
        simpa using h0
    | innermost =>
      have ht := ha s'.locals.length
      rw [ScopeStack.attributes, ← lookup_top] at ht
      rw [getScoped, getScoped, lookup_top s, hs]
      exact ht
    | visible => rw [getScoped, getScoped, hn, hv]; rfl

theorem readOnly_getScoped (h : KeepsAttributes s s') (name : String) (scope : Scope) :
    (s'.getScoped name scope).any (·.flags.readOnly) =
      (s.getScoped name scope).any (·.flags.readOnly) := by
  have hl := h.lasting_getScoped name scope
  rw [← lasting_entryOrNew, ← lasting_entryOrNew] at hl
  rw [← readOnly_entryOrNew, ← readOnly_entryOrNew, ← Flags.readOnly_lasting, hl,
    Flags.readOnly_lasting]

end KeepsAttributes

/-- A change of the visible entry that leaves its lasting flags alone. -/
theorem keepsAttributes_update (hf : (f (s.entryOrNew name .visible)).flags.lasting =
      (s.entryOrNew name .visible).flags.lasting) :
    KeepsAttributes s (s.update name .visible f) := by
  refine ⟨sameLevels_update, fun k => ?_⟩
  by_cases hk : k = name
  · subst hk
    rcases hg : s.get k with - | e
    · refine .inr ⟨rfl, fun i => ?_⟩
      rw [attributes, entryAt_update, if_pos rfl, if_neg visible_ne_outermost]
      split
      · rw [Option.map_some, Option.getD_some, hf, lasting_entryOrNew, getScoped, hg]
        rfl
      · rw [get_eq_none_iff.mp hg i]
        rfl
    · obtain ⟨p, he, hu⟩ := get_eq_some_iff.mp hg
      have hp := home_of_unhidden he hu
      refine .inl fun i => ?_
      rw [attributes, attributes, entryAt_update, if_pos rfl, if_neg visible_ne_outermost, hp]
      split
      · rename_i hi
        rw [hi, he, Option.map_some, hf, entryOrNew_of_entryAt_home (hp ▸ he), Option.map_some]
      · rfl
  · exact .inl fun i => by rw [attributes, entryAt_update_other hk, attributes]

/-- The lasting flags of each entry are those of an earlier entry of the name, or there are none. -/
def Inherits (s s' : ScopeStack) : Prop :=
  ∀ i name e, s'.entryAt i name = some e → e.flags.lasting = {} ∨
    ∃ j e', s.entryAt j name = some e' ∧ e.flags.lasting = e'.flags.lasting

namespace Inherits

theorem refl (s : ScopeStack) : Inherits s s := fun i _ e he => .inr ⟨i, e, he, rfl⟩

theorem trans (h : Inherits s s') (h' : Inherits s' s'') : Inherits s s'' := by
  intro i name e he
  rcases h' i name e he with h0 | ⟨j, e', he', hf⟩
  · exact .inl h0
  · rw [hf]
    exact h j name e' he'

/-- What holds of the lasting flags of all entries, and where there are none, still holds. -/
theorem all (h : Inherits s s') (h0 : F {})
    (hs : ∀ i name e, s.entryAt i name = some e → F e.flags.lasting) (i : Nat) (name : String)
    (e : Entry) (he : s'.entryAt i name = some e) : F e.flags.lasting := by
  rcases h i name e he with hf | ⟨j, e', he', hf⟩
  · rw [hf]
    exact h0
  · rw [hf]
    exact hs j name e' he'

end Inherits

theorem inherits_update (hf : (f (s.entryOrNew name .visible)).flags.lasting =
      (s.entryOrNew name .visible).flags.lasting) :
    Inherits s (s.update name .visible f) := by
  intro i k e he
  rw [entryAt_update, if_neg visible_ne_outermost] at he
  split at he
  · rename_i hk
    split at he
    · cases he
      subst hk
      rw [hf, lasting_entryOrNew, getScoped]
      rcases hg : s.get k with - | e
      · exact .inl rfl
      · obtain ⟨j, hj, -⟩ := get_eq_some_iff.mp hg
        exact .inr ⟨j, e, hj, rfl⟩
    · exact Inherits.refl s i k e he
  · exact Inherits.refl s i k e he

theorem inherits_unset {removed : Option Entry} (h : s.unset name scope = .ok (removed, s')) :
    Inherits s s' := by
  intro i k e he
  rw [entryAt_unset h] at he
  split at he
  · cases he
  · exact Inherits.refl s i k e he

end ShellCore.ScopeStack
