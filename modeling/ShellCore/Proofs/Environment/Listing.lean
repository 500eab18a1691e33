import Mathlib.Data.List.Forall2
import ShellCore.Environment.Listing
import ShellCore.Proofs.SortedLines
import ShellCore.Proofs.Variable.Entries

/-! Listings show what is visible, whatever order the tables hold their entries in. -/

namespace ShellCore

namespace ScopeStack

variable {s s' : ScopeStack} {scope : Scope} {name : String} {e : Entry}

/-- The tables hold the same entries, each table in an order of its own. -/
def Reordered (s s' : ScopeStack) : Prop :=
  List.Forall₂ (fun t t' : Table => t'.entries.toList.Perm t.entries.toList) s.tables s'.tables

theorem Reordered.get (h : Reordered s s') (name : String) : s'.get name = s.get name := by
  unfold Reordered at h
  unfold ScopeStack.get
  generalize s.tables = l, s'.tables = l' at h
  induction h with
  | nil => rfl
  | @cons t t' l l' ht hl ih =>
    have hn : t'.lookup name = t.lookup name := Dictionary.get?_of_perm ht name
    rw [List.findSome?_cons, List.findSome?_cons, hn, ih]

theorem get?_listing (s : ScopeStack) (hs : scope ≠ .innermost) (name : String) :
    (s.listing scope).get? name = s.get name := by
  have hl : s.listing scope = Dictionary.ofList (s.tables.flatMap (·.entries.toList)) := by
    cases scope with
    | innermost => exact absurd rfl hs
    | outermost => rfl
    | visible => rfl
  rw [hl, Dictionary.get?_ofList, ScopeStack.get]
  induction s.tables with
  | nil => rfl
  | cons t l ih =>
    rw [List.flatMap_cons, List.lookup_append, ih, List.findSome?_cons]
    show (t.lookup name).or _ = _
    cases t.lookup name <;> rfl

/-- Each name that a table has is listed once, with its visible entry. -/
theorem mem_listing (hs : scope ≠ .innermost) :
    (name, e) ∈ (s.listing scope).toList ↔ s.get name = some e := by
  rw [Dictionary.mem_toList_iff, get?_listing s hs]

theorem mem_names_listing (hs : scope ≠ .innermost) :
    name ∈ (s.listing scope).names ↔ ∃ i e, s.entryAt i name = some e := by
  constructor
  · intro hn
    obtain ⟨⟨_, e⟩, hp, rfl⟩ := List.mem_map.mp hn
    obtain ⟨i, he, -⟩ := get_eq_some_iff.mp ((mem_listing hs).mp hp)
    exact ⟨i, e, he⟩
  · rintro ⟨i, e, he⟩
    rcases hg : s.get name with - | e'
    · rw [get_eq_none_iff.mp hg i] at he
      cases he
    · exact List.mem_map.mpr ⟨(name, e'), (mem_listing hs).mpr hg, rfl⟩

theorem Reordered.perm_listing (h : Reordered s s') :
    (s'.listing .outermost).toList.Perm (s.listing .outermost).toList := by
  refine Dictionary.perm_of_get? fun name => ?_
  have ho : Scope.outermost ≠ .innermost := by decide
  rw [get?_listing s' ho, get?_listing s ho, h.get]

end ScopeStack

namespace Environment

variable {η : Type}

/-- The visible variables that have the flags. -/
def shown (env : Environment η) (filter : Flags) : List (String × Entry) :=
  (env.scopes.listing .outermost).toList.filter (·.2.flags.contains filter)

theorem nodup_shown (env : Environment η) (filter : Flags) :
    ((env.shown filter).map Prod.fst).Nodup :=
  (env.scopes.listing .outermost).nodup.sublist (List.filter_sublist.map _)

theorem mem_shown {env : Environment η} {filter : Flags} {name : String} {e : Entry} :
    (name, e) ∈ env.shown filter ↔ env.scopes.get name = some e ∧ e.flags.contains filter := by
  rw [shown, List.mem_filter, ScopeStack.mem_listing (by decide)]

theorem variableLine_eq (quote : String → String) (name : String) (e : Entry) :
    variableLine quote name e = e.value.elim name fun value => name ++ "=" ++ quote value := by
  unfold variableLine
  cases e.value <;> rfl

/-- A listing has one line for each name whose visible entry has the flags, and its lines are in the
order of their bytes. In which order the tables hold their entries does not matter. -/
theorem listing_shows_visible (env : Environment η) (quote : String → String) (filter : Flags) :
    let listing := env.listVariablesWith quote filter
    (∃ shown : List (String × Entry), (shown.map Prod.fst).Nodup ∧
      (∀ name e, (name, e) ∈ shown ↔
        env.scopes.get name = some e ∧ e.flags.contains filter) ∧
      listing.lines.Perm (shown.map fun p =>
        p.2.value.elim p.1 fun value => p.1 ++ "=" ++ quote value)) ∧
    listing.lines.Pairwise (fun a b => bytes a ≤ bytes b) ∧
    (∀ env' : Environment η, env.scopes.Reordered env'.scopes →
      env'.listVariablesWith quote filter = listing) ∧
    ∀ scope, scope ≠ .innermost →
      (env.scopes.listing scope).names.Nodup ∧
      (∀ name, name ∈ (env.scopes.listing scope).names ↔
        ∃ i e, env.scopes.entryAt i name = some e) ∧
      ∀ name e, (name, e) ∈ (env.scopes.listing scope).toList ↔
        env.scopes.get name = some e := by
  intro listing
  refine ⟨⟨env.shown filter, env.nodup_shown filter, fun name e => mem_shown, ?_⟩, ?_, ?_, ?_⟩
  · simp only [← variableLine_eq]
    exact SortedLines.perm_addAll_empty _
  · exact SortedLines.inOrder_addAll List.Pairwise.nil _
  · intro env' h
    exact SortedLines.addAll_eq_of_perm ((h.perm_listing.filter _).map _)
  · intro scope hs
    exact ⟨(env.scopes.listing scope).nodup, fun name => ScopeStack.mem_names_listing hs,
      fun name e => ScopeStack.mem_listing hs⟩

end Environment

end ShellCore
