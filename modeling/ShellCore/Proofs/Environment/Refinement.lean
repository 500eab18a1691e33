import Mathlib.Control.Monad.Basic
import ShellCore.Proofs.Arith.Simulation
import ShellCore.Proofs.Environment.Store

/-! Arithmetic over the variables of a shell refines arithmetic over a flat set of variables. -/

namespace ShellCore.Environment

open ScopeStack Arith

variable {bindings : Bindings} {env : Environment (List String)} {name value : String}

/-- The visible variables with values are the bindings. Assignments to them are neither refused nor
converted, and unset variables count as zero. -/
structure Mirrors (bindings : Bindings) (env : Environment (List String)) : Prop where
  value (name : String) : env.value? name = bindings.get? name
  flags (name : String) (i : Nat) (e : Entry) :
    env.scopes.entryAt i name = some e → e.flags.lasting = {}
  unset : env.settings.unset
  host : env.host = Host.standalone

namespace Mirrors

theorem lasting_get (h : Mirrors bindings env) (name : String) :
    ((env.scopes.get name).map (·.flags.lasting)).getD {} = {} := by
  rcases hg : env.scopes.get name with - | e
  · rfl
  · obtain ⟨i, he, -⟩ := get_eq_some_iff.mp hg
    exact h.flags name i e he

theorem lasting_targetFlags (h : Mirrors bindings env) (name : String) :
    (env.targetFlags name .visible).lasting = {} := by
  rw [lasting_targetFlags_eq, getScoped, h.lasting_get]

theorem accepts (h : Mirrors bindings env) (name : String) : env.refuses name .visible = false := by
  have hr : (env.scopes.getScoped name .visible).any (·.flags.readOnly) = false := by
    have hl := h.lasting_get name
    rw [← readOnly_entryOrNew, ← Flags.readOnly_lasting, lasting_entryOrNew, getScoped, hl]
  rw [refuses, hr]
  rfl

/-- A number that arithmetic assigns is stored as it is. -/
theorem run_assign (h : Mirrors bindings env) (name value : String) (span : Span) :
    access.assign name value span env =
      (.ok (), updateVariable name .visible
        (assigned env {} { temporary := true } (some value)) env) := by
  refine run_assignWith_of_plain (h.accepts name) ?_
  have hf : (changeFlags (env.targetFlags name .visible) ({} \ { readOnly := true })
      { temporary := true }).lasting = (env.targetFlags name .visible).lasting := by
    simp [Flags.lasting, changeFlags, Union.union, SDiff.sdiff, Flags.combine]
  exact hf.trans (h.lasting_targetFlags name)

theorem lasting_assigned (h : Mirrors bindings env) (name : String) (value : Option String) :
    (assigned env {} { temporary := true } value
      (env.scopes.entryOrNew name .visible)).flags.lasting = {} := by
  have hf : ∀ (flags : Flags) (b : Bool), (changeFlags flags {} { temporary := true } ∪
      { exported := b }).lasting = flags.lasting := by
    intro flags b
    simp [Flags.lasting, changeFlags, Union.union, SDiff.sdiff, Flags.combine]
  rw [assigned, hf, lasting_entryOrNew]
  exact h.lasting_get name

theorem assign (h : Mirrors bindings env) (name value : String) :
    Mirrors (bindings.insert name value) (updateVariable name .visible
      (assigned env {} { temporary := true } (some value)) env) where
  value k := by
    rw [Dictionary.get?_insert]
    split
    · rename_i hk
      subst hk
      exact congrArg (·.bind (·.value)) get_update_visible
    · rename_i hk
      exact (congrArg (·.bind (·.value)) (get_update_other hk)).trans (h.value k)
  flags k i e he := by
    have hu := entryAt_update env.scopes name .visible
      (assigned env {} { temporary := true } (some value)) i k
    rw [show (updateVariable _ _ _ env).scopes.entryAt i k = _ from hu] at he
    split at he
    · split at he
      · cases he
        exact h.lasting_assigned name (some value)
      · rw [if_neg visible_ne_outermost] at he
        exact h.flags k i e he
    · exact h.flags k i e he
  unset := h.unset
  host := h.host

end Mirrors

/-- The flat set of variables beside a shell without services. -/
def mirroring : Comparison Bindings (Environment (List String)) Empty UnsetVariableError Empty
    AssignError where
  states := Mirrors
  spans := Eq
  unreadable := nofun
  unassignable := nofun
  excused _ := False
  spans_refl _ := rfl
  spans_shift h ht n := by rw [h, ht]
  not_isSyntax := False.elim

theorem accesses_mirroring : mirroring.Accesses Bindings.access access where
  get name bindings env h := by
    have hv := h.value name
    have hr : access.get name env = (.ok (bindings.get? name), env) := by
      unfold access
      dsimp only
      rw [hv, h.unset]
      cases bindings.get? name <;> rfl
    rw [hr]
    exact ⟨rfl, h⟩
  assign name value span span' _ bindings env h := by
    rw [h.run_assign]
    exact ⟨rfl, h.assign name value⟩
  expandWord text bindings env h := by
    obtain ⟨scopes, functions, settings, exitStatus, host, hostState, shellName⟩ := env
    obtain rfl : host = Host.standalone := h.host
    exact ⟨rfl, h⟩
  substituteCommand text bindings env h := by
    obtain ⟨scopes, functions, settings, exitStatus, host, hostState, shellName⟩ := env
    obtain rfl : host = Host.standalone := h.host
    exact ⟨rfl, h⟩
  setExitStatus status bindings env h := ⟨h.value, h.flags, h.unset, h.host⟩

/-- Where the visible variables of a shell are the bindings, an expression has the same value as
over the bindings, or fails for the same cause at the same place, and afterwards the visible
variables are the bindings again. -/
theorem expandWithin_mirrors (limits : Limits) (expression : String) (h : Mirrors bindings env) :
    let r := (expandWithin Bindings.access limits expression).run.run bindings
    let r' := (expandWithin access limits expression).run.run env
    r'.1 = r.1.mapError (fun e => ⟨e.cause.map nofun nofun, e.span⟩) ∧ Mirrors r.2 r'.2 := by
  intro r r'
  have hs : mirroring.Ends Eq r r' :=
    accesses_mirroring.expandWithin (.inl rfl) (.inl rfl) expression bindings env h
  generalize r = r at hs ⊢
  generalize r' = r' at hs ⊢
  cases hs with
  | ok ha hs =>
    subst ha
    exact ⟨rfl, hs⟩
  | @error e e' _ _ he hs =>
    obtain ⟨cause, span⟩ := e
    obtain ⟨cause', span'⟩ := e'
    obtain ⟨hc, hl⟩ := he
    dsimp only at hc hl
    change span = span' at hl
    subst hc hl
    exact ⟨rfl, hs⟩
  | excused he => exact he.elim

/-- A local variable hides the exported one. -/
def shadowed : Environment (List String) where
  scopes := {
    locals := [⟨1, .ofList [("y", ⟨some "5", .plain, { isLocal := true, temporary := true }⟩)]⟩]
    globals := ⟨0, .ofList [("x", .ofValue "y + 1"),
      ("y", ⟨some "7", .plain, { exported := true }⟩)]⟩ }
  host := .standalone
  hostState := []

theorem mirrors_shadowed : Mirrors (.ofList [("x", "y + 1"), ("y", "5")]) shadowed where
  value name := by
    simp only [value?, shadowed, ScopeStack.get, ScopeStack.tables, Table.lookup,
      Dictionary.get?_ofList, Dictionary.lookup_cons, List.cons_append, List.nil_append,
      List.findSome?_cons, List.lookup_nil]
    by_cases hy : name = "y"
    · subst hy
      decide
    · by_cases hx : name = "x" <;> simp [hx, hy, Entry.ofValue]
  flags name i e he := by
    have ht : ∀ t ∈ shadowed.scopes.tables, ∀ p ∈ t.entries.toList, p.2.flags.lasting = {} := by
      decide
    obtain ⟨t, hi, hl⟩ := Option.bind_eq_some_iff.mp he
    have hm : (name, e) ∈ t.entries.toList := by
      have hl : t.entries.toList.lookup name = some e := hl
      obtain ⟨l, l', h, -⟩ := List.lookup_eq_some_iff.mp hl
      rw [h]
      simp
    exact ht t (mem_tables.mpr ⟨i, hi⟩) (name, e) hm
  unset := rfl
  host := rfl

/-- The value of `x` is evaluated with the local `y`. -/
theorem expand_shadowed :
    Mirrors (.ofList [("x", "y + 1"), ("y", "5")]) shadowed ∧
      ∃ env', (expandWithin access {} "z = x * 2").run.run shadowed = (.ok (.integer 12), env') ∧
        env'.value? "z" = some "12" ∧ env'.value? "y" = some "5" := by
  refine ⟨mirrors_shadowed, ?_⟩
  have hr : ((expandWithin Bindings.access {} "z = x * 2").run.run
      (.ofList [("x", "y + 1"), ("y", "5")])).1 = .ok (.integer 12) := by decide +kernel
  have hz : ((expandWithin Bindings.access {} "z = x * 2").run.run
      (.ofList [("x", "y + 1"), ("y", "5")])).2.get? "z" = some "12" := by decide +kernel
  have hy : ((expandWithin Bindings.access {} "z = x * 2").run.run
      (.ofList [("x", "y + 1"), ("y", "5")])).2.get? "y" = some "5" := by decide +kernel
  obtain ⟨hv, hm⟩ := expandWithin_mirrors {} "z = x * 2" mirrors_shadowed
  rw [← hm.value] at hz hy
  rw [hr] at hv
  generalize (expandWithin access {} "z = x * 2").run.run shadowed = r' at hv hz hy
  obtain ⟨v, env'⟩ := r'
  exact ⟨env', by rw [show v = .ok (.integer 12) from hv], hz, hy⟩

end ShellCore.Environment
