import ShellCore.Proofs.Arith.Numeral
import ShellCore.Proofs.Environment.Assign

/-! What an accepted assignment leaves in a visible variable. -/

namespace ShellCore.Environment

open ScopeStack Decimal Arith

variable {η : Type} {name k text : String} {scope : Scope} {flags set unset : Flags}
  {value : Option String} {env env' : Environment η} {n : Nat}

/-- The variable has the value, and no other changes but the option offset. -/
structure Holds (name : String) (value : Option String) (env env' : Environment η) : Prop where
  value : env'.value? name = value
  other (k : String) : k ≠ name → k ≠ optOffset → env'.scopes.get k = env.scopes.get k

/-- Values are stored as they are given. -/
def IsPlain (flags : Flags) : Prop :=
  flags.integer = false ∧ flags.allCaps = false ∧ flags.allSmall = false

/-- The visible variable of the name, if there is one, stores values as they are given. -/
def Plain (env : Environment η) (name : String) : Prop := IsPlain (env.targetFlags name .visible)

theorem holds_store (h : (store name .visible flags value).run.run env = (.ok (), env')) :
    Holds name value env env' := by
  rw [run_store] at h
  rcases ha : (env.scopes.entryOrNew name .visible).assign name value with e | ⟨old, e⟩
  · rw [ha] at h
    injection h with h
    cases h
  · have hv : e.value = value := by rw [(eq_of_assign ha).2]
    have hu : (updateVariable name .visible (fun _ => e) env).value? name = value := by
      show ((env.scopes.update name .visible fun _ => e).get name).bind (·.value) = value
      rw [get_update_visible, Option.bind_some, hv]
    have ho : ∀ k, k ≠ name →
        (updateVariable name .visible (fun _ => e) env).scopes.get k = env.scopes.get k :=
      fun k hk => get_update_other hk
    rw [ha] at h
    injection h with _ h
    split at h
    · rename_i hs
      rw [Bool.and_eq_true, beq_iff_eq] at hs
      have hn := hs.2
      subst h
      refine ⟨?_, fun k hk hko => ?_⟩
      · have hne : name ≠ optOffset := by
          rw [hn]
          decide
        refine Eq.trans ?_ hu
        exact congrArg (·.bind (·.value)) (get_update_other hne)
      · exact (get_update_other hko).trans (ho k hk)
    · subst h
      exact ⟨hu, fun k hk _ => ho k hk⟩

theorem holds_conclude (hs : set.readOnly = false)
    (h : (conclude name .visible flags set unset (.store value)).run.run env = (.ok (), env')) :
    Holds name value env env' := by
  obtain ⟨_, env1, h1, h⟩ := exists_of_run_bind h
  obtain ⟨_, env2, h2, h⟩ := exists_of_run_bind h
  have he1 : declareIn name .visible (set \ { readOnly := true }) unset env = env1 :=
    congrArg Prod.snd h1
  have he2 : env2 = env' := by
    rw [hs, if_neg Bool.false_ne_true] at h
    exact congrArg Prod.snd h
  subst he1 he2
  have hstore := holds_store h2
  exact ⟨hstore.value, fun k hk hko => (hstore.other k hk hko).trans (get_update_other hk)⟩

/-- An assignment whose value is converted to itself. -/
theorem holds_assign {evaluate : Evaluator η} (hc : ∀ converted env1,
      (convert evaluate name (env.assignedFlags name {} unset {}) value).run.run env =
        (.ok converted, env1) → converted = .store value ∧ env1 = env)
    (h : (assignWith evaluate name value {} unset {}).run.run env = (.ok (), env')) :
    Holds name value env env' := by
  rw [run_assignWith] at h
  split at h
  · cases h
  · obtain ⟨converted, env1, h1, h⟩ := exists_of_run_bind h
    obtain ⟨rfl, rfl⟩ := hc converted env1 h1
    exact holds_conclude rfl h

/-- Text that no case conversion changes, and that evaluates to itself if it evaluates at all. -/
theorem eq_of_convert {evaluate : Evaluator η} {converted : SpecialAssign} (hs : ¬ flags.special)
    (hcase : flags.convertCase text = text)
    (he : ∀ v env1, evaluate text env = (.ok v, env1) → Decimal.text v.toInt = text ∧ env1 = env)
    (hc : (convert evaluate name flags (some text)).run.run env = (.ok converted, env')) :
    converted = .store (some text) ∧ env' = env := by
  by_cases hf : Evaluates flags
  · rw [run_convert_of_evaluates hf] at hc
    rcases hv : evaluate text env with ⟨v | v, env1⟩
    · rw [hv] at hc
      cases hc
    · obtain ⟨ht, rfl⟩ := he v env1 hv
      rw [hv] at hc
      cases hc
      exact ⟨by rw [ht], rfl⟩
  · unfold convert at hc
    rw [if_neg hs] at hc
    split at hc
    · rw [Option.map_some, hcase] at hc
      cases hc
      exact ⟨rfl, rfl⟩
    · rename_i hu
      split at hc
      · rename_i hi
        simp only [Bool.or_eq_true, not_or, Bool.not_eq_true] at hs hu
        exact absurd ⟨hs, hu.1, hu.2, hi⟩ hf
      · cases hc
        exact ⟨rfl, rfl⟩

theorem convert_standalone {env : Environment (List String)} (hh : env.host = Host.standalone)
    (hs : flags.special) (value : Option String) :
    (convert evaluator name flags value).run.run env = (.ok (.store value), env) := by
  obtain ⟨_, _, _, _, host, _, _⟩ := env
  obtain rfl : host = Host.standalone := hh
  unfold convert
  rw [if_pos hs]
  rfl

theorem changeFlags_none (flags : Flags) :
    changeFlags flags ({} \ { readOnly := true }) {} = flags := by
  simp [changeFlags, Union.union, SDiff.sdiff, Flags.combine]

theorem assignedFlags_visible (env : Environment η) (name : String) :
    env.assignedFlags name {} {} {} = env.targetFlags name .visible := changeFlags_none _

theorem holds_assign_plain {env env' : Environment (List String)}
    (hh : env.host = Host.standalone) (hp : env.Plain name)
    (h : (assign name value {} {} {}).run.run env = (.ok (), env')) :
    Holds name value env env' := by
  refine holds_assign (fun converted env1 hc => ?_) h
  rw [assignedFlags_visible] at hc
  obtain ⟨hi, hu, hl⟩ := hp
  by_cases hs : (env.targetFlags name .visible).special
  · rw [convert_standalone hh hs] at hc
    cases hc
    exact ⟨rfl, rfl⟩
  · unfold convert at hc
    rw [if_neg hs, hi, hu, hl] at hc
    cases hc
    exact ⟨rfl, rfl⟩

theorem run_evaluator_natText (n : Nat) (env : Environment η) :
    ∃ message, evaluator (natText n) env = match fit n with
      | some v => (.ok v, env)
      | none => (.error message, env) := by
  obtain ⟨e, he⟩ := evaluateInteger_natText (access (η := η)) n env
  have h : (evaluateInteger access (natText n)).run env = _ := he
  refine ⟨arithMessage e, ?_⟩
  unfold evaluator
  rw [h]
  cases fit n <;> rfl

/-- A number is stored as it is written, whatever the flags of the variable are. -/
theorem holds_assign_natText {env env' : Environment (List String)}
    (hh : env.host = Host.standalone)
    (h : (assign name (some (natText n)) {} {} {}).run.run env = (.ok (), env')) :
    Holds name (some (natText n)) env env' := by
  refine holds_assign (fun converted env1 hc => ?_) h
  by_cases hs : (env.assignedFlags name {} {} {}).special
  · rw [convert_standalone hh hs] at hc
    cases hc
    exact ⟨rfl, rfl⟩
  · refine eq_of_convert hs (convertCase_natText _ n) (fun v env2 hv => ?_) hc
    obtain ⟨m, hm⟩ := run_evaluator_natText n env
    rw [hm] at hv
    cases hf : fit n with
    | none =>
      rw [hf] at hv
      cases hv
    | some w =>
      rw [hf] at hv
      cases hv
      exact ⟨by rw [toInt_of_fit hf]; rfl, rfl⟩

end ShellCore.Environment
