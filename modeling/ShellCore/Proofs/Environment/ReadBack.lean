import Mathlib.Control.Monad.Basic
import ShellCore.Proofs.Arith.ReadBack
import ShellCore.Proofs.Environment.Failure
import ShellCore.Proofs.Environment.Store
import ShellCore.Proofs.Environment.Values

/-! Numbers that a shell stores in its variables and reads again. -/

namespace ShellCore.Environment

open Arith Decimal ScopeStack

variable {η : Type} {name expression : String} {n : Int64} {env env' : Environment η}

theorem special_targetFlags (h : Relates KeepsAttributes env env') (name : String) (scope : Scope) :
    (env'.targetFlags name scope).special = (env.targetFlags name scope).special := by
  rw [← Flags.special_lasting, lasting_targetFlags h, Flags.special_lasting]

theorem eq_of_closedEvaluator {v : Int64}
    (h : closedEvaluator (text n.toInt) env = (.ok v, env')) : v = n ∧ env' = env := by
  obtain ⟨e, he⟩ := outcome_evaluateInteger_text Bindings.access n {}
  have hr : (evaluateInteger Bindings.access (text n.toInt)).run {} = _ := he
  unfold closedEvaluator at h
  rw [hr] at h
  by_cases hn : n = Int64.minValue
  · rw [if_pos hn] at h
    cases h
  · rw [if_neg hn] at h
    cases h
    exact ⟨rfl, rfl⟩

/-- Text that says what a number is evaluates to it, unless it is the least one. -/
theorem run_evaluator_text (n : Int64) (env : Environment η) :
    ∃ message, evaluator (text n.toInt) env =
      if n = Int64.minValue then (.error message, env) else (.ok n, env) := by
  obtain ⟨e, he⟩ := outcome_evaluateInteger_text (access (η := η)) n env
  have hr : (evaluateInteger access (text n.toInt)).run env = _ := he
  refine ⟨arithMessage e, ?_⟩
  unfold evaluator
  rw [hr]
  by_cases hn : n = Int64.minValue
  · rw [if_pos hn, if_pos hn]
    rfl
  · rw [if_neg hn, if_neg hn]
    rfl

theorem has_of_value (h : env.value? name = some (text n.toInt)) : access.Has name n env := by
  unfold Access.Has access
  dsimp only
  rw [h]

/-- What arithmetic has assigned to a variable that is not special is its value. -/
theorem value_of_assign {place : Span} (hs : (env.targetFlags name .visible).special = false)
    (h : access.assign name (text n.toInt) place env = (.ok (), env')) :
    env'.value? name = some (text n.toInt) := by
  have hflags : (env.assignedFlags name {} { temporary := true } {}).special = false := by
    simp [assignedFlags, changeFlags, Union.union, SDiff.sdiff, Flags.combine, SetControl.scope, hs]
  refine (holds_assign (fun converted env1 hc => ?_) h).value
  refine eq_of_convert (by simp [hflags]) (convertCase_text _ _) (fun v env2 hv => ?_) hc
  obtain ⟨rfl, rfl⟩ := eq_of_closedEvaluator hv
  exact ⟨rfl, rfl⟩

/-- Arithmetic over the variables of a shell reads back every number that it has stored but the
least one, where the shell takes the assignment as it is written. -/
theorem expand_reading_iff {ts : List Token} (hx : IsVariableName name.toList)
    (hs : (env.targetFlags name .visible).special = false)
    (ht : tokens expression.toList = ts.map .ok) (hd : Derivable expression.toList ts)
    (hw : (outcome (expandWords access (assignmentText name expression).toList) env).1 =
      .ok (assignmentText name expression).toList)
    (h : outcome (expand access (assignmentText name expression)) env = (.ok (.integer n), env'))
    {text : String} (hr : text ∈ textsThatRead name) :
    (outcome (expand access text) env').1 = .ok (.integer n) ↔ n ≠ Int64.minValue := by
  obtain ⟨place, env₁, env₂, ha, he⟩ := exists_of_expand_assignment hx ht hd (Prod.ext hw rfl) h
  have hrun : Relates KeepsAttributes env env' := by
    have hk : Relates KeepsAttributes env
        (outcome (expand access (assignmentText name expression)) env).2 :=
      access_keepsAttributes.expand (assignmentText name expression) env
    rwa [h] at hk
  have hassign : Relates KeepsAttributes env₁ env₂ := by
    have hk := access_keepsAttributes.assign name (Decimal.text n.toInt) place env₁
    rwa [ha] at hk
  have hstatus : Relates KeepsAttributes env₂ env' := by
    rw [← he]
    exact access_keepsAttributes.setExitStatus _ env₂
  have hs₁ : (env₁.targetFlags name .visible).special = false := by
    rw [← special_targetFlags (Trans.trans hassign hstatus), special_targetFlags hrun, hs]
  have hv : env₂.value? name = some (Decimal.text n.toInt) := value_of_assign hs₁ ha
  have hget : access.Has name n env' := by
    rw [← he]
    exact has_of_value hv
  exact Arith.expand_reading_iff hx hget hr

theorem accepted_of_run_assign {value : Option String} {set unset : Flags} {control : SetControl}
    (h : (assign name value set unset control).run.run env = (.ok (), env')) :
    env.refuses name control.scope = false := by
  unfold assign at h
  rw [run_assignWith] at h
  split at h
  · cases h
  · rename_i hr
    exact Bool.not_eq_true _ ▸ hr

/-- An accepted assignment to an integer variable stores the number that the text evaluates to. -/
theorem run_assign_of_evaluates {value : Option String} {set unset : Flags} {control : SetControl}
    {expression : String} (ha : env.refuses name control.scope = false)
    (hf : Evaluates (env.assignedFlags name set unset control))
    (hv : env.assignedValue name value control = some expression) :
    (assign name value set unset control).run.run env =
      match evaluator expression env with
      | (.ok n, env') => (.ok (), updateVariable name control.scope
          (assigned env' set unset (some (text n.toInt))) env')
      | (.error message, env') => (.error (.notInteger name message), env') := by
  have hc : (convert evaluator name (env.assignedFlags name set unset control)
      (some expression)).run.run env = _ := run_convert_of_evaluates hf expression env
  unfold assign
  rw [run_assignWith, ha, if_neg Bool.false_ne_true, hv]
  rcases he : evaluator expression env with ⟨message | n, env'⟩
  · rw [he] at hc
    rw [run_bind_of_error hc]
  · rw [he] at hc
    rw [run_bind_of_ok hc]
    exact run_conclude_store (writable_after_convert ha hc) (by rw [hf.special, Bool.false_and])

/-- A change leaves no other entry of its name that it would have to hide or remove. -/
theorem readOnly_of_hidesReadOnly {scope : Scope} {f : Entry → Entry}
    (h : (updateVariable name scope f env).hidesReadOnly name scope) :
    (f (env.scopes.entryOrNew name scope)).flags.readOnly := by
  have hhome := entryAt_update_home env.scopes name scope f
  cases scope with
  | outermost =>
    simp only [hidesReadOnly, getAll, List.any_eq_true, List.mem_filterMap, mem_tables,
      Option.map_eq_some_iff] at h
    obtain ⟨_, ⟨t, ⟨i, ht⟩, e, he, rfl⟩, hp⟩ := h
    have hi : (env.scopes.update name .outermost f).entryAt i name = some e :=
      Option.bind_eq_some_iff.mpr ⟨t, ht, he⟩
    by_cases h0 : i = 0
    · subst h0
      cases hhome.symm.trans hi
      simp only [Bool.and_eq_true] at hp
      exact hp.2
    · rw [entryAt_update_above h0] at hi
      cases hi
  | innermost =>
    have ht : (env.scopes.update name .innermost f).top.contains name := by
      rw [Table.contains, lookup_top, sameLevels_update.length]
      exact Option.isSome_of_eq_some hhome
    simp only [hidesReadOnly, Bool.and_eq_true, Bool.not_eq_true'] at h
    cases ht.symm.trans h.1
  | visible => cases h

theorem refuses_updateVariable {scope scope' : Scope} {f : Entry → Entry}
    (hs : scope' = scope ∨ scope' = .visible) :
    (updateVariable name scope f env).refuses name scope' =
      (f (env.scopes.entryOrNew name scope)).flags.readOnly := by
  have hg : (updateVariable name scope f env).scopes.getScoped name scope' =
      some (f (env.scopes.entryOrNew name scope)) := getScoped_update hs
  have hh : (updateVariable name scope f env).hidesReadOnly name scope' →
      (f (env.scopes.entryOrNew name scope)).flags.readOnly := by
    rcases hs with rfl | rfl
    · exact readOnly_of_hidesReadOnly
    · rintro ⟨⟩
  rw [refuses, hg, Option.any_some]
  cases hr : (f (env.scopes.entryOrNew name scope)).flags.readOnly with
  | true => exact Bool.or_true _
  | false =>
    rw [hr] at hh
    simpa using hh

/-- After an assignment the flags still say that text is evaluated. -/
theorem Evaluates.assigned {set unset : Flags} {control : SetControl} {value : Option String}
    {e : Entry} (hf : Evaluates (env.assignedFlags name set unset control))
    (he : e.flags.lasting = (env.targetFlags name control.scope).lasting) :
    Evaluates (assigned env' set unset value e).flags := by
  obtain ⟨hs, hc, hl, hi⟩ := hf
  -- Every flag that decides is a lasting one.
  have hs' := congrArg Flags.special he
  have hc' := congrArg Flags.allCaps he
  have hl' := congrArg Flags.allSmall he
  have hi' := congrArg Flags.integer he
  simp only [Flags.special_lasting, Flags.allCaps_lasting, Flags.allSmall_lasting,
    Flags.integer_lasting] at hs' hc' hl' hi'
  simp only [assignedFlags, changeFlags, Union.union, SDiff.sdiff, Flags.combine, ← hs', ← hc',
    ← hl', ← hi', Bool.not_false, Bool.and_true] at hs hc hl hi
  constructor <;>
    simp [Environment.assigned, changeFlags, Union.union, SDiff.sdiff, Flags.combine, hs, hc, hl,
      hi]

theorem readOnly_assigned {set unset : Flags} {value : Option String} {e : Entry}
    (hr : e.flags.readOnly = false) :
    (assigned env set unset value e).flags.readOnly = set.readOnly := by
  simp [assigned, hr]

theorem value?_updateVariable {scope : Scope} {f : Entry → Entry} :
    (updateVariable name scope f env).value? name =
      (f (env.scopes.entryOrNew name scope)).value :=
  congrArg (·.bind (·.value)) get_update

/-- An integer variable takes every number but the least one, and stores it as it is written. -/
theorem exists_run_assign_text_iff {control : SetControl}
    (hf : Evaluates (env.assignedFlags name {} {} control)) (ha : control.append = false) :
    (∃ env', (assign name (some (text n.toInt)) {} {} control).run.run env = (.ok (), env') ∧
      env'.value? name = some (text n.toInt)) ↔
        env.refuses name control.scope = false ∧ n ≠ Int64.minValue := by
  obtain ⟨message, he⟩ := run_evaluator_text n env
  have hv : env.assignedValue name (some (text n.toInt)) control = some (text n.toInt) := by
    rw [assignedValue, ha, if_neg Bool.false_ne_true]
  constructor
  · rintro ⟨env', h, -⟩
    have hr : env.refuses name control.scope = false := accepted_of_run_assign h
    refine ⟨hr, fun hn => ?_⟩
    rw [run_assign_of_evaluates hr hf hv, he, if_pos hn] at h
    cases h
  · rintro ⟨hr, hn⟩
    have hrun := run_assign_of_evaluates hr hf hv
    rw [he, if_neg hn] at hrun
    exact ⟨_, hrun, value?_updateVariable⟩

/-- An integer variable that is writable takes its own text again, unless that is the least
number. -/
theorem reassign_iff {value : String} {set unset : Flags} {control control' : SetControl}
    (hf : Evaluates (env.assignedFlags name set unset control))
    (h : (assign name (some value) set unset control).run.run env = (.ok (), env'))
    (ha : control'.append = false)
    (hs : control'.scope = control.scope ∨ control'.scope = .visible) :
    ∃ n : Int64, env'.value? name = some (text n.toInt) ∧
      ((∃ env'', (assign name (some (text n.toInt)) {} {} control').run.run env' = (.ok (), env'') ∧
        env''.value? name = some (text n.toInt)) ↔ set.readOnly = false ∧ n ≠ Int64.minValue) := by
  have hr : env.refuses name control.scope = false := accepted_of_run_assign h
  obtain ⟨expression, hexpression⟩ : ∃ expression,
      env.assignedValue name (some value) control = some expression := by
    unfold assignedValue
    split <;> exact ⟨_, rfl⟩
  have hk := evaluator_keepsAttributes expression env
  rw [run_assign_of_evaluates hr hf hexpression] at h
  rcases he : evaluator expression env with ⟨message | n, env₁⟩
  · rw [he] at h
    cases h
  rw [he] at h hk
  obtain rfl : _ = env' := congrArg Prod.snd h
  have hlasting : (env₁.scopes.entryOrNew name control.scope).flags.lasting =
      (env.targetFlags name control.scope).lasting := by
    rw [lasting_entryOrNew, hk.scopes.lasting_getScoped, ← lasting_targetFlags_eq]
  have hreadOnly : (env₁.scopes.entryOrNew name control.scope).flags.readOnly = false := by
    rw [readOnly_entryOrNew, hk.scopes.readOnly_getScoped, ← readOnly_entryOrNew]
    exact readOnly_of_accepted hr
  refine ⟨n, value?_updateVariable, ?_⟩
  rw [exists_run_assign_text_iff ?_ ha, refuses_updateVariable hs, readOnly_assigned hreadOnly]
  have hg : (updateVariable name control.scope (assigned env₁ set unset (some (text n.toInt)))
      env₁).scopes.getScoped name control'.scope = _ := getScoped_update hs
  rw [assignedFlags, changeFlags_none, targetFlags, hg]
  exact hf.assigned hlasting

/-- Numbers survive as text, all but the least one: as constants, in variables that arithmetic
assigns and reads, whether a shell is around them or not, and in integer variables that take their
own text again. -/
theorem reads_back :
    (∀ n : Int64, constant? (ofInt n.toInt) = some n ↔ n ≠ Int64.minValue) ∧
    (∀ (name expression : String) (ts : List Token) (n : Int64),
      IsVariableName name.toList → tokens expression.toList = ts.map .ok →
      Derivable expression.toList ts →
      (∀ bindings bindings' : Bindings,
        outcome (expand Bindings.access (assignmentText name expression)) bindings =
          (.ok (.integer n), bindings') →
        ∀ text ∈ textsThatRead name,
          (outcome (expand Bindings.access text) bindings').1 = .ok (.integer n) ↔
            n ≠ Int64.minValue) ∧
      (∀ env env' : Environment η, (env.targetFlags name .visible).special = false →
        (outcome (expandWords access (assignmentText name expression).toList) env).1 =
          .ok (assignmentText name expression).toList →
        outcome (expand access (assignmentText name expression)) env =
          (.ok (.integer n), env') →
        ∀ text ∈ textsThatRead name,
          (outcome (expand access text) env').1 = .ok (.integer n) ↔ n ≠ Int64.minValue)) ∧
    (∀ (name value : String) (set unset : Flags) (control control' : SetControl)
      (env env' : Environment η), Evaluates (env.assignedFlags name set unset control) →
      (assign name (some value) set unset control).run.run env = (.ok (), env') →
      control'.append = false → control'.scope = control.scope ∨ control'.scope = .visible →
      ∃ n : Int64, env'.value? name = some (text n.toInt) ∧
        ((∃ env'', (assign name (some (text n.toInt)) {} {} control').run.run env' =
            (.ok (), env'') ∧ env''.value? name = some (text n.toInt)) ↔
          set.readOnly = false ∧ n ≠ Int64.minValue)) := by
  refine ⟨fun n => ?_, fun name expression ts n hx ht hd => ⟨?_, ?_⟩, ?_⟩
  · rw [constant?_ofInt]
    by_cases hn : n = Int64.minValue <;> simp [hn]
  · intro bindings bindings' h text hr
    exact Bindings.expand_reading_iff hx ht hd h hr
  · intro env env' hs hw h text hr
    exact expand_reading_iff hx hs ht hd hw h hr
  · intro name value set unset control control' env env' hf h ha hs
    exact reassign_iff hf h ha hs

/-- A negative number comes back from a variable, and from an integer variable. -/
theorem negative_difference_reads_back :
    constant? ['-', '5'] = some (-5) ∧
    (∃ bindings : Bindings, outcome (expand Bindings.access "x = (2 - 7)") {} =
        (.ok (.integer (-5)), bindings) ∧
      (outcome (expand Bindings.access "x + 0") bindings).1 = .ok (.integer (-5))) ∧
    (∃ env : Environment (List String), outcome (expand access "x = (2 - 7)")
        (.new Host.standalone []) = (.ok (.integer (-5)), env) ∧
      (outcome (expand access "x") env).1 = .ok (.integer (-5))) ∧
    ∃ env, assignNew "i" "2 - 7" = (.ok (), env) ∧ ∃ env',
      (assign "i" (some "-5") {} {} {}).run.run env = (.ok (), env') ∧
        env'.value? "i" = some "-5" := by
  obtain ⟨hconstant, hread, hassign⟩ := reads_back (η := List String)
  have hp : Parses "2 - 7".toList 0 ([⟨.constant 2, ⟨0, 1⟩⟩] ++
      ⟨.symbol (.binary (.compute .subtract)), ⟨2, 3⟩⟩ :: [⟨.constant 7, ⟨4, 5⟩⟩]) _ :=
    .binary (Nat.zero_le _) .constant .constant
  have hx : IsVariableName "x".toList := ⟨by simp [isNameChar], by decide⟩
  obtain ⟨hbindings, henv⟩ := hread "x" "2 - 7" _ (-5) hx (by decide +kernel) ⟨_, hp⟩
  have htext : ofInt (-5 : Int64).toInt = ['-', '5'] := by decide +kernel
  refine ⟨htext ▸ (hconstant (-5)).mpr (by decide), ?_, ?_, ?_⟩
  · have hr : (outcome (expand Bindings.access "x = (2 - 7)") {}).1 = .ok (.integer (-5)) := by
      decide +kernel
    generalize h : outcome (expand Bindings.access "x = (2 - 7)") {} = r at hr
    obtain ⟨r, bindings⟩ := r
    cases hr
    exact ⟨bindings, rfl, (hbindings _ _ h "x + 0" (by decide)).mpr (by decide)⟩
  · have hr : (outcome (expand access "x = (2 - 7)") (.new Host.standalone [])).1 =
        .ok (.integer (-5)) := by decide +kernel
    generalize h : outcome (expand access "x = (2 - 7)") (.new Host.standalone []) = r at hr
    obtain ⟨r, env⟩ := r
    cases hr
    exact ⟨env, rfl, (henv _ _ (by decide +kernel) rfl h "x" (by decide)).mpr (by decide)⟩
  · have hr : (assignNew "i" "2 - 7").1 = .ok () := by decide +kernel
    have hi : (assignNew "i" "2 - 7").2.value? "i" = some "-5" := by decide +kernel
    generalize h : assignNew "i" "2 - 7" = r at hr hi
    obtain ⟨r, env⟩ := r
    cases hr
    obtain ⟨n, hn, hiff⟩ := hassign _ _ _ _ _ {} _ env
      ⟨by decide +kernel, by decide +kernel, by decide +kernel, by decide +kernel⟩ h rfl (.inl rfl)
    have ht : text n.toInt = "-5" := Option.some.inj (hn.symm.trans hi)
    have hne : n ≠ Int64.minValue := by
      rintro rfl
      revert ht
      decide +kernel
    rw [ht] at hiff
    exact ⟨env, rfl, hiff.mpr ⟨rfl, hne⟩⟩

/-- The least number is written as no constant. -/
theorem least_number_is_no_constant :
    ¬ ∀ n : Int64, constant? (ofInt n.toInt) = some n := by
  intro hall
  have hn : constant? (ofInt Int64.minValue.toInt) = none := by decide +kernel
  rw [hall] at hn
  cases hn

end ShellCore.Environment
