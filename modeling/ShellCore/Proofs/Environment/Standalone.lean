import ShellCore.Proofs.Environment.Store
import ShellCore.Proofs.Environment.Values
import ShellCore.Proofs.Variable.Confinement

/-! Assignments in a shell without services that has no integer variables. -/

namespace ShellCore.Environment

open ScopeStack

variable {name value : String} {flags : Flags} {names names' lost lost' : List String}
  {env env' env'' : Environment (List String)}

/-- The host has no services, and no assignment evaluates its value. -/
structure Quiet (env : Environment (List String)) : Prop where
  host : env.host = Host.standalone
  integer (i : Nat) (name : String) (e : Entry) :
    env.scopes.entryAt i name = some e → e.flags.integer = false

/-- No variable is read-only. -/
def Writable (env : Environment (List String)) : Prop :=
  ∀ i name e, env.scopes.entryAt i name = some e → e.flags.readOnly = false

/-- No variable has an attribute that stays, unless it is special. -/
def Tame (env : Environment (List String)) : Prop :=
  ∀ i name e, env.scopes.entryAt i name = some e →
    e.flags.lasting = {} ∨ e.flags.lasting = { special := true }

/-- Nothing is changed but the variables of these names, each in its home, and what the host has
been told. Some names may have lost their homes. -/
structure Touches (names lost : List String) (env env' : Environment (List String)) : Prop where
  confined : Confined names env.scopes env'.scopes
  homes (k : String) : k ∉ lost → SameHome k env.scopes env'.scopes
  inherits : Inherits env.scopes env'.scopes
  functions : env'.functions = env.functions
  settings : env'.settings = env.settings
  host : env'.host = env.host

theorem Touches.refl (names lost : List String) (env : Environment (List String)) :
    Touches names lost env env :=
  ⟨.refl names _, fun k _ => .refl k _, .refl _, rfl, rfl, rfl⟩

/-- The second change is none of a name that may have lost its home. -/
theorem Touches.trans (h : Touches names lost env env') (h' : Touches names' lost' env' env'')
    (hd : ∀ k ∈ names', k ∉ lost) : Touches (names ++ names') (lost ++ lost') env env'' where
  confined := h.confined.trans h'.confined fun k hk => h.homes k (hd k hk)
  homes k hk := by
    rw [List.mem_append, not_or] at hk
    exact (h.homes k hk.1).trans (h'.homes k hk.2)
  inherits := h.inherits.trans h'.inherits
  functions := h'.functions.trans h.functions
  settings := h'.settings.trans h.settings
  host := h'.host.trans h.host

theorem Touches.mono (h : Touches names lost env env') (hn : names ⊆ names') (hl : lost ⊆ lost') :
    Touches names' lost' env env' :=
  ⟨h.confined.mono hn, fun k hk => h.homes k fun hm => hk (hl hm), h.inherits, h.functions,
    h.settings, h.host⟩

theorem Touches.quiet (h : Touches names lost env env') (hq : env.Quiet) : env'.Quiet := by
  refine ⟨h.host.trans hq.host, fun i name e he => ?_⟩
  rw [← Flags.integer_lasting]
  refine h.inherits.all (F := fun flags => flags.integer = false) rfl (fun j k e' he' => ?_) i name
    e he
  rw [Flags.integer_lasting]
  exact hq.integer j k e' he'

theorem Touches.writable (h : Touches names lost env env') (hw : env.Writable) : env'.Writable := by
  intro i name e he
  rw [← Flags.readOnly_lasting]
  refine h.inherits.all (F := fun flags => flags.readOnly = false) rfl (fun j k e' he' => ?_) i name
    e he
  rw [Flags.readOnly_lasting]
  exact hw j k e' he'

theorem entryAt_new {η : Type} (host : Host η) (hostState : η) (i : Nat) (k : String) :
    (Environment.new host hostState).scopes.entryAt i k =
      if k = optIndex ∧ i = 0 then some { value := some "1", flags := { special := true } }
      else none := by
  have hn : ScopeStack.new.entryAt i k = none := by
    rw [entryAt, ScopeStack.new, tableAt_nil]
    split <;> rfl
  have he := entryAt_update ScopeStack.new optIndex .outermost
    (fun e => { e with value := some "1", flags := e.flags ∪ { special := true } }) i k
  have hf : ScopeStack.new.entryOrNew optIndex .outermost = {} := rfl
  rw [hn, hf, if_pos rfl] at he
  refine he.trans ?_
  by_cases hk : k = optIndex
  · by_cases hi : i = 0
    · simp only [hk, hi, home, and_self, if_true]
      rfl
    · simp [hk, hi, home]
  · simp [hk]

theorem tame_new (hostState : List String) :
    (Environment.new Host.standalone hostState).Tame := by
  intro i name e he
  rw [entryAt_new] at he
  split at he <;> cases he
  exact .inr rfl

theorem Tame.quiet (ht : env.Tame) (hh : env.host = Host.standalone) : env.Quiet := by
  refine ⟨hh, fun i name e he => ?_⟩
  rw [← Flags.integer_lasting]
  rcases ht i name e he with hf | hf <;> rw [hf]

theorem Tame.writable (ht : env.Tame) : env.Writable := by
  intro i name e he
  rw [← Flags.readOnly_lasting]
  rcases ht i name e he with hf | hf <;> rw [hf]

theorem Tame.plain (ht : env.Tame) (name : String) : env.Plain name := by
  unfold Plain IsPlain targetFlags getScoped
  rcases hg : env.scopes.get name with - | e
  · exact ⟨rfl, rfl, rfl⟩
  · obtain ⟨i, he, -⟩ := get_eq_some_iff.mp hg
    rw [Option.map_some, Option.getD_some, ← Flags.integer_lasting, ← Flags.allCaps_lasting,
      ← Flags.allSmall_lasting]
    rcases ht i name e he with hf | hf <;> rw [hf] <;> exact ⟨rfl, rfl, rfl⟩

theorem Touches.tame (h : Touches names lost env env') (ht : env.Tame) : env'.Tame :=
  h.inherits.all (F := fun flags => flags = {} ∨ flags = { special := true }) (.inl rfl) ht

theorem Tame.push (ht : env.Tame) : (env.mapScopes ScopeStack.push).Tame :=
  fun i name e he => ht i name e (entryAt_push _ i name ▸ he)

theorem Tame.pop (ht : env.Tame) : (env.mapScopes (·.pop.2)).Tame := by
  intro i name e he
  rw [mapScopes, entryAt_pop] at he
  split at he
  · exact ht i name e he
  · cases he

theorem touches_updateVariable {f : Entry → Entry}
    (hf : ∀ e, (f e).flags.lasting = e.flags.lasting) (name : String)
    (env : Environment (List String)) :
    Touches [name] [] env (updateVariable name .visible f env) :=
  ⟨confined_update, fun _ _ => sameHome_update, inherits_update (hf _), rfl, rfl, rfl⟩

theorem Quiet.integer_targetFlags (hq : env.Quiet) (name : String) :
    (env.targetFlags name .visible).integer = false := by
  unfold targetFlags getScoped
  rcases hg : env.scopes.get name with - | e
  · rfl
  · obtain ⟨i, he, -⟩ := get_eq_some_iff.mp hg
    exact hq.integer i name e he

theorem Writable.accepts (hw : env.Writable) (name : String) :
    env.refuses name .visible = false := by
  have hg : (env.scopes.get name).any (·.flags.readOnly) = false := by
    rcases hg : env.scopes.get name with - | e
    · rfl
    · obtain ⟨i, he, -⟩ := get_eq_some_iff.mp hg
      exact hw i name e he
  simp [refuses, hidesReadOnly, getScoped, hg]

/-- What a variable that is no integer stores. The host leaves a value as it is, and a special
variable knows no case. -/
def storedText (flags : Flags) (value : String) : String :=
  if flags.special then value else flags.convertCase value

theorem run_convert_standalone (hh : env.host = Host.standalone) (hi : flags.integer = false)
    (name value : String) :
    (convert evaluator name flags (some value)).run.run env =
      (.ok (.store (some (storedText flags value))), env) := by
  by_cases hs : flags.special
  · rw [convert_standalone hh hs, storedText, if_pos hs]
  · rw [run_convert_of_case (by simpa using hs) hi, storedText, if_neg hs]
    rfl

/-- The state after a value has been stored in the visible variable. -/
def withValue (name value : String) (env : Environment (List String)) :
    Environment (List String) :=
  let flags := env.targetFlags name .visible
  let env := updateVariable name .visible
    (assigned env {} {} (some (storedText flags value))) env
  if flags.special && name == optIndex then restartScan .visible env else env

theorem run_assign_standalone (hh : env.host = Host.standalone)
    (hi : (env.targetFlags name .visible).integer = false) (value : String) :
    (assign name (some value) {} {} {}).run.run env =
      if env.refuses name .visible then (.error (.readOnly name (some value)), env)
      else (.ok (), withValue name value env) := by
  have hc := run_convert_standalone hh hi name value
  unfold assign
  rw [run_assignWith, assignedFlags_visible]
  show (if env.refuses name .visible then _ else _) = _
  split
  · rfl
  · rename_i ha
    have hr := readOnly_of_accepted (Bool.not_eq_true _ ▸ ha)
    exact (run_bind_of_ok hc _).trans (run_conclude_store_of_writable hr rfl)

theorem lasting_assigned_none (env : Environment (List String)) (value : Option String)
    (e : Entry) : (assigned env {} {} value e).flags.lasting = e.flags.lasting := by
  simp [assigned, Flags.lasting, changeFlags, Union.union, SDiff.sdiff, Flags.combine]

/-- An assignment touches the option offset only if it is one to the option index. -/
theorem touches_withValue (name value : String) (env : Environment (List String)) :
    Touches [name, optOffset] [] env (withValue name value env) := by
  have hv := touches_updateVariable
    (lasting_assigned_none env (some (storedText (env.targetFlags name .visible) value))) name env
  unfold withValue
  dsimp only
  split
  -- The scan starts anew, unless the offset is read-only.
  · have hf : ∀ e : Entry,
        (if e.flags.readOnly then e else { e with value := some "0" }).flags.lasting =
          e.flags.lasting := by
      intro e
      split <;> rfl
    exact hv.trans (touches_updateVariable hf _ _) fun _ _ => List.not_mem_nil
  · exact hv.mono (by simp) (List.Subset.refl _)

/-- A command in a quiet shell touches no more than these names, and fails only at a read-only
variable. -/
structure Behaves {ε α : Type} (names lost : List String)
    (x : ExceptT ε (ShellM (List String)) α) : Prop where
  touches (env : Environment (List String)) : env.Quiet → Touches names lost env (x.run.run env).2
  succeeds (env : Environment (List String)) : env.Quiet → env.Writable →
    ∃ a env', x.run.run env = (.ok a, env')

namespace Behaves

variable {ε ε' α β : Type} {x : ExceptT ε (ShellM (List String)) α}
  {k : α → ExceptT ε (ShellM (List String)) β}

theorem pure (a : α) : Behaves [] [] (Pure.pure a : ExceptT ε (ShellM (List String)) α) :=
  ⟨fun env _ => .refl [] [] env, fun env _ _ => ⟨a, env, rfl⟩⟩

theorem get : Behaves [] [] (MonadState.get : ExceptT ε (ShellM (List String)) _) :=
  ⟨fun env _ => .refl [] [] env, fun env _ _ => ⟨env, env, rfl⟩⟩

theorem adapt (h : Behaves names lost x) (f : ε → ε') :
    Behaves names lost (ExceptT.adapt f x) := by
  refine ⟨h.touches, fun env hq hw => ?_⟩
  obtain ⟨a, env', hx⟩ := h.succeeds env hq hw
  refine ⟨a, env', ?_⟩
  show ((x.run.run env).1.mapError f, (x.run.run env).2) = _
  rw [hx]
  rfl

theorem bind (hx : Behaves names lost x) (hk : ∀ a, Behaves names' lost' (k a))
    (hd : ∀ k ∈ names', k ∉ lost) : Behaves (names ++ names') (lost ++ lost') (x >>= k) := by
  constructor
  · intro env hq
    have ht := hx.touches env hq
    rcases h : x.run.run env with ⟨r, env'⟩
    rw [h] at ht
    cases r with
    | error e =>
      rw [run_bind_of_error h]
      exact ht.mono (List.subset_append_left _ _) (List.subset_append_left _ _)
    | ok a =>
      rw [run_bind_of_ok h]
      exact ht.trans ((hk a).touches env' (ht.quiet hq)) hd
  · intro env hq hw
    have ht := hx.touches env hq
    obtain ⟨a, env', h⟩ := hx.succeeds env hq hw
    rw [h] at ht
    obtain ⟨b, env'', h'⟩ := (hk a).succeeds env' (ht.quiet hq) (ht.writable hw)
    exact ⟨b, env'', (run_bind_of_ok h k).trans h'⟩

theorem mono (h : Behaves names lost x) (hn : names ⊆ names') (hl : lost ⊆ lost') :
    Behaves names' lost' x :=
  ⟨fun env hq => (h.touches env hq).mono hn hl, h.succeeds⟩

end Behaves

theorem behaves_assign (name value : String) :
    Behaves [name, optOffset] []
      (assign name (some value) {} {} {} : ExceptT AssignError (ShellM (List String)) Unit) := by
  constructor
  · intro env hq
    rw [run_assign_standalone hq.host (hq.integer_targetFlags name)]
    split
    · exact .refl _ _ env
    · exact touches_withValue name value env
  · intro env hq hw
    rw [run_assign_standalone hq.host (hq.integer_targetFlags name), hw.accepts]
    exact ⟨(), _, rfl⟩

theorem behaves_unset (name : String) :
    Behaves [name] [name] (Environment.unset name .visible :
      ExceptT UnsetError (ShellM (List String)) (Option Entry)) := by
  constructor
  · intro env _
    rw [run_unset]
    rcases hu : env.scopes.unset name .visible with e | ⟨removed, scopes⟩
    · exact .refl _ _ env
    · have hn : ∀ k, k ∉ [name] → k ≠ name := fun k hk he => hk (List.mem_singleton.mpr he)
      exact ⟨confined_unset hu, fun k hk => sameHome_unset hu (hn k hk), inherits_unset hu,
        rfl, rfl, rfl⟩
  · intro env _ hw
    rw [run_unset]
    rcases hu : env.scopes.unset name .visible with e | ⟨removed, scopes⟩
    · obtain ⟨i, e, he, hr⟩ := exists_readOnly_of_unset hu
      rw [hw i name e he] at hr
      cases hr
    · exact ⟨removed, _, rfl⟩

end ShellCore.Environment
