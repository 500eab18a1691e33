import ShellCore.Proofs.Builtin.Invocation
import ShellCore.Proofs.Builtin.Position
import ShellCore.Proofs.CommandLine.Finality
import ShellCore.Proofs.Environment.Values

/-! Invoked again and again, the option reader yields what the option parser yields. -/

namespace ShellCore.Builtin.Getopts

open CommandLine Environment Decimal

variable {found : Next} {c : Cursor} {silent : Bool} {name : String} {message : Option String}

/-- What the result variable shows. -/
def shown (silent : Bool) : Next → String
  | .option name true => String.ofList ['+', name]
  | .option name false => String.ofList [name]
  | .error (.missingArgument _) => if silent then ":" else "?"
  | .error (.unknownOption _) | .done => "?"

/-- The four changes that a report consists of. -/
structure Reported {η : Type} (r : Report) (c : Cursor) (name : String)
    (env env1 env2 env3 env' : Environment η) : Prop where
  result : (Environment.assign name (some r.value) {} {} {}).run.run env = (.ok (), env1)
  given : ∀ argument, r.argument = some argument →
    (Environment.assign optArgument (some argument) {} {} {}).run.run env1 = (.ok (), env2)
  absent : r.argument = none →
    ∃ removed, (Environment.unset optArgument .visible).run.run env1 = (.ok removed, env2)
  index : (Environment.assign optIndex (some (natText c.index)) {} {} {}).run.run env2 =
    (.ok (), env3)
  offset : (Environment.assign optOffset (some (natText c.sub)) {} {} {}).run.run env3 =
    (.ok (), env')

theorem reported_of_report {η : Type} {env env' : Environment η}
    (h : (report found c silent name).run.run env = (.ok message, env')) :
    (∃ env1 env2 env3, Reported (Report.of env.shellName found c.argument silent) c name env
      env1 env2 env3 env') ∧
      message = (Report.of env.shellName found c.argument silent).message := by
  unfold report at h
  split at h
  · cases h
  · obtain ⟨_, _, h0, h⟩ := exists_of_run_bind h
    cases h0
    obtain ⟨_, env1, h1, h⟩ := exists_of_run_bind h
    have hrest : ∀ {env2 : Environment η},
        (do
          assign optIndex (natText c.index)
          assign optOffset (natText c.sub)
          return (Report.of env.shellName found c.argument silent).message :
          ExceptT ReportError (ShellM η) (Option String)).run.run env2 = (.ok message, env') →
        ∃ env3, (Environment.assign optIndex (some (natText c.index)) {} {} {}).run.run env2 =
            (.ok (), env3) ∧
          (Environment.assign optOffset (some (natText c.sub)) {} {} {}).run.run env3 =
            (.ok (), env') ∧
          message = (Report.of env.shellName found c.argument silent).message := by
      intro env2 h
      obtain ⟨_, env3, h3, h⟩ := exists_of_run_bind h
      obtain ⟨_, env4, h4, h⟩ := exists_of_run_bind h
      cases h
      exact ⟨env3, run_of_run_adapt h3, run_of_run_adapt h4, rfl⟩
    split at h
    · rename_i argument ha
      obtain ⟨_, env2, h2, h⟩ := exists_of_run_bind h
      obtain ⟨env3, h3, h4, hm⟩ := hrest h
      refine ⟨⟨env1, env2, env3, run_of_run_adapt h1, fun a hr => ?_, fun hr => ?_, h3, h4⟩, hm⟩
      · rw [ha] at hr
        cases hr
        exact run_of_run_adapt h2
      · rw [ha] at hr
        cases hr
    · rename_i ha
      obtain ⟨removed, env2, h2, h⟩ := exists_of_run_bind h
      obtain ⟨env3, h3, h4, hm⟩ := hrest h
      refine ⟨⟨env1, env2, env3, run_of_run_adapt h1, fun a hr => ?_, fun _ => ?_, h3, h4⟩, hm⟩
      · rw [ha] at hr
        cases hr
      · exact ⟨removed, run_of_run_adapt h2⟩

/-- No change goes to another host. -/
theorem host_of_assign {η : Type} {env env' : Environment η} {name value : String}
    (h : (Environment.assign name (some value) {} {} {}).run.run env = (.ok (), env')) :
    env'.host = env.host := by
  have hr := maintains_assign_visible name value env
  rw [h] at hr
  exact hr.host

theorem Reported.host {η : Type} {r : Report} {env env1 env2 env3 env' : Environment η}
    (h : Reported r c name env env1 env2 env3 env') :
    env1.host = env.host ∧ env2.host = env.host ∧ env3.host = env.host ∧ env'.host = env.host := by
  have h1 := host_of_assign h.result
  have h2 : env2.host = env1.host := by
    rcases ha : r.argument with - | argument
    · obtain ⟨removed, hu⟩ := h.absent ha
      have hr := maintains_unset optArgument .visible env1
      rw [hu] at hr
      exact hr.host
    · exact host_of_assign (h.given argument ha)
  have h3 := host_of_assign h.index
  have h4 := host_of_assign h.offset
  exact ⟨h1, h2.trans h1, h3.trans (h2.trans h1), h4.trans (h3.trans (h2.trans h1))⟩

section

variable {r : Report} {env env1 env2 env3 env' : Environment (List String)}

/-- The place is written down as it is, whatever the flags of the variables are. -/
theorem Reported.place (hh : env.host = Host.standalone)
    (h : Reported r c name env env1 env2 env3 env') :
    env'.value? optIndex = some (natText c.index) ∧
      env'.value? optOffset = some (natText c.sub) := by
  obtain ⟨-, h2, h3, -⟩ := h.host
  have hi := holds_assign_natText (h2.trans hh) h.index
  have ho := holds_assign_natText (h3.trans hh) h.offset
  refine ⟨?_, ho.value⟩
  have hg := ho.other optIndex (by decide) (by decide)
  rw [← hi.value, value?, value?, hg]

/-- The place goes into two variables, and all others stay. -/
theorem Reported.keeps (hh : env.host = Host.standalone)
    (h : Reported r c name env env1 env2 env3 env') {k : String} (hk : k ≠ optIndex)
    (hko : k ≠ optOffset) : env'.value? k = env2.value? k := by
  obtain ⟨-, h2, h3, -⟩ := h.host
  have hi := holds_assign_natText (h2.trans hh) h.index
  have ho := holds_assign_natText (h3.trans hh) h.offset
  rw [value?, value?, ho.other k hko hko, hi.other k hk hko]

/-- Variables that store what they are given show the option and its argument. -/
theorem Reported.values (hh : env.host = Host.standalone) (hn : name ≠ optIndex)
    (hn' : name ≠ optOffset) (hna : name ≠ optArgument) (hp : env.Plain name)
    (hpa : env.Plain optArgument) (h : Reported r c name env env1 env2 env3 env') :
    env'.value? name = some r.value ∧
      ∀ argument, r.argument = some argument → env'.value? optArgument = some argument := by
  obtain ⟨h1, -⟩ := h.host
  have hr := holds_assign_plain hh hp h.result
  have hpa1 : env1.Plain optArgument := by
    have hg := hr.other optArgument (Ne.symm hna) (by decide)
    unfold Plain targetFlags ScopeStack.getScoped at hpa ⊢
    rw [hg]
    exact hpa
  have ha : ∀ argument, r.argument = some argument →
      Holds optArgument (some argument) env1 env2 :=
    fun argument hr => holds_assign_plain (h1.trans hh) hpa1 (h.given argument hr)
  have hname : env2.scopes.get name = env1.scopes.get name := by
    rcases hra : r.argument with - | argument
    · obtain ⟨removed, hu⟩ := h.absent hra
      rw [run_unset] at hu
      rcases hs : env1.scopes.unset optArgument .visible with e | ⟨old, scopes⟩
      · rw [hs] at hu
        cases hu
      · rw [hs] at hu
        cases hu
        exact ScopeStack.get_unset_other hs hna
    · exact (ha argument hra).other name hna hn'
  refine ⟨?_, fun argument hra => ?_⟩
  · rw [h.keeps hh hn hn', value?, hname]
    exact hr.value
  · rw [h.keeps hh (by decide) (by decide)]
    exact (ha argument hra).value

theorem value_of (shellName : String) (found : Next) (argument : OptionArgument) (silent : Bool) :
    (Report.of shellName found argument silent).value = shown silent found := by
  cases found with
  | option name plus => cases plus <;> rfl
  | done => rfl
  | error e => cases e <;> cases silent <;> rfl

/-- Only an option comes with an argument. -/
theorem option_of_given {args : List String} {spec : OptionSpec} {value : String}
    (h : (next args spec c).2.argument = .given value) :
    ∃ name plus, (next args spec c).1 = .option name plus := by
  rcases hn : next args spec c with ⟨found, c'⟩
  rw [hn] at h
  by_cases hf : found = .done
  · subst hf
    obtain ⟨j, -, rfl⟩ := position_of_done hn
    cases h
  · obtain ⟨p, -, hr⟩ := exists_place_of_next hn hf
    cases hr with
    | unknown => cases (after_argument p).symm.trans h
    | missing => cases h
    | alone | attached | following => exact ⟨_, _, rfl⟩

/-- The place is all that the parser goes by. -/
theorem next_place (args : List String) (spec : OptionSpec) (c : Cursor) :
    next args spec { index := c.index, sub := c.sub } = next args spec c := rfl

/-- What one invocation does, in terms of the step that the parser takes from the place that the
variables tell. -/
structure Replays (args : List String) (spec : OptionSpec) (name : String)
    (env : Environment (List String)) (r : Next × Cursor)
    (o : Outcome × Environment (List String)) : Prop where
  outcome : o.1 = .ofStatus (if r.1 = .done then .failure else .success)
  place : loadCursor o.2 spec args = { index := r.2.index, sub := r.2.sub }
  result : env.Plain name → env.Plain optArgument →
    o.2.value? name = some (shown spec.silent r.1)
  argument : env.Plain name → env.Plain optArgument → ∀ value, r.2.argument = .given value →
    o.2.value? optArgument = some value
  host : o.2.host = env.host

theorem value?_told (message : Option String) (env : Environment (List String)) (k : String) :
    (told message env).value? k = env.value? k := by
  rw [value?, value?, scopes_told]

theorem host_told (message : Option String) (env : Environment (List String)) :
    (told message env).host = env.host := by
  cases message <;> rfl

theorem step_replays {args : List String} {spec : OptionSpec} {env : Environment (List String)}
    (hh : env.host = Host.standalone) (hn : name ≠ optIndex) (hn' : name ≠ optOffset)
    (hna : name ≠ optArgument) (hf : Fits args)
    (hok : (step spec args name env).1.exitStatus ≠ .error) :
    Replays args spec name env (next args spec (loadCursor env spec args))
      (step spec args name env) := by
  have hplace : InPlace spec args (next args spec (loadCursor env spec args)).2 :=
    inPlace_next hf.length_lt (inPlace_loadCursor env spec args)
  have hgiven : ∀ value, (next args spec (loadCursor env spec args)).2.argument = .given value →
      ∃ name plus, (next args spec (loadCursor env spec args)).1 = .option name plus :=
    fun _ => option_of_given
  rw [run_step] at hok ⊢
  dsimp only at hok ⊢
  generalize next args spec (loadCursor env spec args) = r at hok hplace hgiven ⊢
  rcases hr : (report r.1 r.2 spec.silent name).run.run env with ⟨e | message, env'⟩
  · rw [hr] at hok
    exact absurd rfl hok
  · obtain ⟨⟨env1, env2, env3, h⟩, -⟩ := reported_of_report hr
    obtain ⟨hi, ho⟩ := h.place hh
    dsimp only
    refine ⟨rfl, ?_, fun hp hpa => ?_, fun hp hpa value hv => ?_, ?_⟩
    · exact loadCursor_eq hf hplace (by rw [value?_told, hi]) (by rw [value?_told, ho])
    · rw [value?_told, (h.values hh hn hn' hna hp hpa).1, value_of]
    · obtain ⟨option, plus, ho⟩ := hgiven value hv
      rw [value?_told]
      refine (h.values hh hn hn' hna hp hpa).2 value ?_
      rw [ho, hv]
      rfl
    · rw [host_told]
      exact h.host.2.2.2

theorem Replays.setStatus {args : List String} {spec : OptionSpec}
    {env : Environment (List String)} {r : Next × Cursor}
    {o : Outcome × Environment (List String)} (h : Replays args spec name env r o)
    (exitStatus : ExitStatus) :
    Replays args spec name env r (o.1, { o.2 with exitStatus }) :=
  ⟨h.outcome, h.place, h.result, h.argument, h.host⟩

/-- The state after some invocations with the same arguments. -/
def invoked {η : Type} (args : List String) (env : Environment η) : Nat → Environment η
  | 0 => env
  | n + 1 => (invoke main args (invoked args env n)).2

/-- The cursor after some steps of the parser. -/
def parsed (args : List String) (spec : OptionSpec) (c : Cursor) : Nat → Cursor
  | 0 => c
  | n + 1 => (next args spec (parsed args spec c n)).2

theorem invoke_replays {rest : List String} {env : Environment (List String)} {text : String}
    (ht : text ≠ "--") (hh : env.host = Host.standalone) (hn : name ≠ optIndex)
    (hn' : name ≠ optOffset) (hna : name ≠ optArgument) (hf : Fits (name :: rest))
    (hok : (invoke main (text :: name :: rest) env).1.exitStatus ≠ .error) :
    Replays (name :: rest) (.ofText text.toList) name env
      (next (name :: rest) (.ofText text.toList)
        (loadCursor env (.ofText text.toList) (name :: rest)))
      (invoke main (text :: name :: rest) env) := by
  rw [invoke_main ht] at hok ⊢
  dsimp only at hok ⊢
  exact (step_replays hh hn hn' hna hf hok).setStatus _

/-- Invocations in a row, none of which fails, yield what as many steps of the parser yield from
the place that the variables told at first. -/
theorem invocations_replay {rest : List String} {env : Environment (List String)} {text : String}
    (ht : text ≠ "--") (hh : env.host = Host.standalone) (hn : name ≠ optIndex)
    (hn' : name ≠ optOffset) (hna : name ≠ optArgument) (hf : Fits (name :: rest)) (n : Nat)
    (hok : ∀ k, k ≤ n → (invoke main (text :: name :: rest)
      (invoked (text :: name :: rest) env k)).1.exitStatus ≠ .error) :
    Replays (name :: rest) (.ofText text.toList) name (invoked (text :: name :: rest) env n)
      (next (name :: rest) (.ofText text.toList) (parsed (name :: rest) (.ofText text.toList)
        (loadCursor env (.ofText text.toList) (name :: rest)) n))
      (invoke main (text :: name :: rest) (invoked (text :: name :: rest) env n)) := by
  have hplace : ∀ k, k ≤ n →
      (invoked (text :: name :: rest) env k).host = Host.standalone ∧
        next (name :: rest) (.ofText text.toList) (loadCursor
            (invoked (text :: name :: rest) env k) (.ofText text.toList) (name :: rest)) =
          next (name :: rest) (.ofText text.toList) (parsed (name :: rest) (.ofText text.toList)
            (loadCursor env (.ofText text.toList) (name :: rest)) k) := by
    intro k hk
    induction k with
    | zero => exact ⟨hh, rfl⟩
    | succ k ih =>
      obtain ⟨hhost, hc⟩ := ih (Nat.le_of_succ_le hk)
      have h := invoke_replays ht hhost hn hn' hna hf (hok k (Nat.le_of_succ_le hk))
      refine ⟨h.host.trans hhost, ?_⟩
      have hp := h.place
      rw [hc] at hp
      exact (congrArg (next (name :: rest) (.ofText text.toList)) hp).trans (next_place _ _ _)
  obtain ⟨hhost, hc⟩ := hplace n (Nat.le_refl n)
  have h := invoke_replays ht hhost hn hn' hna hf (hok n (Nat.le_refl n))
  rw [hc] at h
  exact h

/-- The second option of a word is found from the offset that the first one leaves. -/
theorem second_option_replays :
    let env := invoked ["ab:", "x", "-ab", "v"] (.new Host.standalone []) 1
    (invoke main ["ab:", "x", "-ab", "v"] env).2.value? "x" = some "b" ∧
      (invoke main ["ab:", "x", "-ab", "v"] env).2.value? optArgument = some "v" := by
  intro env
  have hf : Fits ["x", "-ab", "v"] := ⟨by decide, by decide⟩
  have hok : ∀ k, k ≤ 1 → (invoke main ["ab:", "x", "-ab", "v"]
      (invoked ["ab:", "x", "-ab", "v"] (.new Host.standalone []) k)).1.exitStatus ≠ .error := by
    intro k hk
    have hk : k = 0 ∨ k = 1 := by omega
    rcases hk with rfl | rfl
    · decide +kernel
    · decide +kernel
  have h := invocations_replay (by decide) rfl (by decide) (by decide) (by decide) hf 1 hok
  have hp : env.Plain "x" := by
    unfold Plain IsPlain
    decide +kernel
  have hpa : env.Plain optArgument := by
    unfold Plain IsPlain
    decide +kernel
  exact ⟨h.result hp hpa, h.argument hp hpa "v" rfl⟩

end

end ShellCore.Builtin.Getopts
