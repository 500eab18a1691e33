import ShellCore.Proofs.Builtin.Replay
import ShellCore.Proofs.Environment.Standalone
import ShellCore.Proofs.Variable.Removal

/-! What the script reads from the variables after a report. -/

namespace ShellCore.Builtin.Getopts

open CommandLine Environment ScopeStack Decimal

variable {found : Next} {c : Cursor} {silent : Bool} {name : String} {message : Option String}
  {r : Report} {env env1 env2 env3 env' : Environment (List String)}

/-- What is handed to the script beside the option: its argument or, silently, the character that
could not be read. -/
def handed (silent : Bool) (argument : OptionArgument) : Next → Option String
  | .option _ _ => argument.value?
  | .done => none
  | .error e => if silent then some (String.ofList [e.option]) else none

/-- The value that the option argument has beneath its visible variable. -/
def stale (env : Environment (List String)) : Option String :=
  (env.scopes.beneath optArgument).bind (·.value)

/-- The variables of the script tell what has been found, and where to go on. -/
structure Shows (found : Next) (c : Cursor) (silent : Bool) (name : String)
    (argument : Option String) (env : Environment (List String)) : Prop where
  result : env.value? name = some (shown silent found)
  argument : env.value? optArgument = argument
  index : env.value? optIndex = some (natText c.index)
  offset : env.value? optOffset = some (natText c.sub)

theorem argument_of (shellName : String) (found : Next) (argument : OptionArgument)
    (silent : Bool) :
    (Report.of shellName found argument silent).argument = handed silent argument found := by
  cases found with
  | option name plus => rfl
  | done => rfl
  | error e => cases silent <;> rfl

theorem isSome_message_of (shellName : String) (found : Next) (argument : OptionArgument)
    (silent : Bool) :
    (Report.of shellName found argument silent).message.isSome ↔
      silent = false ∧ ∃ e, found = .error e := by
  cases found with
  | option name plus => simp [Report.of]
  | done => simp [Report.of]
  | error e => cases silent <;> simp [Report.of]

/-- Assigning to a variable that stores what it is given leaves the entries of others alone. -/
theorem entriesOf_of_assign {k value : String} (hh : env.host = Host.standalone)
    (hp : env.Plain name) (hk : k ≠ name) (hko : k ≠ optOffset)
    (h : (Environment.assign name (some value) {} {} {}).run.run env = (.ok (), env')) :
    env'.scopes.entriesOf k = env.scopes.entriesOf k := by
  rw [run_assign_standalone hh hp.1] at h
  split at h
  · cases h
  · have he : withValue name value env = env' := congrArg Prod.snd h
    have hc := (touches_withValue name value env).confined
    rw [he] at hc
    refine entriesOf_congr (congrArg (· + 1) hc.levels.length) fun i => ?_
    refine Decidable.byContradiction fun hne => ?_
    have hm := (hc.entries i k hne).1
    simp [hk, hko] at hm

/-- Where nothing is handed to the script, the variable for it uncovers what it hides. -/
theorem Reported.uncovers (hh : env.host = Host.standalone) (hna : name ≠ optArgument)
    (hp : env.Plain name) (h : Reported r c name env env1 env2 env3 env')
    (ha : r.argument = none) : env'.value? optArgument = stale env := by
  obtain ⟨removed, hu⟩ := h.absent ha
  rw [run_unset] at hu
  rcases hs : env1.scopes.unset optArgument .visible with e | ⟨old, scopes⟩
  · rw [hs] at hu
    cases hu
  · rw [hs] at hu
    cases hu
    have he := entriesOf_of_assign hh hp (Ne.symm hna) (by decide) h.result
    rw [h.keeps hh (by decide) (by decide), stale, beneath, ← he]
    exact congrArg (·.bind (·.value)) (get_unset_visible hs)

theorem Reported.shows (hh : env.host = Host.standalone) (hn : name ≠ optIndex)
    (hn' : name ≠ optOffset) (hna : name ≠ optArgument) (hp : env.Plain name)
    (hpa : env.Plain optArgument)
    (h : Reported (Report.of env.shellName found c.argument silent) c name env env1 env2 env3
      env') :
    Shows found c silent name ((handed silent c.argument found).or (stale env)) env' := by
  obtain ⟨hr, ha⟩ := h.values hh hn hn' hna hp hpa
  obtain ⟨hi, ho⟩ := h.place hh
  have hargument := argument_of env.shellName found c.argument silent
  refine ⟨by rw [hr, value_of], ?_, hi, ho⟩
  rcases hv : handed silent c.argument found with - | argument
  · exact h.uncovers hh hna hp (hargument.trans hv)
  · exact ha argument (hargument.trans hv)

/-- After a report that succeeds, the variables tell what has been found and where to go on. Only
where nothing is handed to the script, another value may be seen in its place, the one that the
visible option argument has hidden. A message is for errors that are not silent. -/
theorem report_shows_iff (hh : env.host = Host.standalone) (hn : name ≠ optIndex)
    (hn' : name ≠ optOffset) (hna : name ≠ optArgument) (hp : env.Plain name)
    (hpa : env.Plain optArgument)
    (h : (report found c silent name).run.run env = (.ok message, env')) :
    Shows found c silent name ((handed silent c.argument found).or (stale env)) env' ∧
      (Shows found c silent name (handed silent c.argument found) env' ↔
        (handed silent c.argument found = none → stale env = none)) ∧
      (message.isSome ↔ silent = false ∧ ∃ e, found = .error e) := by
  obtain ⟨⟨env1, env2, env3, hr⟩, hm⟩ := reported_of_report h
  have hs := hr.shows hh hn hn' hna hp hpa
  refine ⟨hs, ⟨fun hd hv => ?_, fun hv => ?_⟩, ?_⟩
  · have ha := hs.argument
    rw [hd.argument, hv] at ha
    exact ha.symm
  · rcases ha : handed silent c.argument found with - | argument
    · rw [ha, hv ha] at hs
      exact hs
    · rw [ha] at hs
      exact hs
  · rw [hm]
    exact isSome_message_of env.shellName found c.argument silent

/-- An option without an argument leaves none to a script that has no variable for it elsewhere. -/
theorem lone_option_shows :
    let r := (report (.option 'a' false) { index := 2 } false "x").run.run
      (.new Host.standalone [])
    r.1 = .ok none ∧ Shows (.option 'a' false) { index := 2 } false "x" none r.2 := by
  intro r
  have hp : ∀ name, (Environment.new Host.standalone []).Plain name := (tame_new []).plain
  have hm : r.1 = .ok none := by decide +kernel
  have h : r = (.ok none, r.2) := Prod.ext hm rfl
  have hs := report_shows_iff rfl (by decide) (by decide) (by decide) (hp "x") (hp optArgument) h
  exact ⟨hm, hs.2.1.mpr fun _ => by decide +kernel⟩

/-- A shell with an option argument in the global table, which one in a table above hides. -/
def hidingArgument : Environment (List String) :=
  let env := updateVariable optArgument .outermost (fun e => { e with value := some "old" })
    (.new Host.standalone [])
  updateVariable optArgument .innermost (fun e => { e with value := some "new" })
    (env.mapScopes push)

/-- An option without an argument brings the global value back. -/
theorem hidden_argument_comes_back :
    let r := (report (.option 'a' false) { index := 2 } false "x").run.run hidingArgument
    hidingArgument.Plain "x" ∧ hidingArgument.Plain optArgument ∧
      hidingArgument.value? optArgument = some "new" ∧ r.1 = .ok none ∧
      r.2.value? optArgument = some "old" ∧
      ¬ Shows (.option 'a' false) { index := 2 } false "x" none r.2 := by
  intro r
  have hv : r.2.value? optArgument = some "old" := by decide +kernel
  have hp : hidingArgument.Plain "x" ∧ hidingArgument.Plain optArgument := by
    unfold Plain IsPlain
    decide +kernel
  refine ⟨hp.1, hp.2, by decide +kernel, by decide +kernel, hv, fun hs => ?_⟩
  rw [hs.argument] at hv
  cases hv

end ShellCore.Builtin.Getopts
