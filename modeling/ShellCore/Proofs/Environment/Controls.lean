import ShellCore.Proofs.Environment.Store
import ShellCore.Proofs.Variable.Scoped

/-! What the controls of an assignment do. -/

namespace ShellCore.Environment

open ScopeStack

variable {η : Type} {name : String} {scope : Scope} {set unset : Flags} {control : SetControl}
  {value : Option String} {env : Environment η}

/-- A read-only entry stands in the way of an assignment to the name. -/
inductive Denied (env : Environment η) (name : String) (control : SetControl) : Prop
  /-- The entry is the one to be assigned. -/
  | assigned {e : Entry} (he : env.scopes.getScoped name control.scope = some e)
    (hr : e.flags.readOnly)
  /-- The global assignment would remove the entry. -/
  | removed {i : Nat} {e : Entry} (hg : control.outermost) (hi : 0 < i)
    (he : env.scopes.entryAt i name = some e) (hr : e.flags.readOnly)
  /-- A new entry of the topmost table would hide the entry. -/
  | hidden {e : Entry} (hg : control.outermost = false) (hn : control.forceNew)
    (ht : env.scopes.top.lookup name = none) (he : env.scopes.get name = some e)
    (hr : e.flags.readOnly)

/-- What stands before a new value: the value that is appended to, if one is. -/
def oldText (env : Environment η) (name : String) (control : SetControl) : String :=
  if control.append then
    if control.forceNew && !control.outermost then
      ((env.scopes.top.lookup name).bind (·.value)).getD ""
    else (env.value? name).getD ""
  else ""

theorem hidesReadOnly_control_iff (hl : env.scopes.Levelled) :
    env.hidesReadOnly name control.scope ↔
      (control.outermost ∧ ∃ i e, 0 < i ∧ env.scopes.entryAt i name = some e ∧ e.flags.readOnly) ∨
      (control.outermost = false ∧ control.forceNew ∧ env.scopes.top.lookup name = none ∧
        ∃ e, env.scopes.get name = some e ∧ e.flags.readOnly) := by
  obtain ⟨outermost, append, forceNew⟩ := control
  cases outermost with
  | true =>
    rw [hidesReadOnly_iff hl]
    simp only [SetControl.scope, if_true, Hides, true_and, Bool.true_eq_false, false_and, or_false]
    constructor
    · rintro ⟨i, v, hi, hv⟩
      obtain ⟨e, he, hev⟩ := exists_of_sealed hv
      exact ⟨i, e, Nat.pos_of_ne_zero hi, he, (Entry.sealed_eq_some_iff.mp hev).1⟩
    · rintro ⟨i, e, hi, he, hr⟩
      exact ⟨i, e.value, Nat.ne_of_gt hi, by simp [sealed, he, Entry.sealed, hr]⟩
  | false =>
    cases forceNew with
    | true => simp [SetControl.scope, hidesReadOnly, Table.contains, Option.any_eq_true]
    | false => simp [SetControl.scope, hidesReadOnly]

theorem refuses_iff (hl : env.scopes.Levelled) :
    env.refuses name control.scope ↔ Denied env name control := by
  rw [refuses, Bool.or_eq_true, hidesReadOnly_control_iff hl, Option.any_eq_true]
  constructor
  · rintro ((⟨hg, i, e, hi, he, hr⟩ | ⟨hg, hn, ht, e, he, hr⟩) | ⟨e, he, hr⟩)
    · exact .removed hg hi he hr
    · exact .hidden hg hn ht he hr
    · exact .assigned he hr
  · rintro (⟨he, hr⟩ | ⟨hg, hi, he, hr⟩ | ⟨hg, hn, ht, he, hr⟩)
    · exact .inr ⟨_, he, hr⟩
    · exact .inl (.inl ⟨hg, _, _, hi, he, hr⟩)
    · exact .inl (.inr ⟨hg, hn, ht, _, he, hr⟩)

theorem assignedValue_eq (env : Environment η) (name : String) (value : Option String)
    (control : SetControl) :
    env.assignedValue name value control = value.map (env.oldText name control ++ ·) := by
  obtain ⟨outermost, append, forceNew⟩ := control
  cases append with
  | false => cases value <;> simp [assignedValue, oldText]
  | true =>
    cases outermost <;> cases forceNew <;>
      simp [assignedValue, oldText, appendBase, SetControl.scope, getScoped, value?]

/-- Which flags decide about the value does not depend on whether the entry becomes read-only. -/
theorem assignedFlags_eq (env : Environment η) (name : String) (set unset : Flags)
    (control : SetControl) :
    (env.assignedFlags name set unset control).special =
        (changeFlags (env.targetFlags name control.scope) set unset).special ∧
      (env.assignedFlags name set unset control).integer =
        (changeFlags (env.targetFlags name control.scope) set unset).integer ∧
      (env.assignedFlags name set unset control).convertCase =
        (changeFlags (env.targetFlags name control.scope) set unset).convertCase := by
  refine ⟨?_, ?_, funext fun text => ?_⟩ <;>
    simp [assignedFlags, changeFlags, Flags.convertCase, Union.union, SDiff.sdiff, Flags.combine]

/-- Whether an entry is local does not tell which other flags it has after a change. -/
theorem changeFlags_congr {flags flags' : Flags}
    (h : flags \ { isLocal := true } = flags' \ { isLocal := true }) (set unset exported : Flags) :
    (changeFlags flags set unset ∪ exported) \ { isLocal := true } =
      (changeFlags flags' set unset ∪ exported) \ { isLocal := true } := by
  simp only [SDiff.sdiff, Flags.combine, Flags.mk.injEq] at h
  simp_all [changeFlags, Union.union, SDiff.sdiff, Flags.combine]

/-- An assignment to a variable that is neither special nor an integer fails just where a read-only
entry stands in the way. Else the variable has the converted value, and its entry has the changed
flags and stands where the controls put it. No other name is touched, and nothing but the
variables. -/
theorem assign_as_controlled (hl : env.scopes.Levelled) (name : String) (value : Option String)
    (set unset : Flags) (control : SetControl)
    (hs : (changeFlags (env.targetFlags name control.scope) set unset).special = false)
    (hi : (changeFlags (env.targetFlags name control.scope) set unset).integer = false) :
    (Denied env name control →
      (assign name value set unset control).run.run env =
        (.error (.readOnly name value), env)) ∧
    (¬ Denied env name control → ∃ scopes e,
      (assign name value set unset control).run.run env = (.ok (), { env with scopes }) ∧
      env.scopes.Puts name control.scope e scopes ∧
      scopes.get name = some e ∧
      e.value = value.map (fun text =>
        (changeFlags (env.targetFlags name control.scope) set unset).convertCase
          (env.oldText name control ++ text)) ∧
      e.flags \ { isLocal := true } =
        (changeFlags (env.targetFlags name control.scope) set unset ∪
          { exported := env.settings.allExport }) \ { isLocal := true } ∧
      e.flags.readOnly = ((env.targetFlags name control.scope).readOnly || set.readOnly) ∧
      (∀ i k, k ≠ name → scopes.entryAt i k = env.scopes.entryAt i k) ∧
      env.scopes.SameLevels scopes) := by
  constructor
  · intro hd
    unfold assign
    rw [run_assignWith, if_pos ((refuses_iff hl).mpr hd)]
  · intro hd
    have ha : env.refuses name control.scope = false := by
      simpa using fun h => hd ((refuses_iff hl).mp h)
    obtain ⟨hspecial, hinteger, hcase⟩ := env.assignedFlags_eq name set unset control
    have hrun : (assign name value set unset control).run.run env = _ :=
      run_assignWith_of_case ha (hspecial.trans hs) (hinteger.trans hi)
    have hflags := flags_entryOrNew env.scopes name control.scope
    have hro := readOnly_entryOrNew env.scopes name control.scope
    refine ⟨_, _, hrun, puts_update env.scopes name control.scope _, get_update, ?_,
      changeFlags_congr hflags set unset _, ?_, fun i k hk => entryAt_update_other hk i,
      sameLevels_update⟩
    · rw [assigned, hcase, assignedValue_eq, Option.map_map]
      rfl
    · simp only [assigned, Flags.readOnly_union, readOnly_changeFlags, hro, Bool.or_false,
        targetFlags]
      cases env.scopes.getScoped name control.scope <;> rfl

/-- Text is appended to a local variable, which becomes a global one in capitals. -/
theorem global_capitals_as_controlled :
    let scopes := ScopeStack.new.push.update "x" .innermost fun e => { e with value := some "a" }
    let env := { Environment.new Host.standalone [] with scopes }
    ∃ scopes, (assign "x" (some "b") { allCaps := true, readOnly := true } {}
        { outermost := true, append := true }).run.run env = (.ok (), { env with scopes }) ∧
      (scopes.entryAt 0 "x").bind (·.value) = some "AB" ∧ scopes.entryAt 1 "x" = none := by
  intro scopes env
  have hl : env.scopes.Levelled := sameLevels_update.levelled (levelled_pushTable levelled_new _)
  have hd : ¬ Denied env "x" { outermost := true, append := true } := by
    rw [← refuses_iff hl]
    decide
  obtain ⟨scopes', e, hrun, hputs, -, hvalue, -⟩ := (assign_as_controlled hl "x" (some "b")
    { allCaps := true, readOnly := true } {} { outermost := true, append := true } rfl rfl).2 hd
  have hbottom : scopes'.entryAt 0 "x" = some e := hputs 0
  have hupper : String.ofList (Text.toUpper ("a" ++ "b").toList) = "AB" := by decide
  refine ⟨scopes', hrun, ?_, hputs 1⟩
  rw [hbottom, Option.bind_some, hvalue]
  exact congrArg some hupper

end ShellCore.Environment
