import ShellCore.Proofs.Environment.Assign

/-! Which assignments leave the read-only variables alone. -/

namespace ShellCore.Environment

open ScopeStack

variable {η α : Type} {name : String} {scope : Scope} {flags set unset : Flags}
  {control : SetControl} {value : Option String} {evaluate : Evaluator η} {env env' : Environment η}

/-- The assignment is one to the option index that is stored, so that the scan starts anew. In the
same scope, that removes or hides a read-only option offset. -/
structure Exposes (env : Environment η) (name : String) (scope : Scope) (flags : Flags)
    (value : Option String) : Prop where
  name_eq : name = optIndex
  special : flags.special
  accepted : env.refuses name scope = false
  stored : (env.host.assignSpecial name value env.hostState).1 ≠ .keep
  hides : env.hidesReadOnly optOffset scope

theorem hidesReadOnly_iff (hl : env.scopes.Levelled) (name : String) (scope : Scope) :
    env.hidesReadOnly name scope ↔ env.scopes.Hides name scope := by
  cases scope with
  | outermost =>
    simp only [hidesReadOnly, getAll, List.any_eq_true, List.mem_filterMap, mem_tables,
      Option.map_eq_some_iff, Hides]
    constructor
    · rintro ⟨p, ⟨t, ⟨i, ht⟩, e, he, rfl⟩, hp⟩
      simp only [Bool.and_eq_true, bne_iff_ne, ne_eq] at hp
      refine ⟨i, e.value, ?_, ?_⟩
      · rw [← hl i t ht]
        exact hp.1
      · simp [sealed, entryAt, ht, he, Entry.sealed, hp.2]
    · rintro ⟨i, v, hi, hv⟩
      obtain ⟨e, he, hev⟩ := exists_of_sealed hv
      obtain ⟨t, ht, hte⟩ := Option.bind_eq_some_iff.mp he
      have hr := (Entry.sealed_eq_some_iff.mp hev).1
      refine ⟨(t.level, e), ⟨t, ⟨i, ht⟩, e, hte, rfl⟩, ?_⟩
      simp [hl i t ht, hi, hr]
  | innermost =>
    simp only [hidesReadOnly, Table.contains, lookup_top, Bool.and_eq_true, Bool.not_eq_true',
      Option.isSome_eq_false_iff, Option.isNone_iff_eq_none, Option.any_eq_true, Hides,
      get_eq_some_iff]
    refine and_congr_right fun _ => ?_
    constructor
    · rintro ⟨e, ⟨i, he, hu⟩, hr⟩
      exact ⟨i, e.value, by simp [sealed, he, Entry.sealed, hr], hu⟩
    · rintro ⟨i, v, hv, hu⟩
      obtain ⟨e, he, hev⟩ := exists_of_sealed hv
      exact ⟨e, ⟨i, he, hu⟩, (Entry.sealed_eq_some_iff.mp hev).1⟩
  | visible => simp [hidesReadOnly, Hides]

theorem not_hides_of_accepted (hl : env.scopes.Levelled) (ha : env.refuses name scope = false) :
    ¬ env.scopes.Hides name scope := by
  rw [← hidesReadOnly_iff hl]
  simp only [refuses, Bool.or_eq_false_iff] at ha
  simp [ha.1]

theorem readOnly_of_accepted (ha : env.refuses name scope = false) :
    (env.scopes.entryOrNew name scope).flags.readOnly = false := by
  simp only [refuses, Bool.or_eq_false_iff] at ha
  rw [readOnly_entryOrNew, ha.2]

theorem run_convert_special (hs : flags.special) (env : Environment η) :
    (convert evaluate name flags value).run.run env =
      (.ok (env.host.assignSpecial name value env.hostState).1,
        { env with hostState := (env.host.assignSpecial name value env.hostState).2 }) := by
  unfold convert
  rw [if_pos hs]
  rfl

/-- The names whose entries storing a converted value may change. -/
def Stores (name : String) (flags : Flags) (converted : SpecialAssign) (n : String) : Prop :=
  n = name ∨ converted ≠ .keep ∧ flags.special ∧ name = optIndex ∧ n = optOffset

theorem guards_of_convert (he : evaluate.Grows) (hl : env.scopes.Levelled)
    (ha : env.refuses name scope = false) (hx : ¬ Exposes env name scope flags value)
    {k : SpecialAssign → ExceptT AssignError (ShellM η) α}
    (hk : ∀ converted,
      Maintains (Relates (Safe (Stores name flags converted) scope)) (k converted)) :
    Guards env.scopes ((convert evaluate name flags value >>= k).run.run env).2.scopes := by
  have hg := maintains_convert he name flags value env
  rcases hc : (convert evaluate name flags value).run.run env with ⟨r, env'⟩
  rw [hc] at hg
  replace hg : ScopeStack.Grows env.scopes env'.scopes := hg.scopes
  cases r with
  | error e =>
    rw [run_bind_of_error hc]
    exact hg.guards
  | ok converted =>
    rw [run_bind_of_ok hc]
    refine Trans.trans hg.guards ((hk converted env').scopes fun n hn hh => ?_).1
    have hh := hg.hides hh
    rcases hn with rfl | ⟨hstore, hs, rfl, rfl⟩
    · exact not_hides_of_accepted hl ha hh
    · rw [run_convert_special hs] at hc
      injection hc with hr
      injection hr with hr
      refine hx ⟨rfl, hs, ha, ?_, (hidesReadOnly_iff hl _ _).mpr hh⟩
      rw [hr]
      exact hstore

theorem guards_assign (hl : env.scopes.Levelled)
    (hx : ¬ Exposes env name control.scope (env.assignedFlags name set unset control)
      (env.assignedValue name value control)) :
    Guards env.scopes ((assign name value set unset control).run.run env).2.scopes := by
  unfold assign
  rw [run_assignWith]
  split
  · exact Std.Refl.refl _
  · rename_i ha
    refine guards_of_convert grows_evaluator hl (by simpa using ha) hx fun converted => ?_
    refine (tolerates_safe _ _).conclude (.inl rfl) (fun hk hs hn => .inr ⟨hk, hs, hn, rfl⟩) ?_
    exact fun _ s => safe_update (.inl rfl) fun v hv => by
      obtain ⟨hr, hv⟩ := Entry.sealed_eq_some_iff.mp hv
      exact Entry.sealed_eq_some_iff.mpr ⟨by simp [Entry.addFlags], hv⟩

theorem tolerates_sameLevels : Tolerates SameLevels (fun _ => True) scope :=
  fun _ _ _ _ _ => sameLevels_update

/-- No assignment moves a table. -/
theorem maintains_assign_sameLevels (name : String) (value : Option String) (set unset : Flags)
    (control : SetControl) :
    Maintains (Relates SameLevels)
      (assign name value set unset control : ExceptT AssignError (ShellM η) Unit) := by
  intro env
  unfold assign
  rw [run_assignWith]
  split
  · exact Std.Refl.refl env
  · refine Maintains.bind ?_ (fun converted => ?_) env
    · exact (maintains_convert grows_evaluator name _ _).mono fun _ _ h => ⟨h.scopes.levels, h.host⟩
    · refine tolerates_sameLevels.conclude trivial (fun _ _ _ => trivial) fun _ _ => ?_
      exact sameLevels_update

theorem run_assignValue (name : String) (scope : Scope) (value : Option String)
    (env : Environment η) :
    (assignValue name scope value).run.run env =
      if env.refuses name scope then (.error (.readOnly name value), env)
      else (convert evaluator name (env.targetFlags name scope) value >>=
        storeConverted name scope (env.targetFlags name scope)).run.run env := by
  show (ExceptT.run (if env.refuses name scope then _ else _ :
    ExceptT AssignError (ShellM η) Unit)).run env = _
  split
  · rfl
  · rfl

theorem guards_assignValue (hl : env.scopes.Levelled)
    (hx : ¬ Exposes env name scope (env.targetFlags name scope) value) :
    Guards env.scopes ((assignValue name scope value).run.run env).2.scopes := by
  rw [run_assignValue]
  split
  · exact Std.Refl.refl _
  · rename_i ha
    refine guards_of_convert grows_evaluator hl (by simpa using ha) hx fun converted => ?_
    exact (tolerates_safe _ _).storeConverted (.inl rfl) fun hk hs hn => .inr ⟨hk, hs, hn, rfl⟩

theorem maintains_assignValue_sameLevels (name : String) (scope : Scope) (value : Option String) :
    Maintains (Relates SameLevels)
      (assignValue name scope value : ExceptT AssignError (ShellM η) Unit) := by
  intro env
  rw [run_assignValue]
  split
  · exact Std.Refl.refl env
  · refine Maintains.bind ?_ (fun converted => ?_) env
    · exact (maintains_convert grows_evaluator name _ _).mono fun _ _ h => ⟨h.scopes.levels, h.host⟩
    · exact tolerates_sameLevels.storeConverted trivial fun _ _ _ => trivial

theorem run_declare (name : String) (set unset : Flags) (control : SetControl)
    (env : Environment η) :
    (declare name set unset control).run.run env =
      if env.hidesReadOnly name control.scope then (.error (.readOnly name none), env)
      else (.ok (), declareIn name control.scope set unset env) := by
  show (ExceptT.run (if env.hidesReadOnly name control.scope then _ else _ :
    ExceptT AssignError (ShellM η) Unit)).run env = _
  split <;> rfl

theorem maintains_declare_sameLevels (name : String) (set unset : Flags) (control : SetControl) :
    Maintains (Relates SameLevels)
      (declare name set unset control : ExceptT AssignError (ShellM η) Unit) := by
  intro env
  rw [run_declare]
  split
  · exact Std.Refl.refl env
  · exact ⟨sameLevels_update, rfl⟩

theorem guards_declare (hl : env.scopes.Levelled) :
    Guards env.scopes ((declare name set unset control).run.run env).2.scopes := by
  rw [run_declare]
  split
  · exact Std.Refl.refl _
  · rename_i hh
    rw [hidesReadOnly_iff hl] at hh
    refine guards_update hh fun v hv => ?_
    obtain ⟨hr, hv⟩ := Entry.sealed_eq_some_iff.mp hv
    exact Entry.sealed_eq_some_iff.mpr ⟨by simp [hr], hv⟩

theorem run_unset (name : String) (scope : Scope) (env : Environment η) :
    (Environment.unset name scope).run.run env =
      match env.scopes.unset name scope with
      | .ok (removed, scopes) => (.ok removed, { env with scopes })
      | .error e => (.error e, env) := by
  show (ExceptT.run (match env.scopes.unset name scope with
    | .ok (removed, scopes) => do
      MonadState.set { env with scopes }
      pure removed
    | .error e => throw e : ExceptT UnsetError (ShellM η) (Option Entry))).run env = _
  split <;> rfl

theorem maintains_unset (name : String) (scope : Scope) :
    Maintains (Relates Guards) (Environment.unset name scope :
      ExceptT UnsetError (ShellM η) (Option Entry)) := by
  intro env
  rw [run_unset]
  rcases hu : env.scopes.unset name scope with e | ⟨removed, scopes⟩
  · exact Std.Refl.refl env
  · exact ⟨guards_unset hu, rfl⟩

theorem maintains_expandArithmetic (text : String) :
    Maintains (Relates ScopeStack.Grows) (expandArithmetic text :
      ExceptT ArithError (ShellM η) String) := by
  refine .bind (.lift (access_keeps.expand text)) fun r => ?_
  cases r with
  | ok value => exact .pure _
  | error e => exact .bind .get fun _ => .bind (maintains_callHost _) fun _ => .throw e

/-- The entries of the option offset are as after a change of it in the scope. -/
def Restarted (scope : Scope) (s s' : ScopeStack) : Prop :=
  ∃ u f, s.SameLevels u ∧
    ∀ i, s'.entryAt i optOffset = (u.update optOffset scope f).entryAt i optOffset

theorem run_store_index (hs : flags.special)
    (hr : (env.scopes.entryOrNew optIndex scope).flags.readOnly = false) (value : Option String) :
    (store optIndex scope flags value).run.run env =
      (.ok (), restartScan scope (updateVariable optIndex scope
        (fun _ => { env.scopes.entryOrNew optIndex scope with value }) env)) := by
  have ha : (env.scopes.entryOrNew optIndex scope).assign optIndex value =
      .ok ((env.scopes.entryOrNew optIndex scope).value,
        { env.scopes.entryOrNew optIndex scope with value }) := by
    simp [Entry.assign, hr]
  rw [run_store, ha]
  simp [hs]

theorem restarted_store {s : ScopeStack} (hl : s.SameLevels env.scopes) (hs : flags.special)
    (hr : (env.scopes.entryOrNew optIndex scope).flags.readOnly = false) (value : Option String) :
    Restarted scope s ((store optIndex scope flags value).run.run env).2.scopes := by
  rw [run_store_index hs hr]
  exact ⟨_, _, hl.trans sameLevels_update, fun i => rfl⟩

theorem restarted_conclude {s : ScopeStack} (hl : s.SameLevels env.scopes) (hs : flags.special)
    (hr : (env.scopes.entryOrNew optIndex scope).flags.readOnly = false) (value : Option String) :
    Restarted scope s
      ((conclude optIndex scope flags set unset (.store value)).run.run env).2.scopes := by
  have hr' : ((declareIn optIndex scope (set \ { readOnly := true }) unset env).scopes.entryOrNew
      optIndex scope).flags.readOnly = false := by
    refine (congrArg (·.flags.readOnly) entryOrNew_update).trans ?_
    simp [hr]
  obtain ⟨u, f, hu, hf⟩ := restarted_store (hl.trans sameLevels_update) hs hr' value
  refine ⟨u, f, hu, fun i => ?_⟩
  rw [← hf]
  have hd : (modify (declareIn optIndex scope (set \ { readOnly := true }) unset) :
      ExceptT AssignError (ShellM η) Unit).run.run env = (.ok (), _) := rfl
  unfold conclude
  rw [run_bind_of_ok hd]
  dsimp only [storeConverted]
  rw [run_bind_of_ok (run_store_index hs hr' value), run_store_index hs hr' value]
  split
  · exact entryAt_update_other (by decide) i
  · rfl

/-- Where the scan starts anew in the scope although that hides a read-only option offset, the
offset is lost. -/
theorem loses_of_exposes (hl : env.scopes.Levelled) (hx : Exposes env name scope flags value)
    {k : SpecialAssign → ExceptT AssignError (ShellM η) Unit}
    (hk : ∀ value env', env'.scopes = env.scopes →
      Restarted scope env.scopes ((k (.store value)).run.run env').2.scopes) :
    ∃ i, i < env.scopes.depth ∧ ¬ Keeps i env.scopes
      ((convert evaluate name flags value >>= k).run.run env).2.scopes := by
  rw [run_bind_of_ok (run_convert_special hx.special env)]
  have hh := (hidesReadOnly_iff hl _ _).mp hx.hides
  rcases hc : (env.host.assignSpecial name value env.hostState).1 with v | -
  · obtain ⟨u, f, hu, hf⟩ := hk v { env with
      hostState := (env.host.assignSpecial name value env.hostState).2 } rfl
    exact exists_not_keeps hh hu hf
  · exact absurd hc hx.stored

theorem loses_assign (hl : env.scopes.Levelled)
    (hx : Exposes env name control.scope (env.assignedFlags name set unset control)
      (env.assignedValue name value control)) :
    ∃ i, i < env.scopes.depth ∧
      ¬ Keeps i env.scopes ((assign name value set unset control).run.run env).2.scopes := by
  unfold assign
  rw [run_assignWith, if_neg (by simp [hx.accepted])]
  refine loses_of_exposes hl hx fun v env' he => ?_
  have hr := readOnly_of_accepted hx.accepted
  obtain rfl := hx.name_eq
  exact restarted_conclude (he ▸ .refl _) hx.special (he ▸ hr) v

theorem loses_assignValue (hl : env.scopes.Levelled)
    (hx : Exposes env name scope (env.targetFlags name scope) value) :
    ∃ i, i < env.scopes.depth ∧
      ¬ Keeps i env.scopes ((assignValue name scope value).run.run env).2.scopes := by
  rw [run_assignValue, if_neg (by simp [hx.accepted])]
  refine loses_of_exposes hl hx fun v env' he => ?_
  have hr := readOnly_of_accepted hx.accepted
  obtain rfl := hx.name_eq
  exact restarted_store (he ▸ .refl _) hx.special (he ▸ hr) v

end ShellCore.Environment
