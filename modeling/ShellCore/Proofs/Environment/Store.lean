import ShellCore.Proofs.Environment.Attributes
import ShellCore.Proofs.Environment.Protection
import ShellCore.Proofs.Variable.Update

/-! An accepted assignment is one change of its variable. -/

namespace ShellCore.Environment

open ScopeStack

variable {η : Type} {name : String} {scope : Scope} {flags set unset : Flags}
  {value : Option String} {env : Environment η} {f g : Entry → Entry}

theorem updateVariable_updateVariable (f g : Entry → Entry) (env : Environment η) :
    updateVariable name scope g (updateVariable name scope f env) =
      updateVariable name scope (g ∘ f) env := by
  simp only [updateVariable, mapScopes, update_update]

theorem updateVariable_congr
    (h : f (env.scopes.entryOrNew name scope) = g (env.scopes.entryOrNew name scope)) :
    updateVariable name scope f env = updateVariable name scope g env := by
  simp only [updateVariable, mapScopes, update_congr h]

/-- The entry after an assignment of a value that changes its flags. -/
def assigned (env : Environment η) (set unset : Flags) (value : Option String) (e : Entry) :
    Entry :=
  { e with
    value
    flags := changeFlags e.flags set unset ∪ { exported := env.settings.allExport } }

/-- That the read-only flag is added last makes no difference. -/
theorem flags_readOnly_last (flags set unset : Flags) (b : Bool) (h : set.readOnly) :
    changeFlags flags (set \ { readOnly := true }) unset ∪ { exported := b } ∪
      { readOnly := true } = changeFlags flags set unset ∪ { exported := b } := by
  simp [changeFlags, Union.union, SDiff.sdiff, Flags.combine, h]

theorem sdiff_readOnly (h : set.readOnly = false) : set \ { readOnly := true } = set := by
  simp only [SDiff.sdiff, Flags.combine, h, Bool.not_false, Bool.and_true, Bool.and_self,
    Bool.not_true]
  rw [← h]

/-- Storing a value in a variable whose flags have been changed for it. -/
theorem run_store_declared (flags unset : Flags) (value : Option String)
    (hr : (env.scopes.entryOrNew name scope).flags.readOnly = false)
    (hset : set.readOnly = false) :
    (store name scope flags value).run.run (declareIn name scope set unset env) =
      (.ok (), if flags.special && name == optIndex
        then restartScan scope (updateVariable name scope (assigned env set unset value) env)
        else updateVariable name scope (assigned env set unset value) env) := by
  have he : (declareIn name scope set unset env).scopes.entryOrNew name scope =
      assigned env set unset (env.scopes.entryOrNew name scope).value
        (env.scopes.entryOrNew name scope) := entryOrNew_update
  have hu : updateVariable name scope
      (fun _ => assigned env set unset value (env.scopes.entryOrNew name scope))
        (declareIn name scope set unset env) =
          updateVariable name scope (assigned env set unset value) env := by
    rw [declareIn, updateVariable_updateVariable]
    exact updateVariable_congr rfl
  rw [run_store, he]
  simp only [Entry.assign, assigned, Flags.readOnly_union, readOnly_changeFlags, hr, hset,
    Bool.or_self, Bool.false_eq_true, if_false]
  exact congrArg (fun env' => (_, if flags.special && name == optIndex
    then restartScan scope env' else env')) hu

theorem run_modify_declareIn (env : Environment η) :
    (modify (declareIn name scope set unset) : ExceptT AssignError (ShellM η) Unit).run.run env =
      (.ok (), declareIn name scope set unset env) := rfl

/-- Storing a value that starts no scan anew. -/
theorem run_conclude_store (hr : (env.scopes.entryOrNew name scope).flags.readOnly = false)
    (hs : (flags.special && name == optIndex) = false) :
    (conclude name scope flags set unset (.store value)).run.run env =
      (.ok (), updateVariable name scope (assigned env set unset value) env) := by
  have hset : (set \ { readOnly := true }).readOnly = false := by simp
  have hstore := run_store_declared flags unset value hr hset
  rw [hs, if_neg Bool.false_ne_true] at hstore
  unfold conclude
  rw [run_bind_of_ok (run_modify_declareIn env)]
  dsimp only [storeConverted]
  rw [run_bind_of_ok hstore]
  split
  · rename_i hset
    refine congrArg (Prod.mk _) ?_
    rw [updateVariable_updateVariable]
    refine updateVariable_congr ?_
    simp only [Function.comp_apply, Entry.addFlags, assigned, flags_readOnly_last _ _ _ _ hset]
  · rename_i hset
    rw [sdiff_readOnly (by simpa using hset)]
    rfl

/-- Storing a value that makes nothing read-only. -/
theorem run_conclude_store_of_writable
    (hr : (env.scopes.entryOrNew name scope).flags.readOnly = false)
    (hset : set.readOnly = false) :
    (conclude name scope flags set unset (.store value)).run.run env =
      (.ok (), if flags.special && name == optIndex
        then restartScan scope (updateVariable name scope (assigned env set unset value) env)
        else updateVariable name scope (assigned env set unset value) env) := by
  unfold conclude
  rw [run_bind_of_ok (run_modify_declareIn env), sdiff_readOnly hset]
  dsimp only [storeConverted]
  rw [run_bind_of_ok (run_store_declared flags unset value hr hset), hset]
  rfl

/-- Without the host or an evaluation, a value is only converted to upper or lower case. -/
theorem run_convert_of_case {evaluate : Evaluator η} (hs : flags.special = false)
    (hi : flags.integer = false) :
    (convert evaluate name flags value).run.run env =
      (.ok (.store (value.map flags.convertCase)), env) := by
  unfold convert
  rw [hs, hi, if_neg Bool.false_ne_true, if_neg Bool.false_ne_true]
  split
  · rfl
  · rename_i hc
    simp only [Bool.or_eq_true, not_or, Bool.not_eq_true] at hc
    have hid : flags.convertCase = id := by
      funext text
      simp [Flags.convertCase, hc]
    rw [hid, Option.map_id]
    rfl

/-- An assignment that neither asks the host nor evaluates. -/
theorem run_assignWith_of_case {evaluate : Evaluator η} {control : SetControl}
    (ha : env.refuses name control.scope = false)
    (hs : (env.assignedFlags name set unset control).special = false)
    (hi : (env.assignedFlags name set unset control).integer = false) :
    (assignWith evaluate name value set unset control).run.run env =
      (.ok (), updateVariable name control.scope
        (assigned env set unset ((env.assignedValue name value control).map
          (env.assignedFlags name set unset control).convertCase)) env) := by
  rw [run_assignWith, ha, if_neg Bool.false_ne_true, run_bind_of_ok (run_convert_of_case hs hi)]
  exact run_conclude_store (readOnly_of_accepted ha) (by rw [hs, Bool.false_and])

/-- An assignment without a conversion. -/
theorem run_assignWith_of_plain {evaluate : Evaluator η} {control : SetControl}
    (ha : env.refuses name control.scope = false)
    (hf : (env.assignedFlags name set unset control).lasting = {}) :
    (assignWith evaluate name value set unset control).run.run env =
      (.ok (), updateVariable name control.scope
        (assigned env set unset (env.assignedValue name value control)) env) := by
  have hs := Flags.special_lasting (env.assignedFlags name set unset control)
  have hi := Flags.integer_lasting (env.assignedFlags name set unset control)
  have hu := Flags.allCaps_lasting (env.assignedFlags name set unset control)
  have hl := Flags.allSmall_lasting (env.assignedFlags name set unset control)
  have hid : (env.assignedFlags name set unset control).convertCase = id := by
    funext text
    simp [Flags.convertCase, ← hu, ← hl, hf]
  rw [run_assignWith_of_case ha (by rw [← hs, hf]) (by rw [← hi, hf]), hid, Option.map_id]
  rfl

end ShellCore.Environment
