import ShellCore.Proofs.Environment.Assign
import ShellCore.Proofs.Variable.Attributes

/-! Arithmetic keeps the lasting flags of all variables. -/

namespace ShellCore.Environment

open ScopeStack

variable {η : Type} {name : String} {flags : Flags} {control : SetControl} {evaluate : Evaluator η}
  {env env' : Environment η}

/-- What arithmetic does to the flags of the variables that it assigns. -/
theorem lasting_changeFlags (flags : Flags) (b : Bool) :
    (changeFlags flags ({} \ { readOnly := true }) { temporary := true } ∪
      { exported := b }).lasting = flags.lasting := by
  simp [Flags.lasting, changeFlags, Union.union, SDiff.sdiff, Flags.combine]

theorem lasting_targetFlags_eq (env : Environment η) (name : String) (scope : Scope) :
    (env.targetFlags name scope).lasting =
      ((env.scopes.getScoped name scope).map (·.flags.lasting)).getD {} := by
  unfold targetFlags
  cases env.scopes.getScoped name scope with
  | none => simp [Flags.lasting, SDiff.sdiff, Flags.combine]
  | some e => rfl

theorem lasting_targetFlags (h : Relates KeepsAttributes env env') (name : String) (scope : Scope) :
    (env'.targetFlags name scope).lasting = (env.targetFlags name scope).lasting := by
  rw [lasting_targetFlags_eq, lasting_targetFlags_eq, h.scopes.lasting_getScoped]

theorem keepsAttributes_store (name : String) (flags : Flags) (value : Option String) :
    Maintains (Relates KeepsAttributes)
      (store name .visible flags value : ExceptT AssignError (ShellM η) Unit) := by
  intro env
  rw [run_store]
  rcases ha : (env.scopes.entryOrNew name .visible).assign name value with e | ⟨old, e⟩
  · exact ⟨keepsAttributes_update rfl, rfl⟩
  · have hu : KeepsAttributes env.scopes (env.scopes.update name .visible fun _ => e) :=
      keepsAttributes_update (by rw [(eq_of_assign ha).2])
    dsimp only
    split
    · refine ⟨Trans.trans hu (keepsAttributes_update ?_), rfl⟩
      split <;> rfl
    · exact ⟨hu, rfl⟩

theorem keepsAttributes_storeConverted (name : String) (flags : Flags) (converted : SpecialAssign) :
    Maintains (Relates KeepsAttributes)
      (storeConverted name .visible flags converted : ExceptT AssignError (ShellM η) Unit) := by
  cases converted with
  | store value => exact keepsAttributes_store name flags value
  | keep => exact .pure ()

theorem access_keepsAttributes : (access (η := η)).Keeps (Relates KeepsAttributes) where
  get name env := by
    unfold access
    dsimp only
    split <;> exact Std.Refl.refl env
  assign name value span env := by
    show Relates KeepsAttributes env
      ((assignWith closedEvaluator name (some value) {} { temporary := true } {}).run.run env).2
    rw [run_assignWith]
    split
    · exact Std.Refl.refl env
    · refine Maintains.bind (maintains_convert (fun _ env => Std.Refl.refl env) name _ _)
        (fun converted => ?_) env
      have hd : Maintains (Relates KeepsAttributes)
          (modify (declareIn name .visible ({} \ { readOnly := true }) { temporary := true }) :
            ExceptT AssignError (ShellM η) Unit) :=
        .modify fun env => ⟨keepsAttributes_update (lasting_changeFlags _ _), rfl⟩
      exact hd.bind fun _ => (keepsAttributes_storeConverted name _ converted).bind fun _ => .pure _
  expandWord text env := ⟨Std.Refl.refl env.scopes, rfl⟩
  substituteCommand text env := ⟨Std.Refl.refl env.scopes, rfl⟩
  setExitStatus status env := ⟨Std.Refl.refl env.scopes, rfl⟩

theorem evaluator_keepsAttributes (text : String) (env : Environment η) :
    Relates KeepsAttributes env (evaluator text env).2 :=
  access_keepsAttributes.evaluateInteger text env

theorem convert_keepsAttributes (name : String) (flags : Flags) (value : Option String) :
    Maintains (Relates (η := η) KeepsAttributes) (convert evaluator name flags value) :=
  maintains_convert evaluator_keepsAttributes name flags value

end ShellCore.Environment
