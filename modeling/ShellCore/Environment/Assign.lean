import ShellCore.Environment.Basic

/-! Assignment to variables. -/

namespace ShellCore

/-- Where and how a value is assigned. -/
structure SetControl where
  /-- Assigns the global variable and removes the local ones that hide it. -/
  outermost : Bool := false
  /-- Appends to the value. -/
  append : Bool := false
  /-- Uses an entry of the topmost table, even if the name has one below. -/
  forceNew : Bool := false
  deriving DecidableEq, Repr

def SetControl.scope (control : SetControl) : Scope :=
  if control.outermost then .outermost else if control.forceNew then .innermost else .visible

namespace Environment

variable {η : Type}

/-- A change of the variable in the scope would remove a read-only entry above the global table,
or hide the visible one below a new entry. -/
def hidesReadOnly (env : Environment η) (name : String) : Scope → Bool
  | .outermost => (env.scopes.getAll name).any fun p => p.1 != 0 && p.2.flags.readOnly
  | .innermost =>
    !env.scopes.top.contains name && (env.scopes.get name).any (·.flags.readOnly)
  | .visible => false

/-- No assignment to the name in the scope is allowed. -/
def refuses (env : Environment η) (name : String) (scope : Scope) : Bool :=
  env.hidesReadOnly name scope || (env.scopes.getScoped name scope).any (·.flags.readOnly)

/-- The flags of the entry that an assignment in the scope is for. -/
def targetFlags (env : Environment η) (name : String) (scope : Scope) : Flags :=
  ((env.scopes.getScoped name scope).map (·.flags)).getD {}

/-- How the text for an integer variable becomes a number. -/
abbrev Evaluator (η : Type) := String → ShellM η (Except String Int64)

/-- The value that a variable with the flags gets. The host decides for a special variable, and
case conversion takes precedence over evaluation. -/
def convert (evaluate : Evaluator η) (name : String) (flags : Flags) (value : Option String) :
    ExceptT AssignError (ShellM η) SpecialAssign := do
  if flags.special then ExceptT.lift (callHost (·.assignSpecial name value))
  else if flags.allCaps || flags.allSmall then pure (.store (value.map flags.convertCase))
  else if flags.integer then
    match value with
    | none => pure (.store none)
    | some text =>
      match ← ExceptT.lift (evaluate text) with
      | .ok n => pure (.store (some (Decimal.text n.toInt)))
      | .error message => throw (.notInteger name message)
  else pure (.store value)

/-- The flags after a change, which does not remove the read-only flag. -/
def changeFlags (flags set unset : Flags) : Flags :=
  (flags ∪ set) \ (unset \ { readOnly := true })

/-- Makes the variable with its flags. -/
def declareIn (name : String) (scope : Scope) (set unset : Flags) (env : Environment η) :
    Environment η :=
  env.updateVariable name scope fun e =>
    { e with flags := changeFlags e.flags set unset ∪ { exported := env.settings.allExport } }

/-- A new option index starts the scan of its argument anew. -/
def restartScan (scope : Scope) : Environment η → Environment η :=
  updateVariable optOffset scope fun e =>
    if e.flags.readOnly then e else { e with value := some "0" }

/-- Stores a value as it is. -/
def store (name : String) (scope : Scope) (flags : Flags) (value : Option String) :
    ExceptT AssignError (ShellM η) Unit := do
  match ((← get).scopes.entryOrNew name scope).assign name value with
  | .error e =>
    modify (updateVariable name scope id)
    throw e
  | .ok (_, e) =>
    modify (updateVariable name scope fun _ => e)
    if flags.special && name == optIndex then modify (restartScan scope)

def storeConverted (name : String) (scope : Scope) (flags : Flags) :
    SpecialAssign → ExceptT AssignError (ShellM η) Unit
  | .store value => store name scope flags value
  | .keep => pure ()

/-- What an appending assignment puts before the new value. -/
def appendBase (env : Environment η) (name : String) (scope : Scope) : String :=
  let e := match scope with
    | .innermost => env.scopes.getScoped name scope
    | _ => env.scopes.get name
  (e.bind (·.value)).getD ""

/-- Assigns a value, or none, after adding and removing flags. The read-only flag is added last
and never removed. -/
def assignWith (evaluate : Evaluator η) (name : String) (value : Option String)
    (set unset : Flags) (control : SetControl) : ExceptT AssignError (ShellM η) Unit := do
  let scope := control.scope
  let env ← get
  if env.refuses name scope then throw (.readOnly name value)
  let value := if control.append then value.map (env.appendBase name scope ++ ·) else value
  let declared := set \ { readOnly := true }
  let flags := changeFlags (env.targetFlags name scope) declared unset
  let converted ← convert evaluate name flags value
  modify (declareIn name scope declared unset)
  storeConverted name scope flags converted
  if set.readOnly then modify (updateVariable name scope (·.addFlags { readOnly := true }))

/-- Evaluates text that names no variable. -/
def closedEvaluator : Evaluator η := fun text =>
  pure ((Arith.evaluateInteger Arith.Bindings.access text).run {} |>.1.mapError
    fun e => Arith.Bindings.message e.cause)

end Environment

end ShellCore
