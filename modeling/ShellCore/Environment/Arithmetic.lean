import ShellCore.Environment.Assign

/-! Arithmetic over the variables of a shell, and assignments that evaluate. -/

namespace ShellCore

structure UnsetVariableError where
  name : String
  deriving DecidableEq, Repr

def UnsetVariableError.message (e : UnsetVariableError) : String := e.name ++ ": parameter not set"

namespace Environment

variable {η : Type}

/-- What arithmetic assigns is a decimal number, which an integer variable evaluates without
looking at any other. The assigned variable outlives its command. -/
def access : Arith.Access (Environment η) UnsetVariableError AssignError where
  get name := fun env =>
    match env.value? name with
    | some value => (.ok (some value), env)
    | none => (if env.settings.unset then .ok none else .error ⟨name⟩, env)
  assign name value _ := assignWith closedEvaluator name (some value) {} { temporary := true } {}
  expandWord text := callHost (·.expandWord text)
  substituteCommand text := callHost (·.substituteCommand text)
  setExitStatus exitStatus := modify fun env => { env with exitStatus }

abbrev ArithError := Arith.Error UnsetVariableError AssignError

def arithMessage (e : ArithError) : String :=
  e.cause.message UnsetVariableError.message AssignError.message

/-- Evaluates text over the variables of the shell, which the text may change. -/
def evaluator : Evaluator η := fun text env =>
  let (result, env) := (Arith.evaluateInteger access text).run env
  (result.mapError arithMessage, env)

/-- Assigns a variable. Text for an integer variable is an expression. -/
def assign (name : String) (value : Option String) (set unset : Flags) (control : SetControl) :
    ExceptT AssignError (ShellM η) Unit :=
  assignWith evaluator name value set unset control

/-- Assigns a variable in the scope and changes none of its flags. -/
def assignValue (name : String) (scope : Scope) (value : Option String) :
    ExceptT AssignError (ShellM η) Unit := do
  let env ← get
  if env.refuses name scope then throw (.readOnly name value)
  let flags := env.targetFlags name scope
  storeConverted name scope flags (← convert evaluator name flags value)

/-- Changes the flags of a variable, which is made without a value if it is missing. -/
def declare (name : String) (set unset : Flags) (control : SetControl) :
    ExceptT AssignError (ShellM η) Unit := do
  if (← get).hidesReadOnly name control.scope then throw (.readOnly name none)
  modify (declareIn name control.scope set unset)

/-- Makes the visible variable writable, and tells whether there is one. -/
def clearReadOnly (name : String) : ShellM η Bool := fun env =>
  ((env.scopes.get name).isSome,
    env.mapScopes (·.modify name (·.removeFlags { readOnly := true })))

/-- Removes a variable and yields the entry that was visible. -/
def unset (name : String) (scope : Scope) : ExceptT UnsetError (ShellM η) (Option Entry) := do
  let env ← get
  match env.scopes.unset name scope with
  | .ok (removed, scopes) =>
    MonadState.set { env with scopes }
    pure removed
  | .error e => throw e

/-- Expands an expression to text, and prints an error if that fails. -/
def expandArithmetic (text : String) : ExceptT ArithError (ShellM η) String := do
  match ← ExceptT.lift (Arith.expand access text).run with
  | .ok value => pure value.toText
  | .error e =>
    ExceptT.lift
      (printError ((← get).shellName ++ ": arithmetic expansion: " ++ arithMessage e))
    throw e

end Environment

end ShellCore
