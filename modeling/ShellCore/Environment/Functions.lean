import ShellCore.Environment.Basic

/-! Function definitions. -/

namespace ShellCore.Environment

variable {η : Type}

/-- Gives a function a new body and keeps its flags. -/
def defineFunction (name : String) (body : FunctionBody) :
    ExceptT AssignError (ShellM η) Unit := do
  let env ← get
  let e := env.functions.entryOrNew name
  if e.flags.readOnly then throw (.readOnly name none)
  let functions := env.functions.insert name { e with kind := .function body }
  MonadState.set { env with functions }

def function? (env : Environment η) (name : String) : Option FunctionBody :=
  (env.functions.lookup name).bind (·.body?)

end ShellCore.Environment
