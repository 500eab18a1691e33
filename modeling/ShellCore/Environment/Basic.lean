import ShellCore.Arith.Bindings
import ShellCore.Host
import ShellCore.Setting
import ShellCore.Status
import ShellCore.Variable.ScopeStack

/-! The state of a shell. -/

namespace ShellCore

/-- The index of the argument that option parsing looks at next. -/
def optIndex : String := "OPTIND"

/-- The byte offset of the next option in that argument, or zero before the argument is entered. -/
def optOffset : String := "OPTSUB"

/-- The argument of the last option. -/
def optArgument : String := "OPTARG"

structure Environment (η : Type) where
  scopes : ScopeStack
  /-- Functions are not scoped. -/
  functions : Table := .new 0
  settings : Settings := {}
  /-- The status of the last command. -/
  exitStatus : ExitStatus := .success
  host : Host η
  hostState : η
  /-- The name of the shell in error messages. -/
  shellName : String := "lsh"

/-- A step of the shell. -/
abbrev ShellM (η : Type) := StateM (Environment η)

namespace Environment

variable {η : Type}

/-- A new shell, whose only variable is the special one for the option index. -/
def new (host : Host η) (hostState : η) : Environment η :=
  { scopes := ScopeStack.new.update optIndex .outermost fun e =>
      { e with value := some "1", flags := e.flags ∪ { special := true } }
    host, hostState }

/-- The value of the visible variable, if it has one. -/
def value? (env : Environment η) (name : String) : Option String :=
  (env.scopes.get name).bind (·.value)

def valueD (env : Environment η) (name default : String) : String :=
  (env.value? name).getD default

/-- The value as a constant. It is not evaluated. -/
def integerD (env : Environment η) (name : String) (default : Int64) : Int64 :=
  ((env.value? name).bind fun value => Arith.constant? (Text.trim value.toList)).getD default

def mapScopes (f : ScopeStack → ScopeStack) (env : Environment η) : Environment η :=
  { env with scopes := f env.scopes }

def updateVariable (name : String) (scope : Scope) (f : Entry → Entry) :
    Environment η → Environment η :=
  mapScopes (·.update name scope f)

/-- Asks the host for a service. -/
def callHost {α : Type} (service : Host η → StateM η α) : ShellM η α := fun env =>
  let (a, hostState) := service env.host env.hostState
  (a, { env with hostState })

def printError (message : String) : ShellM η Unit := callHost (·.printError message)

end Environment

end ShellCore
