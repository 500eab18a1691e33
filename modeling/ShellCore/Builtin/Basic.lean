import ShellCore.CommandLine.Cursor
import ShellCore.Environment.Basic

/-! Running built-in commands, and the options that they are given. -/

namespace ShellCore.Builtin

open CommandLine

variable {η : Type}

/-- A built-in takes its arguments without its name. -/
abbrev Command (η : Type) := List String → ShellM η Outcome

/-- Runs a built-in in a scope of its own and keeps its exit status. -/
def invoke (command : Command η) (args : List String) : ShellM η Outcome := do
  modify (Environment.mapScopes ScopeStack.push)
  let outcome ← command args
  modify fun env =>
    { env.mapScopes (·.pop.2) with exitStatus := outcome.exitStatus }
  return outcome

/-- Runs an action in the scope below the topmost one. -/
def inCallerScope {α : Type} (action : ShellM η α) : ShellM η α := do
  let (table, scopes) := (← get).scopes.pop
  modify fun env => { env with scopes }
  let a ← action
  modify (Environment.mapScopes (·.giveBack table))
  return a

/-- What a command does about an error in its options. -/
structure OptionErrors where
  /-- Prints a message, unless the option spec is silent. -/
  print : Bool := false
  /-- Leaves the shell, unless it is interactive. -/
  exit : Bool := false
  deriving DecidableEq, Repr

/-- Reads the next option of a command. -/
def nextOption (command : String) (args : List String) (spec : OptionSpec) (c : Cursor)
    (onError : OptionErrors) : ShellM η (Except Divert Next × Cursor) := do
  let (found, c) := next args spec c
  match found with
  | .error e =>
    if onError.print && !spec.silent then
      Environment.printError (command ++ ": " ++ e.message)
    if onError.exit && !(← get).settings.interactive then
      return (.error (.exit (some .error)), c)
    else return (.ok found, c)
  | _ => return (.ok found, c)

end ShellCore.Builtin
