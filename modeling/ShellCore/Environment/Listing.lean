import ShellCore.Environment.Functions
import ShellCore.SortedLines
import ShellCore.Text.ShellQuoted

/-! Listings of variables and functions. -/

namespace ShellCore.Environment

variable {η : Type}

/-- The line for a variable: its name, and its value if it has one, as `quote` writes it. -/
def variableLine (quote : String → String) (name : String) (e : Entry) : String :=
  match e.value with
  | some value => name ++ "=" ++ quote value
  | none => name

/-- The visible variables that have all of the flags. -/
def listVariablesWith (env : Environment η) (quote : String → String) (filter : Flags) :
    SortedLines :=
  let shown := (env.scopes.listing .outermost).toList.filter (·.2.flags.contains filter)
  SortedLines.empty.addAll (shown.map fun p => variableLine quote p.1 p.2)

/-- The same, with values that a shell can read back. -/
def listVariables (env : Environment η) (filter : Flags) : SortedLines :=
  env.listVariablesWith (fun value => String.ofList (Text.shellQuoted value.toList)) filter

def listFunctions (env : Environment η) : SortedLines :=
  SortedLines.empty.addAll (env.functions.entries.toList.filterMap fun p =>
    p.2.body?.map fun body => p.1 ++ "() " ++ body.text)

end ShellCore.Environment
