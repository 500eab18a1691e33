import ShellCore.Builtin.Basic
import ShellCore.Environment.Arithmetic

/-! The built-in that reads the options of a script, one each time it is run. Its place among the
arguments is kept in variables. -/

namespace ShellCore.Builtin.Getopts

open CommandLine Text

variable {η : Type}

/-- A positive index, with an optional plus sign, that fits a machine word. -/
def readIndex? (s : List Char) : Option Nat :=
  let digits := match s with
    | '+' :: digits => digits
    | _ => s
  (Arith.readDigits? 10 digits).filter fun n => 1 ≤ n && n < UInt64.size

/-- The cursor can go on at the byte offset of the argument. -/
def isResumable (spec : OptionSpec) (arg : List Char) (sub : Nat) : Bool :=
  spec.introducesOptions arg && (dropBytes? sub arg).any (!·.isEmpty)

/-- The place that the variables tell. Whatever they do not make sense of starts anew: the index
at the first argument, the offset at the start of its argument. -/
def loadCursor (env : Environment η) (spec : OptionSpec) (args : List String) : Cursor :=
  let index := (readIndex? (trim (env.valueD optIndex "1").toList)).getD 1
  let sub := (env.integerD optOffset 0).toInt.toNat
  let resumable := args[index]?.any fun arg => isResumable spec arg.toList sub
  { index, sub := if resumable then sub else 0 }

inductive ReportError
  | invalidName (name : String)
  | assign (e : AssignError)
  | unset (e : UnsetError)
  deriving DecidableEq, Repr

def ReportError.message : ReportError → String
  | .invalidName name => "`" ++ name ++ "` is not a valid variable name"
  | .assign e => e.message
  | .unset e => e.message

def isName (name : List Char) : Bool :=
  !name.isEmpty && !name.head?.any Char.isDigit && name.all Arith.isNameChar

/-- What the variables of the script are told: the value of the named one, the option argument,
and the message for the user. -/
structure Report where
  value : String
  argument : Option String := none
  message : Option String := none
  deriving DecidableEq, Repr

/-- An error puts `?` or, silently, `:` for a missing argument into the variable. Silence hands the
option to the script, and otherwise the user gets a message. -/
def Report.of (shellName : String) (found : Next) (argument : OptionArgument) (silent : Bool) :
    Report :=
  match found with
  | .option name plus =>
    { value := String.ofList (if plus then ['+', name] else [name]), argument := argument.value? }
  | .done => { value := "?" }
  | .error e =>
    if silent then
      { value := match e with
          | .unknownOption _ => "?"
          | .missingArgument _ => ":"
        argument := some (String.ofList [e.option]) }
    else { value := "?", message := some (shellName ++ ": " ++ e.message) }

def assign (name value : String) : ExceptT ReportError (ShellM η) Unit :=
  ExceptT.adapt .assign (Environment.assign name (some value) {} {} {})

/-- Sets the variables of the script, one after the other until one cannot be set, and yields the
message for the user. -/
def report (found : Next) (c : Cursor) (silent : Bool) (name : String) :
    ExceptT ReportError (ShellM η) (Option String) := do
  if !isName name.toList then throw (.invalidName name)
  let r := Report.of (← get).shellName found c.argument silent
  assign name r.value
  match r.argument with
  | some argument => assign optArgument argument
  | none => let _ ← ExceptT.adapt .unset (Environment.unset optArgument .visible)
  assign optIndex (Decimal.natText c.index)
  assign optOffset (Decimal.natText c.sub)
  return r.message

/-- Prints a message of the built-in. -/
def complain (text : String) : ShellM η Outcome := do
  Environment.printError ((← get).shellName ++ ": getopts: " ++ text)
  return .ofStatus .error

/-- Reads one option. The argument list starts with the variable, in the place of a command. -/
def step (spec : OptionSpec) (args : List String) (name : String) : ShellM η Outcome := do
  let (found, c) := next args spec (loadCursor (← get) spec args)
  match ← (report found c spec.silent name).run with
  | .ok message =>
    if let some message := message then Environment.printError message
    return .ofStatus (if found = .done then .failure else .success)
  | .error e => complain e.message

/-- Reads one option of the arguments after the option spec and the name of the variable, in the
scope of the caller. -/
def main : Command η := fun args => do
  let args := match args with
    | "--" :: args => args
    | _ => args
  match args with
  | spec :: name :: rest =>
    inCallerScope (step (.ofText spec.toList) (name :: rest) name)
  | _ => complain "usage: getopts option_spec variable_name [argument...]"

end ShellCore.Builtin.Getopts
