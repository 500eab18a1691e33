/-! Which options a command accepts. -/

namespace ShellCore.CommandLine

inductive OptionType
  | noArgument
  | takesArgument
  | unknown
  deriving DecidableEq, Repr

structure OptionSpec where
  /-- The option characters. One that takes an argument is followed by a colon. -/
  letters : List Char
  /-- The caller reports errors itself. -/
  silent : Bool := false
  /-- Options may start with a plus sign as well as a hyphen. -/
  plus : Bool := false
  deriving DecidableEq, Repr

namespace OptionSpec

/-- Takes a leading colon or plus sign that has not been seen before as a mark. -/
def takeMark (spec : OptionSpec) : OptionSpec :=
  match spec.letters with
  | ':' :: letters => if spec.silent then spec else { spec with letters, silent := true }
  | '+' :: letters => if spec.plus then spec else { spec with letters, plus := true }
  | _ => spec

/-- The marks for silence and for plus signs come first, in either order. -/
def ofText (text : List Char) : OptionSpec := (⟨text, false, false⟩ : OptionSpec).takeMark.takeMark

/-- The first occurrence of a character tells its type. -/
def judge (spec : OptionSpec) (option : Char) : OptionType :=
  if option = ':' then .unknown
  else match spec.letters.dropWhile (· != option) with
    | [] => .unknown
    | _ :: ':' :: _ => .takesArgument
    | _ :: _ => .noArgument

/-- The argument cannot be the argument of an option, as it starts options itself. -/
def introducesOptions (spec : OptionSpec) : List Char → Bool
  | '-' :: rest => !rest.isEmpty
  | '+' :: _ => spec.plus
  | _ => false

end OptionSpec

end ShellCore.CommandLine
