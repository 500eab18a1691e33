import ShellCore.CommandLine.Spec
import ShellCore.Text.Bytes

/-! Reading options one at a time. -/

namespace ShellCore.CommandLine

open Text

/-- The argument of an option. Missing differs from empty. -/
inductive OptionArgument
  | absent
  | given (value : String)
  | missing
  deriving DecidableEq, Repr

def OptionArgument.value? : OptionArgument → Option String
  | .given value => some value
  | _ => none

/-- A place among the arguments, and what reading the last option found. -/
structure Cursor where
  /-- The argument to look at next. The first argument is the command. -/
  index : Nat := 1
  /-- The byte offset of the next option in that argument, or zero before it is entered. -/
  sub : Nat := 0
  /-- The option that caused the last error. -/
  invalid : Option Char := none
  argument : OptionArgument := .absent
  deriving DecidableEq, Repr

inductive ParseError
  | unknownOption (option : Char)
  | missingArgument (option : Char)
  deriving DecidableEq, Repr

namespace ParseError

def option : ParseError → Char
  | .unknownOption c | .missingArgument c => c

def message : ParseError → String
  | .unknownOption c => "invalid option -- '" ++ String.ofList [c] ++ "'"
  | .missingArgument c => "option requires an argument -- '" ++ String.ofList [c] ++ "'"

end ParseError

inductive Next
  /-- An option, and whether it started with a plus sign. -/
  | option (name : Char) (plus : Bool)
  | done
  | error (e : ParseError)
  deriving DecidableEq, Repr

/-- An option inside an argument. -/
structure Place where
  index : Nat
  before : List Char
  option : Char
  rest : List Char
  deriving DecidableEq, Repr

inductive Position
  | atOption (place : Place)
  /-- No option is left. The operands start at the index. -/
  | ended (index : Nat)
  deriving DecidableEq, Repr

/-- The position before an argument that has not been entered. A lone sign is an operand. -/
def entering (args : List String) (spec : OptionSpec) (index : Nat) : Position :=
  match args[index]? with
  | none => .ended index
  | some arg =>
    match arg.toList with
    | ['-', '-'] => .ended (index + 1)
    | sign :: option :: rest =>
      if spec.introducesOptions arg.toList then .atOption ⟨index, [sign], option, rest⟩
      else .ended index
    | _ => .ended index

/-- The position at which the cursor continues. A cursor that no option stands at was left in
another argument, and goes on with the next one. -/
def position (args : List String) (spec : OptionSpec) (c : Cursor) : Position :=
  match args[c.index]? with
  | none => .ended c.index
  | some arg =>
    if c.sub = 0 then entering args spec c.index
    else match dropBytes? c.sub arg.toList with
      | some (option :: rest) => .atOption ⟨c.index, takeBytes c.sub arg.toList, option, rest⟩
      | _ => entering args spec (c.index + 1)

/-- The cursor behind an option without an argument. -/
def Place.after (p : Place) : Cursor :=
  if p.rest.isEmpty then { index := p.index + 1 }
  else { index := p.index, sub := byteLength p.before + p.option.utf8Size }

/-- Reads the option at a place. Its argument is the rest of the argument that it stands in, or
else the next argument, which must not look like options. -/
def Place.read (args : List String) (spec : OptionSpec) (p : Place) : Next × Cursor :=
  let found := Next.option p.option (p.before.head? == some '+')
  match spec.judge p.option with
  | .unknown => (.error (.unknownOption p.option), { p.after with invalid := some p.option })
  | .noArgument => (found, p.after)
  | .takesArgument =>
    if !p.rest.isEmpty then
      (found, { index := p.index + 1, argument := .given (String.ofList p.rest) })
    else
      let missing : Next × Cursor := (.error (.missingArgument p.option),
        { index := p.index + 1, invalid := some p.option, argument := .missing })
      match args[p.index + 1]? with
      | none => missing
      | some value =>
        if spec.introducesOptions value.toList then missing
        else (found, { index := p.index + 2, argument := .given value })

/-- Reads the next option and moves the cursor behind it. -/
def next (args : List String) (spec : OptionSpec) (c : Cursor) : Next × Cursor :=
  match position args spec c with
  | .ended index => (.done, { index })
  | .atOption p => p.read args spec

end ShellCore.CommandLine
