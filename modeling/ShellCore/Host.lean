/-! The program that a shell is embedded in. -/

namespace ShellCore

/-- What becomes of an assignment to a special variable. -/
inductive SpecialAssign
  /-- Stores this value, which may differ from the assigned one. -/
  | store (value : Option String)
  /-- Leaves the stored value as it is. -/
  | keep
  deriving DecidableEq, Repr

/-- The services of an embedding program with state `η`. -/
structure Host (η : Type) where
  /-- The text without quotes and substitutions, if the host can remove them. -/
  expandWord : String → StateM η (Option String)
  /-- The output of the command or why it failed, if the host can run one. -/
  substituteCommand : String → StateM η (Option (Except String String))
  assignSpecial : String → Option String → StateM η SpecialAssign
  printError : String → StateM η Unit

/-- A host without services, which collects the error messages. -/
def Host.standalone : Host (List String) where
  expandWord _ := pure none
  substituteCommand _ := pure none
  assignSpecial _ value := pure (.store value)
  printError message := modify (· ++ [message])

end ShellCore
