import ShellCore.Text.Case

/-! Attributes of variables and functions. -/

namespace ShellCore

structure Flags where
  /-- The variable is passed to commands. -/
  exported : Bool := false
  /-- The value can be neither changed nor unset. -/
  readOnly : Bool := false
  /-- The entry was made in a local scope. -/
  isLocal : Bool := false
  allCaps : Bool := false
  allSmall : Bool := false
  /-- The function is traced when it runs. -/
  functionTrace : Bool := false
  /-- Assigned values are evaluated as arithmetic expressions. -/
  integer : Bool := false
  /-- Assignments go through the host. -/
  special : Bool := false
  /-- The variable lives only as long as the command that it was assigned for. -/
  temporary : Bool := false
  deriving DecidableEq, Repr

namespace Flags

def combine (f : Bool → Bool → Bool) (a b : Flags) : Flags :=
  { exported := f a.exported b.exported
    readOnly := f a.readOnly b.readOnly
    isLocal := f a.isLocal b.isLocal
    allCaps := f a.allCaps b.allCaps
    allSmall := f a.allSmall b.allSmall
    functionTrace := f a.functionTrace b.functionTrace
    integer := f a.integer b.integer
    special := f a.special b.special
    temporary := f a.temporary b.temporary }

instance : Union Flags := ⟨combine (· || ·)⟩

instance : SDiff Flags := ⟨combine fun a b => a && !b⟩

/-- All flags of `b` are in `a`. -/
def contains (a b : Flags) : Bool := b \ a = {}

/-- Upper case wins over lower case. -/
def convertCase (flags : Flags) (value : String) : String :=
  if flags.allCaps then String.ofList (Text.toUpper value.toList)
  else if flags.allSmall then String.ofList (Text.toLower value.toList)
  else value

end Flags

end ShellCore
