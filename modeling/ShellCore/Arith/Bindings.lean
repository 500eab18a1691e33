import ShellCore.Arith.Expansion
import ShellCore.Dictionary

/-! Arithmetic over a flat set of variables, without a shell around it. -/

namespace ShellCore.Arith

abbrev Bindings := Dictionary String

/-- Nothing is refused, and there are neither words nor commands nor an exit status. -/
def Bindings.access : Access Bindings Empty Empty where
  get name := do return .ok ((← get).get? name)
  assign name value _ := do
    modify (·.insert name value)
    return .ok ()
  expandWord _ := pure none
  substituteCommand _ := pure none
  setExitStatus _ := pure ()

/-- The message of an error, which neither a read nor an assignment can cause here. -/
def Bindings.message (c : Cause Empty Empty) : String := c.message nofun nofun

end ShellCore.Arith
