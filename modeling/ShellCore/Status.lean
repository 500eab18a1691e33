/-! Exit statuses and requests to leave the shell. -/

namespace ShellCore

structure ExitStatus where
  code : Int
  deriving DecidableEq, Repr

namespace ExitStatus

def success : ExitStatus := ⟨0⟩

def failure : ExitStatus := ⟨1⟩

/-- An error worse than failure, such as wrong usage. -/
def error : ExitStatus := ⟨2⟩

end ExitStatus

/-- A request to stop the normal flow of execution. -/
inductive Divert
  /-- Leave the shell, with the current exit status if none is given. -/
  | exit (status : Option ExitStatus)
  deriving DecidableEq, Repr

def Divert.exitStatus : Divert → Option ExitStatus
  | .exit status => status

/-- What a built-in hands to its caller. -/
structure Outcome where
  exitStatus : ExitStatus
  divert : Option Divert := none
  deriving DecidableEq, Repr

namespace Outcome

def ofStatus (status : ExitStatus) : Outcome := ⟨status, none⟩

def ofDivert (divert : Divert) : Outcome :=
  ⟨divert.exitStatus.getD .error, some divert⟩

end Outcome

end ShellCore
