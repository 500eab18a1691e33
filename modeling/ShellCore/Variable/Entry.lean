import ShellCore.Variable.Flags

/-! What a name is bound to. -/

namespace ShellCore

/-- The body of a function belongs to the place that defines it, so that equal texts from two
places are two bodies. -/
structure FunctionBody where
  site : Nat
  text : String
  deriving DecidableEq, Repr

inductive Kind
  | plain
  | function (body : FunctionBody)
  deriving DecidableEq, Repr

/-- An entry without a value exists, and differs from one with an empty value. -/
structure Entry where
  value : Option String := none
  kind : Kind := .plain
  flags : Flags := {}
  deriving DecidableEq, Repr

inductive AssignError
  /-- `newValue` was to be assigned. -/
  | readOnly (name : String) (newValue : Option String)
  | notInteger (name : String) (message : String)
  deriving DecidableEq, Repr

def AssignError.message : AssignError → String
  | .readOnly name _ => "cannot assign to read-only variable `" ++ name ++ "`"
  | .notInteger name message =>
    "invalid value for integer variable `" ++ name ++ "`: " ++ message

structure UnsetError where
  name : String
  deriving DecidableEq, Repr

def UnsetError.message (e : UnsetError) : String :=
  "cannot unset read-only variable `" ++ e.name ++ "`"

namespace Entry

def ofValue (value : String) : Entry := { value := some value }

def ofFunction (body : FunctionBody) : Entry := { kind := .function body }

def addFlags (e : Entry) (flags : Flags) : Entry := { e with flags := e.flags ∪ flags }

def removeFlags (e : Entry) (flags : Flags) : Entry := { e with flags := e.flags \ flags }

def body? (e : Entry) : Option FunctionBody :=
  match e.kind with
  | .plain => none
  | .function body => some body

def convertCase (e : Entry) (value : String) : String := e.flags.convertCase value

/-- Replaces the value as it is and yields the old one. -/
def assign (e : Entry) (name : String) (value : Option String) :
    Except AssignError (Option String × Entry) :=
  if e.flags.readOnly then .error (.readOnly name value)
  else .ok (e.value, { e with value })

end Entry

end ShellCore
