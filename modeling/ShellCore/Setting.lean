/-! The settings that change how the shell behaves. -/

namespace ShellCore

inductive Setting
  /-- Exports every variable when it is assigned. -/
  | allExport
  /-- The shell serves a user. One that does not exits when a built-in gets an invalid option. -/
  | interactive
  /-- An unset variable counts as empty, and as zero in arithmetic, rather than as an error. -/
  | unset
  deriving DecidableEq, Repr

inductive SettingError
  | noSuchSetting
  /-- The name abbreviates more than one. -/
  | ambiguous
  deriving DecidableEq, Repr

def SettingError.message : SettingError → String
  | .noSuchSetting => "no such option"
  | .ambiguous => "ambiguous option name"

namespace Setting

/-- All settings in alphabetical order. -/
def all : List Setting := [.allExport, .interactive, .unset]

def longName : Setting → String
  | .allExport => "allexport"
  | .interactive => "interactive"
  | .unset => "unset"

/-- The short name, and whether naming it after a hyphen turns the setting on. -/
def shortName : Setting → Char × Bool
  | .allExport => ('a', true)
  | .interactive => ('i', true)
  | .unset => ('u', false)

def isAbbreviated (setting : Setting) (name : List Char) : Bool :=
  name.isPrefixOf setting.longName.toList

/-- The setting whose name the text is or abbreviates. -/
def ofName (name : List Char) : Except SettingError Setting :=
  match all.filter (·.isAbbreviated name) with
  | [] => .error .noSuchSetting
  | [setting] => .ok setting
  | setting :: _ => if setting.longName.toList = name then .ok setting else .error .ambiguous

/-- The setting that a long name stands for, and whether it is turned on. A leading `no` turns a
setting off, unless the whole text is a name. -/
def parseLong (name : List Char) : Except SettingError (Setting × Bool) :=
  match ofName name, name with
  | .ok setting, _ => .ok (setting, true)
  | .error e, 'n' :: 'o' :: rest =>
    if rest.isEmpty then .error e else (ofName rest).map (·, false)
  | .error e, _ => .error e

def parseShort (name : Char) : Option (Setting × Bool) :=
  all.findSome? fun setting =>
    if setting.shortName.1 = name then some (setting, setting.shortName.2) else none

end Setting

/-- Which settings are on. -/
structure Settings where
  allExport : Bool := false
  interactive : Bool := false
  unset : Bool := true
  deriving DecidableEq, Repr

namespace Settings

def allOff : Settings := ⟨false, false, false⟩

def get (s : Settings) : Setting → Bool
  | .allExport => s.allExport
  | .interactive => s.interactive
  | .unset => s.unset

def set (s : Settings) (setting : Setting) (on : Bool) : Settings :=
  match setting with
  | .allExport => { s with allExport := on }
  | .interactive => { s with interactive := on }
  | .unset => { s with unset := on }

theorem get_set (s : Settings) (a b : Setting) (on : Bool) :
    (s.set a on).get b = if b = a then on else s.get b := by
  cases a <;> cases b <;> rfl

end Settings

end ShellCore
