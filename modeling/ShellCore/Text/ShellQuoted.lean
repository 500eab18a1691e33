import ShellCore.Text.Blank

/-! Text quoted so that a shell reads it as one word. -/

namespace ShellCore.Text

/-- Characters that a shell does not take literally wherever they stand. -/
def isSpecial (c : Char) : Bool :=
  isBlank c ||
    [';', '&', '|', '(', ')', '<', '>', '$', '\x60', '\\', '"', '\x27', '=', '*', '?'].contains c

def closesAfterOpening (opening closing : Char) (s : List Char) : Bool :=
  (s.dropWhile (· != opening)).contains closing

/-- A tilde is expanded at the start of a word and after a colon. -/
def hasColonTilde : List Char → Bool
  | ':' :: '~' :: _ => true
  | _ :: s => hasColonTilde s
  | [] => false

def needsQuotes (s : List Char) : Bool :=
  s.isEmpty || s.head? == some '#' || s.head? == some '~' || s.any isSpecial || hasColonTilde s ||
    closesAfterOpening '\x7b' '\x7d' s || closesAfterOpening '[' ']' s

/-- Inside double quotes these four keep a meaning. -/
def escapeQuoted (c : Char) : List Char :=
  if ['"', '\x60', '$', '\\'].contains c then ['\\', c] else [c]

def shellQuoted (s : List Char) : List Char :=
  if !needsQuotes s then s
  else if s.contains '\x27' then '"' :: s.flatMap escapeQuoted ++ ['"']
  else '\x27' :: s ++ ['\x27']

end ShellCore.Text
