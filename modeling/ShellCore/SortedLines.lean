/-! Lists of lines that are kept in the order of their bytes. -/

namespace ShellCore

def bytes (s : String) : List UInt8 := s.toUTF8.data.toList

structure SortedLines where
  lines : List String
  deriving DecidableEq, Repr

namespace SortedLines

def empty : SortedLines := ⟨[]⟩

/-- Puts the line after those that are less than or equal to it. -/
def insertLine (line : String) : List String → List String
  | [] => [line]
  | l :: rest => if bytes l ≤ bytes line then l :: insertLine line rest else line :: l :: rest

def add (l : SortedLines) (line : String) : SortedLines := ⟨insertLine line l.lines⟩

def addAll (l : SortedLines) (lines : List String) : SortedLines := lines.foldl add l

def ofList (lines : List String) : SortedLines :=
  ⟨lines.mergeSort fun a b => bytes a ≤ bytes b⟩

def size (l : SortedLines) : Nat := l.lines.length

/-- Each entry on a line of its own. -/
def toText (l : SortedLines) : String := String.join (l.lines.map (· ++ "\n"))

end SortedLines

end ShellCore
