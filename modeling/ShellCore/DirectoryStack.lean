import ShellCore.Decimal
import ShellCore.Text.Blank

/-! The stack of saved directories and its text. -/

namespace ShellCore

open Text

/-- The directory pushed last comes first. -/
structure DirectoryStack where
  paths : List String
  deriving DecidableEq, Repr

inductive DirectoryError
  /-- The line, counted from one, is neither blank nor a comment and pushes nothing. -/
  | badLine (line : Nat) (content : String)
  | indexOutOfRange (index size : Nat)
  deriving DecidableEq, Repr

def DirectoryError.message : DirectoryError → String
  | .badLine line content =>
    "line " ++ Decimal.natText line ++ ": expected `pushd <path>`: " ++ content
  | .indexOutOfRange index size =>
    "directory stack index " ++ Decimal.natText index ++ " out of range (size " ++
      Decimal.natText size ++ ")"

namespace DirectoryStack

def empty : DirectoryStack := ⟨[]⟩

def push (s : DirectoryStack) (path : String) : DirectoryStack := ⟨path :: s.paths⟩

def pop (s : DirectoryStack) : Option String × DirectoryStack := (s.paths.head?, ⟨s.paths.tail⟩)

def top? (s : DirectoryStack) : Option String := s.paths.head?

def size (s : DirectoryStack) : Nat := s.paths.length

def get? (s : DirectoryStack) (index : Nat) : Option String := s.paths[index]?

/-- Brings the directory at the index to the top. Those above it go to the bottom in order. -/
def rotate (s : DirectoryStack) (index : Nat) : Except DirectoryError DirectoryStack :=
  if index < s.size then .ok ⟨s.paths.drop index ++ s.paths.take index⟩
  else .error (.indexOutOfRange index s.size)

/-- A line ends at a line feed, and a carriage return right before that is not part of it. -/
def lines : List Char → List (List Char)
  | [] => []
  | '\r' :: '\n' :: s => [] :: lines s
  | '\n' :: s => [] :: lines s
  | c :: s =>
    match lines s with
    | [] => [[c]]
    | line :: rest => (c :: line) :: rest

/-- How a line that pushes a directory starts. -/
def keyword : List Char := ['p', 'u', 's', 'h', 'd', ' ']

inductive Line
  | ignored
  | push (path : List Char)
  | bad
  deriving DecidableEq, Repr

/-- Blanks at the start of a line do not matter. -/
def Line.of (line : List Char) : Line :=
  let text := trimStart line
  if text.isEmpty || text.head? == some '#' then .ignored
  else if keyword.isPrefixOf text && keyword.length < text.length then
    .push (text.drop keyword.length)
  else .bad

/-- Applies the lines in order, of which the first has the number `n`. -/
def pushLines (s : DirectoryStack) (n : Nat) :
    List (List Char) → Except DirectoryError DirectoryStack
  | [] => .ok s
  | line :: rest =>
    match Line.of line with
    | .ignored => pushLines s (n + 1) rest
    | .push path => pushLines (s.push (String.ofList path)) (n + 1) rest
    | .bad => .error (.badLine n (String.ofList line))

def ofText (text : String) : Except DirectoryError DirectoryStack :=
  pushLines empty 1 (lines text.toList)

/-- One line for each directory, from the bottom up. -/
def toText (s : DirectoryStack) : String :=
  String.ofList (s.paths.reverse.flatMap fun path => keyword ++ path.toList ++ ['\n'])

end DirectoryStack

end ShellCore
