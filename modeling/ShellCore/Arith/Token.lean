import ShellCore.Arith.Operator
import ShellCore.Span
import ShellCore.Text.Blank
import ShellCore.Text.Bytes

/-! The tokens of an expression. -/

namespace ShellCore.Arith

open Text

inductive TokenError
  | invalidConstant
  /-- A character that starts no token. -/
  | strayCharacter
  | unclosedExpansion
  deriving DecidableEq, Repr

def TokenError.message : TokenError → String
  | .invalidConstant => "invalid numeric constant"
  | .strayCharacter => "invalid character"
  | .unclosedExpansion => "unclosed nested expression"

inductive TokenValue
  | constant (n : Int64)
  /-- A variable, without a dollar sign or braces. -/
  | variable (name : String)
  /-- An expression in brackets of its own, whose opening is `opening` bytes long. -/
  | nested (body : List Char) (opening : Nat)
  | symbol (s : Symbol)
  deriving DecidableEq, Repr

structure Token where
  value : TokenValue
  span : Span
  deriving DecidableEq, Repr

def isNameChar (c : Char) : Bool := c.isAlphanum || c == '_'

/-- Characters that are a parameter name by themselves after a dollar sign. -/
def isSpecialParameter (c : Char) : Bool :=
  c.isDigit || ['@', '*', '#', '?', '-', '$', '!'].contains c

/-- What may stand between braces after a dollar sign. -/
def isParameterName : List Char → Bool
  | [] => false
  | c :: s =>
    if c.isDigit then s.all Char.isDigit
    else if isSpecialParameter c then s.isEmpty
    else isNameChar c && s.all isNameChar

/-- The text up to the two parentheses that close it, when `depth` are open inside. -/
def beforeParens? (depth : Nat) : List Char → Option (List Char)
  | [] => none
  | c :: s =>
    if c = '(' then (beforeParens? (depth + 1) s).map (c :: ·)
    else if c = ')' then
      match depth with
      | 0 => if s.head? = some ')' then some [] else none
      | depth + 1 => (beforeParens? depth s).map (c :: ·)
    else (beforeParens? depth s).map (c :: ·)

/-- The text up to the bracket that closes it, when `depth` are open inside. -/
def beforeBracket? (depth : Nat) : List Char → Option (List Char)
  | [] => none
  | c :: s =>
    if c = '[' then (beforeBracket? (depth + 1) s).map (c :: ·)
    else if c = ']' then
      match depth with
      | 0 => some []
      | depth + 1 => (beforeBracket? depth s).map (c :: ·)
    else (beforeBracket? depth s).map (c :: ·)

/-- A token value, or an error, and the number of characters it takes up. -/
abbrev Lexeme := Except TokenError TokenValue × Nat

/-- The lexeme at a dollar sign, given what follows the sign. -/
def lexDollar (s : List Char) : Lexeme :=
  match s with
  | '(' :: '(' :: inner =>
    match beforeParens? 0 inner with
    | some body => (.ok (.nested body 3), body.length + 5)
    | none => (.error .unclosedExpansion, s.length + 1)
  | '[' :: inner =>
    match beforeBracket? 0 inner with
    | some body => (.ok (.nested body 2), body.length + 3)
    | none => (.error .unclosedExpansion, s.length + 1)
  | '\x7b' :: inner =>
    let name := inner.takeWhile (· != '\x7d')
    if inner.contains '\x7d' && isParameterName name then
      (.ok (.variable (String.ofList name)), name.length + 3)
    else (.error .strayCharacter, 1)
  | c :: _ =>
    if isSpecialParameter c then (.ok (.variable (String.ofList [c])), 2)
    else if isNameChar c then
      let name := s.takeWhile isNameChar
      (.ok (.variable (String.ofList name)), name.length + 1)
    else (.error .strayCharacter, 1)
  | [] => (.error .strayCharacter, 1)

/-- The characters of a constant: a run of name characters, and if these are digits before a `#`,
also the run of digit symbols after it. -/
def constantText (s : List Char) : List Char :=
  let run := s.takeWhile isNameChar
  match s.dropWhile isNameChar with
  | '#' :: digits =>
    if run.all Char.isDigit then run ++ '#' :: digits.takeWhile fun c => isNameChar c || c == '@'
    else run
  | _ => run

/-- The lexeme at a character that starts neither a `$` form nor an operator. -/
def lexTerm (s : List Char) : Lexeme :=
  match s with
  | [] => (.error .strayCharacter, 0)
  | c :: _ =>
    if c.isDigit then
      let text := constantText s
      match unsigned? text with
      | some n => (.ok (.constant n), text.length)
      | none => (.error .invalidConstant, text.length)
    else if isNameChar c then
      let name := s.takeWhile isNameChar
      (.ok (.variable (String.ofList name)), name.length)
    else (.error .strayCharacter, 1)

/-- The lexeme at the start of a text that starts with no blank. Of the operators the longest
that fits is taken. -/
def lex (s : List Char) : Lexeme :=
  match s with
  | '$' :: rest => lexDollar rest
  | _ =>
    match Symbol.spellings.find? fun p => p.1.isPrefixOf s with
    | some (spelling, symbol) => (.ok (.symbol symbol), spelling.length)
    | none => lexTerm s

/-- What reading a text yields: tokens, with at most one error, which comes last. -/
abbrev Reading := Except (TokenError × Span) Token

/-- The tokens of a text that starts at byte `start`, of which `inside` more characters belong to
the token before. -/
def tokensFrom (start inside : Nat) : List Char → List Reading
  | [] => []
  | c :: s =>
    match inside with
    | inside + 1 => tokensFrom (start + c.utf8Size) inside s
    | 0 =>
      if isBlank c then tokensFrom (start + c.utf8Size) 0 s
      else
        let (value, length) := lex (c :: s)
        let span : Span := ⟨start, start + byteLength ((c :: s).take length)⟩
        match value with
        | .ok value => .ok ⟨value, span⟩ :: tokensFrom (start + c.utf8Size) (length - 1) s
        | .error e => [.error (e, span)]

def tokens (s : List Char) : List Reading := tokensFrom 0 0 s

/-- A `++` or `--` after this text changes the variable that the text ends with. The last visible
character decides. -/
def endsWithName (before : List Char) : Bool :=
  (trimEnd before).getLast?.any fun c => isNameChar c || ['\x7d', '@', '#', '?', '$'].contains c

end ShellCore.Arith
