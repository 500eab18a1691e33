import ShellCore.Text.Cased
import ShellCore.Text.CaseMapping

/-! Upper and lower case of whole texts. -/

namespace ShellCore.Text

/-- A word touches this side: past what case ignores stands a cased character. -/
def touchesCased (s : List Char) : Bool := (s.dropWhile isCaseIgnorable).head?.any isCased

/-- Walks the text with what came before it, nearest first. A capital sigma that ends a word of
more than one letter gives the final form. -/
def lowerAfter : List Char → List Char → List Char
  | _, [] => []
  | before, c :: s =>
    (if c == 'Σ' && touchesCased before && !touchesCased s then ['ς'] else lowerCase c) ++
      lowerAfter (c :: before) s

def toUpper (s : List Char) : List Char := s.flatMap upperCase

def toLower (s : List Char) : List Char := lowerAfter [] s

end ShellCore.Text
