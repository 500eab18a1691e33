import ShellCore.Text.GraphemeExtend
import ShellCore.Text.Unprintable

/-! Text in double quotes in which every character can be seen. -/

namespace ShellCore.Text

/-- Letters that show nothing and stand where a Hangul letter is missing. -/
def isHangulFiller (c : Char) : Bool := ['\u115F', '\u1160', '\u3164', '\uFFA0'].contains c

/-- The sound marks of halfwidth Katakana extend a grapheme, but take up a place of their own. -/
def isHalfwidthSoundMark (c : Char) : Bool := ['\uFF9E', '\uFF9F'].contains c

/-- The character shows something that does not merge with the character before. -/
def isSeen (c : Char) : Bool :=
  isPrintable c && !isHangulFiller c && (!extendsGrapheme c || isHalfwidthSoundMark c)

/-- The code point in lower-case hexadecimal digits without leading zeros. -/
def codePointEscape (c : Char) : List Char :=
  ['\\', 'u', '\x7b'] ++ Nat.toDigits 16 c.toNat ++ ['\x7d']

def escapeChar (c : Char) : List Char :=
  match c with
  | '\x00' => ['\\', '0']
  | '\t' => ['\\', 't']
  | '\r' => ['\\', 'r']
  | '\n' => ['\\', 'n']
  | '\\' => ['\\', '\\']
  | '"' => ['\\', '"']
  | c => if isSeen c then [c] else codePointEscape c

def escaped (s : List Char) : List Char := '"' :: s.flatMap escapeChar ++ ['"']

end ShellCore.Text
