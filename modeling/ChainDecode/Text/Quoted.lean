import ChainDecode.Text.Basic
import ChainDecode.Text.HexDigit
import ChainDecode.Text.Printable

/-! # Quoted text

A text is shown between single quotes, or between double quotes when it holds a single quote and
no double one. Backslashes escape the quote, themselves and everything without a visible form.
-/
namespace ChainDecode.Text

/-- The numeric escape of a letter, as short as its code point allows. -/
def codeEscape (l : Letter) : List Char :=
  let n := l.codePoint
  if n ≤ 0xff then '\\' :: 'x' :: hexFixed 2 n
  else if n ≤ 0xffff then '\\' :: 'u' :: hexFixed 4 n
  else '\\' :: 'U' :: hexFixed 8 n

def quotedChar (mark c : Char) : List Char :=
  if c = mark || c = '\\' then ['\\', c]
  else if c = '\t' then ['\\', 't']
  else if c = '\n' then ['\\', 'n']
  else if c = '\r' then ['\\', 'r']
  else if isPrintable c then [c]
  else codeEscape (.char c)

def quotedLetter (mark : Char) : Letter → List Char
  | .char c => quotedChar mark c
  | .surrogate place => codeEscape (.surrogate place)

def quoteMark (t : Text) : Char :=
  if t.letters.contains (.char '\'') && !t.letters.contains (.char '"') then '"' else '\''

def quoted (t : Text) : String :=
  let mark := quoteMark t
  String.ofList (mark :: t.letters.flatMap (quotedLetter mark) ++ [mark])

end ChainDecode.Text
