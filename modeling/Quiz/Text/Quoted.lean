/-
Quiz.Text.Quoted — a text as a message quotes it.

The quotes are single, unless the text holds a single quote and no
double one. A backslash and the quote in use get a backslash, tab,
newline and return are written by letter, and an unprintable character by
its code: two hexadecimal digits below 256, four below 65536, else eight.
A surrogate is written by its four digits.
-/
import Quiz.Text.CodePoint
import Quiz.Text.Printable

namespace Quiz.Text

/-- One hexadecimal digit, in lower case. -/
def hexDigit (n : Nat) : Char :=
  if n < 10 then Char.ofNat (48 + n) else Char.ofNat (87 + n)

/-- The last `width` hexadecimal digits of `n`, in lower case. -/
def hexDigits : (width : Nat) → (n : Nat) → List Char
  | 0, _ => []
  | width + 1, n => hexDigits width (n / 16) ++ [hexDigit (n % 16)]

/-- One character inside a quoted text. -/
def quotedChar (quote : Char) (c : Char) : List Char :=
  if c = quote || c = '\\' then ['\\', c]
  else if c = '\n' then ['\\', 'n']
  else if c = '\r' then ['\\', 'r']
  else if c = '\t' then ['\\', 't']
  else if isPrintable c then [c]
  else if c.toNat < 0x100 then '\\' :: 'x' :: hexDigits 2 c.toNat
  else if c.toNat < 0x10000 then '\\' :: 'u' :: hexDigits 4 c.toNat
  else '\\' :: 'U' :: hexDigits 8 c.toNat

/-- One code point inside a quoted text. No character that needs a mark is
printable. -/
def quotedCodePoint (quote : Char) : CodePoint → List Char
  | .scalar c => quotedChar quote c
  | .surrogate index => '\\' :: 'u' :: hexDigits 4 (CodePoint.unit index)

/-- The quote that a text is put between. -/
def quoteFor (cs : List Char) : Char :=
  if cs.contains '\'' && !cs.contains '"' then '"' else '\''

/-- The text between quotes, as messages show it. -/
def quoted (s : String) : String :=
  let quote := quoteFor s.toList
  String.ofList (quote :: ((codePoints s).flatMap (quotedCodePoint quote) ++ [quote]))

end Quiz.Text
