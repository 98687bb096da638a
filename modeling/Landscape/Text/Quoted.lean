import Landscape.Text.Printable
import Landscape.Text.Symbol

/-!
# Quoted texts in messages

A text is shown between single quotes, or between double quotes when it holds a single quote and no
double one. The quote in use and the backslash are escaped by a backslash; a symbol that does not
print is shown by its code point, so that a quoted text holds characters only.
-/

namespace Landscape.Text

/-- The hexadecimal digits of `n`, lower case, with at least `width` of them. -/
def hexDigits (width n : Nat) : List Char :=
  let digits := Nat.toDigits 16 n
  List.replicate (width - digits.length) '0' ++ digits

/-- The quote that suits a text. -/
def quoteFor (t : Text) : Char :=
  if t.contains '\'' && !t.contains '"' then '"' else '\''

/-- A code point that does not print. -/
def showCode (n : Nat) : List Char :=
  if n < 0x100 then '\\' :: 'x' :: hexDigits 2 n
  else if n < 0x10000 then '\\' :: 'u' :: hexDigits 4 n
  else '\\' :: 'U' :: hexDigits 8 n

/-- One character between quotes of the given kind. -/
def showChar (quote c : Char) : List Char :=
  if c == quote || c == '\\' then ['\\', c]
  else if c == '\n' then ['\\', 'n']
  else if c == '\r' then ['\\', 'r']
  else if c == '\t' then ['\\', 't']
  else if isPrintable c then [c]
  else showCode c.toNat

/-- One symbol between quotes of the given kind. -/
def showSymbol (quote : Char) : Symbol → List Char
  | .char c => showChar quote c
  | .half n => showCode (Symbol.half n).code

/-- A text between quotes. -/
def quoted (t : Text) : String :=
  let quote := quoteFor t
  String.ofList (quote :: t.flatMap (showSymbol quote) ++ [quote])

end Landscape.Text
