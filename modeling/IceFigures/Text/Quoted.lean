import IceFigures.Text.Numeral
import IceFigures.Text.Printable

/-!
# Quoted Text

How a message shows a piece of the input: in single quotes, or in double
quotes if the text holds a single quote and no double quote. The backslash and
the quote in use are escaped, line ends and tabs are spelled `\n`, `\r` and
`\t`, and every other character that is not printable is given by its code
point in two, four or eight hexadecimal digits.

## Main definitions

* `quoteMark`: The quote that a text is shown in.
* `escape`: The spelling of one character inside quotes.
* `quoted`: A text in quotes.
* `quotedStart`: The start of a text in quotes, cut off at a length.
-/

namespace IceFigures

namespace Text

/-- The quote that a text is shown in. -/
def quoteMark (cs : List Char) : Char :=
  if cs.contains '\x27' && !cs.contains '\x22' then '\x22' else '\x27'

/-- The hexadecimal digits of a number, filled with zeros to a width. -/
def hexPadded (width n : Nat) : List Char :=
  List.replicate (width - (hexadecimal n).length) '0' ++ hexadecimal n

/-- The spelling of one character inside the given quotes. -/
def escape (mark c : Char) : List Char :=
  if c = mark || c = '\\' then ['\\', c]
  else if c = '\n' then ['\\', 'n']
  else if c = '\r' then ['\\', 'r']
  else if c = '\t' then ['\\', 't']
  else if isPrintable c then [c]
  else if c.toNat ≤ 0xFF then '\\' :: 'x' :: hexPadded 2 c.toNat
  else if c.toNat ≤ 0xFFFF then '\\' :: 'u' :: hexPadded 4 c.toNat
  else '\\' :: 'U' :: hexPadded 8 c.toNat

/-- A text in quotes. -/
def quoted (s : String) : String :=
  let mark := quoteMark s.toList
  String.ofList (mark :: s.toList.flatMap (escape mark) ++ [mark])

/-- The start of a text in quotes, cut off at a length, which may drop the
    closing quote or cut an escaped character in two. -/
def quotedStart (length : Nat) (s : String) : String :=
  String.ofList ((quoted s).toList.take length)

end Text

end IceFigures
