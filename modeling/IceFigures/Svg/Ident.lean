import IceFigures.Text.Numeral

/-!
# Element Names

A definition is named by the text of its move. Only ASCII letters and digits,
the dot and the hyphen may stand in a name as they are; every other character
becomes its code point in hexadecimal digits between underscores.

## Main definitions

* `isPlain`: Whether a character stands in a name as it is.
* `spell`: One character in a name.
* `identChars`, `ident`: The name of a text.
-/

namespace IceFigures

namespace Svg

/-- Whether a character stands in a name as it is. -/
def isPlain (c : Char) : Bool :=
  c.isAlphanum || c = '.' || c = '-'

/-- One character in a name. -/
def spell (c : Char) : List Char :=
  if isPlain c then [c] else '_' :: Text.hexadecimal c.toNat ++ ['_']

/-- The name of a text, as characters. -/
def identChars (cs : List Char) : List Char :=
  cs.flatMap spell

/-- The name of a text. -/
def ident (s : String) : String :=
  String.ofList (identChars s.toList)

end Svg

end IceFigures
