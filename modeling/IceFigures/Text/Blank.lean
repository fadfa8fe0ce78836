import IceFigures.Text.Range

/-!
# Blanks

The white space that may stand between the signs of the notation: the
characters with the Unicode property of white space, and the four information
separators 001C to 001F.

A blank is never part of what is written, so reading starts by dropping blanks
in front (`dropBlanks`) and a fragment is what is left after dropping them on
both sides (`trim`).

## Main definitions

* `isBlank`: Whether a character is white space.
* `informationSeparators`: The blanks that do not pad a number.
* `dropBlanks`: The text from its first character that is no blank.
* `dropBlanksEnd`: The text up to its last character that is no blank.
* `trim`: The text without the blanks at either end.
-/

namespace IceFigures

namespace Text

/-- The four information separators. -/
def informationSeparators : Range :=
  ⟨0x1C, 0x1F⟩

/-- The ranges of the white space characters. -/
def blankRanges : List Range :=
  [⟨0x09, 0x0D⟩, informationSeparators, ⟨0x20, 0x20⟩, ⟨0x85, 0x85⟩, ⟨0xA0, 0xA0⟩, ⟨0x1680, 0x1680⟩,
   ⟨0x2000, 0x200A⟩, ⟨0x2028, 0x2029⟩, ⟨0x202F, 0x202F⟩, ⟨0x205F, 0x205F⟩, ⟨0x3000, 0x3000⟩]

/-- Whether a character is white space. -/
def isBlank (c : Char) : Bool :=
  Range.anyHas blankRanges c

/-- The text from its first character that is no blank. -/
def dropBlanks (cs : List Char) : List Char :=
  cs.dropWhile isBlank

/-- The text up to its last character that is no blank. -/
def dropBlanksEnd (cs : List Char) : List Char :=
  (cs.reverse.dropWhile isBlank).reverse

/-- The text without the blanks at either end. -/
def trim (cs : List Char) : List Char :=
  dropBlanksEnd (dropBlanks cs)

end Text

end IceFigures
