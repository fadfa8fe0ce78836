import IceFigures.Text.Blank

/-!
# Numerals

Counts, durations and numbers are written in decimal digits of any script.
The digits of a script are ten consecutive code points starting at its zero, so
the whole class is the table of the zeros, and the value of a digit is its
distance from the zero of its script.

Numbers are printed in ASCII digits. No number may be read from or written in
more than `maxDigits` digits, leading zeros included.

## Main definitions

* `digitValue?`: The value of a decimal digit of any script.
* `isDigit`: Whether a character is a decimal digit of any script.
* `ofDigits`: The number that a run of digits stands for.
* `decimal`: A whole number in ASCII digits, with a minus sign if negative.
* `signed`: The same with a plus sign if not negative.
* `maxDigits`, `isWritable`: How long a number may be.
* `readDigits?`: A leading run of digits and what follows it.
* `isPadding`: Whether a character may pad a number.
* `NoInteger`: Why a text is not read as an integer.
* `readInteger`: A whole text read as one integer.
-/

namespace IceFigures

namespace Text

/-- The zeros of the decimal digits of every script. -/
def digitZeros : List Nat :=
  [0x0030, 0x0660, 0x06F0, 0x07C0, 0x0966, 0x09E6, 0x0A66, 0x0AE6, 0x0B66, 0x0BE6, 0x0C66, 0x0CE6,
   0x0D66, 0x0DE6, 0x0E50, 0x0ED0, 0x0F20, 0x1040, 0x1090, 0x17E0, 0x1810, 0x1946, 0x19D0, 0x1A80,
   0x1A90, 0x1B50, 0x1BB0, 0x1C40, 0x1C50, 0xA620, 0xA8D0, 0xA900, 0xA9D0, 0xA9F0, 0xAA50, 0xABF0,
   0xFF10, 0x104A0, 0x10D30, 0x11066, 0x110F0, 0x11136, 0x111D0, 0x112F0, 0x11450, 0x114D0,
   0x11650, 0x116C0, 0x11730, 0x118E0, 0x11950, 0x11C50, 0x11D50, 0x11DA0, 0x16A60, 0x16AC0,
   0x16B50, 0x1D7CE, 0x1D7D8, 0x1D7E2, 0x1D7EC, 0x1D7F6, 0x1E140, 0x1E2F0, 0x1E950, 0x1FBF0]

/-- The value of a decimal digit of any script. -/
def digitValue? (c : Char) : Option Nat :=
  if 0x30 ≤ c.toNat && c.toNat ≤ 0x39 then some (c.toNat - 0x30)
  else (digitZeros.find? fun z => z ≤ c.toNat && c.toNat ≤ z + 9).map (c.toNat - ·)

/-- Whether a character is a decimal digit of any script. -/
def isDigit (c : Char) : Bool :=
  (digitValue? c).isSome

/-- Whether a character is an ASCII digit. -/
def isAsciiDigit (c : Char) : Bool :=
  c.isDigit

/-- The number that a run of digits stands for, most significant digit first. -/
def ofDigits (cs : List Char) : Nat :=
  cs.foldl (fun n c => 10 * n + (digitValue? c).getD 0) 0

/-- A whole number in ASCII digits, with a minus sign if negative. -/
def decimal : Int → List Char
  | .ofNat n => Nat.toDigits 10 n
  | .negSucc n => '-' :: Nat.toDigits 10 (n + 1)

/-- A whole number in ASCII digits, always with its sign. -/
def signed (n : Int) : List Char :=
  if n < 0 then decimal n else '+' :: decimal n

/-- The most digits that a number may be read from or written in. -/
def maxDigits : Nat := 4300

/-- Whether a number is short enough to be written. -/
def isWritable (n : Int) : Bool :=
  (Nat.toDigits 10 n.natAbs).length ≤ maxDigits

/-- A number in lower-case hexadecimal digits. -/
def hexadecimal (n : Nat) : List Char :=
  Nat.toDigits 16 n

/-- A non-empty leading run of digits and what follows it. -/
def readDigits? (cs : List Char) : Option (List Char × List Char) :=
  if (cs.takeWhile isDigit).isEmpty then none
  else some (cs.takeWhile isDigit, cs.dropWhile isDigit)

/-- Digits in which single underscores may stand between two digits. -/
def readGrouped? : List Char → Option (List Char)
  | [] => none
  | [c] => if isDigit c then some [c] else none
  | c :: '_' :: cs => if isDigit c then (readGrouped? cs).map (c :: ·) else none
  | c :: d :: cs => if isDigit c then (readGrouped? (d :: cs)).map (c :: ·) else none

/-- Whether a character may pad a number: any blank but the information
    separators. -/
def isPadding (c : Char) : Bool :=
  isBlank c && !informationSeparators.has c

/-- Why a text is not read as an integer. -/
inductive NoInteger
  | malformed
  | tooLong (digits : Nat)
deriving DecidableEq

/-- Whether a character may stand among the digits of a whole text. -/
def isGroupedChar (c : Char) : Bool :=
  isDigit c || c = '_'

/-- The number that digits stand for which only padding may follow. Their count
    is looked at before what follows them. -/
def readPadded (cs : List Char) : Except NoInteger Nat :=
  match readGrouped? (cs.takeWhile isGroupedChar) with
  | none => .error .malformed
  | some digits =>
    if maxDigits < digits.length then .error (.tooLong digits.length)
    else if (cs.dropWhile isGroupedChar).all isPadding then .ok (ofDigits digits)
    else .error .malformed

/-- A whole text read as one integer: padding at the ends, a sign and single
    underscores between digits are allowed. -/
def readInteger (cs : List Char) : Except NoInteger Int :=
  match cs.dropWhile isPadding with
  | '+' :: r => (readPadded r).map fun n => (n : Int)
  | '-' :: r => (readPadded r).map fun n => -(n : Int)
  | r => (readPadded r).map fun n => (n : Int)

end Text

end IceFigures
