import IceFigures.Text.Numeral

/-!
# Binary Numbers

Lengths along an arc are computed in binary floating point. What is kept of
them is decided exactly: a finite double is a whole number times a power of
two, so truncating it, rounding it to the nearest whole number and printing it
with a fixed number of decimals are all integer arithmetic.

Halves go to the even neighbour, both when a coordinate is rounded and when a
number is printed.

## Main definitions

* `divEven`: A quotient rounded to the nearest whole number, halves to even.
* `Binary`: A number `mantissa * 2 ^ exponent`.
* `Binary.ofFloat`: The exact value of a finite double.
* `Binary.truncate`: The whole part, towards zero.
* `Binary.nearest`: The nearest whole number, halves to even.
* `Binary.fixed`: The number with a fixed count of decimals.
* `double`: The double nearest to a whole number.
-/

namespace IceFigures

namespace Number

/-- The quotient rounded to the nearest whole number, halves to even. -/
def divEven (num : Int) (den : Nat) : Int :=
  let q := num / den
  let r := num % den
  if 2 * r < den then q
  else if 2 * r > den then q + 1
  else if q % 2 = 0 then q else q + 1

/-- A number `mantissa * 2 ^ exponent`. -/
structure Binary where
  mantissa : Int
  exponent : Int

namespace Binary

/-- The exact value of a finite double. -/
def ofFloat (x : Float) : Binary :=
  let bits : Nat := x.toBits.toNat
  let raised : Nat := bits / Nat.pow 2 52 % 2048
  let field : Nat := bits % Nat.pow 2 52
  let size : Int := if raised = 0 then field else Nat.pow 2 52 + field
  { mantissa := if bits < Nat.pow 2 63 then size else -size
    exponent := (if raised = 0 then 1 else raised : Int) - 1075 }

/-- Numerator of the number as a fraction over `denominator`. -/
def numerator (b : Binary) : Int :=
  b.mantissa * Nat.pow 2 b.exponent.toNat

/-- The power of two under the number written as a fraction. -/
def denominator (b : Binary) : Nat :=
  Nat.pow 2 (-b.exponent).toNat

/-- The whole part, towards zero. -/
def truncate (b : Binary) : Int :=
  b.numerator.tdiv b.denominator

/-- The nearest whole number, halves to even. -/
def nearest (b : Binary) : Int :=
  divEven b.numerator b.denominator

/-- The number with a fixed count of decimals, halves to even. A number beyond
    all finite doubles is infinite. -/
def fixed (places : Nat) (b : Binary) : String :=
  if Nat.pow 2 1024 ≤ b.truncate.natAbs then if b.mantissa < 0 then "-inf" else "inf" else
  let scaled := (divEven (b.numerator.natAbs * Nat.pow 10 places : Nat) b.denominator).toNat
  let digits := Nat.toDigits 10 (scaled % Nat.pow 10 places)
  let fraction := List.replicate (places - digits.length) '0' ++ digits
  let sign := if b.mantissa < 0 then ['-'] else []
  String.ofList (sign ++ Nat.toDigits 10 (scaled / Nat.pow 10 places) ++ '.' :: fraction)

end Binary

/-- The double nearest to a whole number. -/
def double (n : Int) : Float :=
  if n < 0 then -(Float.ofScientific n.natAbs false 0) else Float.ofScientific n.natAbs false 0

/-- The double nearest to a hundredth of a whole number. -/
def percent (n : Int) : Float :=
  if n < 0 then -(Float.ofScientific n.natAbs true 2) else Float.ofScientific n.natAbs true 2

/-- The ratio of a circle's circumference to its diameter. -/
def pi : Float := 3.141592653589793

/-- An angle in degrees as an angle in radians. -/
def radians (degrees : Int) : Float :=
  double degrees * (pi / 180)

end Number

end IceFigures
