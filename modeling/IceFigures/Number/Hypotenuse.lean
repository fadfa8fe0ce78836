/-!
# Hypotenuses

The length of a diagonal in binary floating point. The squares of both sides
are added up with their rounding errors kept, the root is taken, and one
correction is made by what its square leaves over. The result is nearly always
the double nearest to the length, and at most its neighbour.

Both sides are first scaled by a power of two so that the longer one lies
between a half and one, and no square can overflow. The sum starts at one,
which no term exceeds, so that the error of every addition is itself a double.

## Main definitions

* `halves`: A double as the sum of two with half as many bits.
* `CarriedSum`: A sum with its rounding errors, kept apart by size.
* `CarriedSum.addSquare`, `CarriedSum.subtractSquare`: A square added or taken
  away.
* `hypotenuse`: The diagonal of a rectangle.
-/

namespace IceFigures

namespace Number

/-- A double as the sum of two with half as many bits, whose products are
    exact. -/
def halves (x : Float) : Float × Float :=
  let spread := x * 134217729
  let high := spread - (spread - x)
  (high, x - high)

/-- A sum that starts at one, with the rounding errors of its large and middle
    terms, and with its small terms. -/
structure CarriedSum where
  total : Float := 1
  large : Float := 0
  middle : Float := 0
  small : Float := 0

/-- What is lost when a term is added to a sum that it does not exceed. -/
def additionError (sum term : Float) : Float :=
  (sum - (sum + term)) + term

namespace CarriedSum

/-- The sum with a large term added. -/
def addLarge (s : CarriedSum) (term : Float) : CarriedSum :=
  { s with total := s.total + term, large := s.large + additionError s.total term }

/-- The sum with a middle term added. -/
def addMiddle (s : CarriedSum) (term : Float) : CarriedSum :=
  { s with total := s.total + term, middle := s.middle + additionError s.total term }

/-- The sum with a small term added. -/
def addSmall (s : CarriedSum) (term : Float) : CarriedSum :=
  { s with total := s.total + term, small := s.small + additionError s.total term }

/-- The sum with a square added, whose last part is too small to change the
    total. -/
def addSquare (s : CarriedSum) (x : Float) : CarriedSum :=
  let (high, low) := halves x
  let sum := (s.addLarge (high * high)).addMiddle (2 * high * low)
  { sum with small := sum.small + low * low }

/-- The sum with a square taken away. -/
def subtractSquare (s : CarriedSum) (x : Float) : CarriedSum :=
  let (high, low) := halves x
  ((s.addLarge (-high * high)).addMiddle (-2 * high * low)).addSmall (-low * low)

/-- What has been added up. -/
def value (s : CarriedSum) : Float :=
  s.total - 1 + (s.large + s.middle + s.small)

end CarriedSum

/-- The diagonal of a rectangle. -/
def hypotenuse (width height : Float) : Float :=
  let longer := if width.abs < height.abs then height.abs else width.abs
  if longer == 0 then 0
  else
    let exponent := longer.frExp.2
    let start : CarriedSum := {}
    let sum := (start.addSquare (width.abs.scaleB (-exponent))).addSquare
      (height.abs.scaleB (-exponent))
    let root := sum.value.sqrt
    let rest := (sum.subtractSquare root).value
    (root + rest / (2 * root)).scaleB exponent

end Number

end IceFigures
