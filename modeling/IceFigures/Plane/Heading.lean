import IceFigures.Number.Binary

/-!
# Headings

The way a skater faces, in whole degrees clockwise on the page, zero being down
the page. A heading is kept between 0 and 359; a rotation is any whole number
of degrees, positive clockwise.

## Main definitions

* `Heading`: A direction in degrees from 0 to 359.
* `Heading.ofDegrees`: The heading of any number of degrees.
* `Heading.rotate`: The heading after a rotation.

## Theorems

* `Heading.degrees_rotate`: Rotation adds degrees modulo 360.
* `Heading.rotate_zero`: A rotation by nothing changes nothing.
* `Heading.rotate_rotate`: Two rotations add up.
-/

namespace IceFigures

/-- A direction in degrees, from 0 to 359. -/
@[ext]
structure Heading where
  degrees : Int
  nonneg : 0 ≤ degrees
  lt : degrees < 360
deriving DecidableEq

namespace Heading

/-- The heading of any number of degrees. -/
def ofDegrees (d : Int) : Heading :=
  { degrees := d % 360
    nonneg := Int.emod_nonneg d (by decide)
    lt := Int.emod_lt_of_pos d (by decide) }

/-- Down the page. -/
def down : Heading :=
  ofDegrees 0

/-- The heading after a rotation. -/
def rotate (h : Heading) (rotation : Int) : Heading :=
  ofDegrees (h.degrees + rotation)

/-- The heading in radians. -/
def radians (h : Heading) : Float :=
  Number.radians h.degrees

/-- The heading as messages show it. -/
def text (h : Heading) : String :=
  String.ofList (Text.decimal h.degrees ++ ['°'])

@[simp]
theorem degrees_ofDegrees (d : Int) : (ofDegrees d).degrees = d % 360 := rfl

theorem ofDegrees_degrees (h : Heading) : ofDegrees h.degrees = h := by
  ext
  exact Int.emod_eq_of_lt h.nonneg h.lt

theorem degrees_rotate (h : Heading) (r : Int) :
    (h.rotate r).degrees = (h.degrees + r) % 360 := rfl

@[simp]
theorem rotate_zero (h : Heading) : h.rotate 0 = h := by
  rw [rotate, Int.add_zero, ofDegrees_degrees]

theorem rotate_rotate (h : Heading) (r s : Int) : (h.rotate r).rotate s = h.rotate (r + s) := by
  ext
  simp only [degrees_rotate]
  omega

end Heading

/-- A rotation as messages show it, always with its sign. -/
def rotationText (r : Int) : String :=
  String.ofList (Text.signed r ++ ['°'])

end IceFigures
