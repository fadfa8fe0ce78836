import IceFigures.Plane.Heading

/-!
# Points

Points on the ice in whole centimetres, with `y` increasing down the page. A
displacement is also a point: its `x` is the distance to the skater's left
(right on the page for a skater facing down it) and its `y` the distance
forward.

`Point.offset` turns a displacement into the frame of a heading, rounding each
coordinate to the nearest centimetre. To stay where one is needs no rounding,
and is done without.

## Main definitions

* `Point`: A point or displacement in centimetres.
* `Point.offset`: A point displaced in the frame of a heading.

## Theorems

* `Point.offset_zero`: A displacement by nothing stays at the point.
-/

namespace IceFigures

/-- A point or displacement in whole centimetres. -/
@[ext]
structure Point where
  x : Int := 0
  y : Int := 0
deriving DecidableEq

namespace Point

/-- The point where every walk begins. -/
def origin : Point :=
  { x := 0, y := 0 }

/-- Coordinates added one by one. -/
def add (p q : Point) : Point :=
  { x := p.x + q.x, y := p.y + q.y }

/-- Coordinates negated one by one. -/
def neg (p : Point) : Point :=
  { x := -p.x, y := -p.y }

instance : Add Point := ⟨add⟩

instance : Neg Point := ⟨neg⟩

/-- A displacement turned by a heading, rounded to whole centimetres. -/
def turned (h : Heading) (d : Point) : Point :=
  let cos := h.radians.cos
  let sin := h.radians.sin
  { x := (Number.Binary.ofFloat (Number.double d.x * cos - Number.double d.y * sin)).nearest
    y := (Number.Binary.ofFloat (Number.double d.x * sin + Number.double d.y * cos)).nearest }

/-- The point reached by a displacement in the frame of a heading. -/
def offset (p : Point) (h : Heading) (d : Point) : Point :=
  if d = origin then p else p + turned h d

/-- The point as messages show it. -/
def text (p : Point) : String :=
  String.ofList ('(' :: Text.decimal p.x ++ ',' :: Text.decimal p.y ++ [')'])

@[simp]
theorem offset_zero (p : Point) (h : Heading) : p.offset h origin = p :=
  if_pos rfl

end Point

end IceFigures
