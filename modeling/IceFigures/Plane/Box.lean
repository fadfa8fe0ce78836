import IceFigures.Number.Hypotenuse
import IceFigures.Plane.Point

/-!
# Boxes

Axis-aligned boxes around parts of a diagram. A box starts at a point and grows
to take in more points or other boxes.

## Main definitions

* `Box`: A box given by its top left and bottom right corners.
* `Box.ofPoint`: The box of a single point.
* `Box.cover`: The least larger box that takes in a point.
* `Box.union`: The least larger box that takes in the corners of another.
* `Box.withMargin`: The box with a margin on every side.

## Theorems

* `Box.has_cover`: A grown box takes in the point.
* `Box.has_cover_of_has`: A grown box keeps what it had.
-/

namespace IceFigures

/-- A box given by its top left and bottom right corners. -/
@[ext]
structure Box where
  topLeft : Point
  bottomRight : Point
deriving DecidableEq

namespace Box

/-- The box of a single point. -/
def ofPoint (p : Point) : Box :=
  { topLeft := p, bottomRight := p }

/-- Extent from left to right. -/
def width (b : Box) : Int :=
  b.bottomRight.x - b.topLeft.x

/-- Extent from top to bottom. -/
def height (b : Box) : Int :=
  b.bottomRight.y - b.topLeft.y

/-- The middle of the box, rounded up the page and to the left. -/
def middle (b : Box) : Point :=
  { x := (b.topLeft.x + b.bottomRight.x) / 2, y := (b.topLeft.y + b.bottomRight.y) / 2 }

/-- The length of the diagonal. -/
def diagonal (b : Box) : Float :=
  Number.hypotenuse (Number.double b.width) (Number.double b.height)

/-- Whether the diagonal is shorter than a whole length. -/
def shorterThan (b : Box) (limit : Nat) : Bool :=
  decide (b.width * b.width + b.height * b.height < (limit * limit : Nat))

/-- The least larger box that takes in a point. -/
def cover (b : Box) (p : Point) : Box :=
  { topLeft := { x := min b.topLeft.x p.x, y := min b.topLeft.y p.y }
    bottomRight := { x := max b.bottomRight.x p.x, y := max b.bottomRight.y p.y } }

/-- The least larger box that takes in the corners of another. -/
def union (b c : Box) : Box :=
  (b.cover c.topLeft).cover c.bottomRight

/-- The box with a margin on every side. -/
def withMargin (b : Box) (mx my : Int) : Box :=
  { topLeft := { x := b.topLeft.x - mx, y := b.topLeft.y - my }
    bottomRight := { x := b.bottomRight.x + mx, y := b.bottomRight.y + my } }

/-- The union of the boxes that are there, if any is. -/
def unionAll (boxes : List (Option Box)) : Option Box :=
  boxes.foldl (fun sofar next => sofar.merge union next) none

/-- The box as messages show it. -/
def text (b : Box) : String :=
  b.topLeft.text ++ "->" ++ b.bottomRight.text

/-- A point lies in the box. -/
def Has (b : Box) (p : Point) : Prop :=
  b.topLeft.x ≤ p.x ∧ p.x ≤ b.bottomRight.x ∧ b.topLeft.y ≤ p.y ∧ p.y ≤ b.bottomRight.y

theorem has_cover (b : Box) (p : Point) : (b.cover p).Has p := by
  simp only [Has, cover]
  omega

theorem has_cover_of_has {b : Box} {p : Point} (q : Point) (h : b.Has p) : (b.cover q).Has p := by
  simp only [Has, cover] at h ⊢
  omega

end Box

end IceFigures
