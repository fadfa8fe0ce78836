import IceFigures.Skater

/-!
# Footwork

How a skater steps onto the first edge of a move: onto the other foot beside
the old one, crossing it in front or behind, or wide of it. Footwork moves the
skater sideways by the gap between the feet and never turns.

## Main definitions

* `Footwork`: The ways of stepping onto a code.
* `Footwork.mark`: How a way of stepping is written before the code.
* `footChange`: The sideways distance between two feet.
* `Footwork.effect`: The effect of stepping from one code onto another.
-/

namespace IceFigures

/-- The ways of stepping onto a code. -/
inductive Footwork
  | normal
  | crossFront
  | crossBehind
  | wide
deriving DecidableEq

namespace Footwork

/-- How the footwork is written before the code. -/
def mark : Footwork → List Char
  | normal => []
  | crossFront => ['x', 'f', '-']
  | crossBehind => ['x', 'b', '-']
  | wide => ['w', 'd', '-']

/-- What the diagram shows beside the first edge, if anything. -/
def label? : Footwork → Option String
  | normal => none
  | crossFront => some "xf"
  | crossBehind => some "xb"
  | wide => some "wd"

/-- The footwork at the start of a text and what follows it. -/
def read : List Char → Footwork × List Char
  | 'x' :: 'f' :: '-' :: cs => (crossFront, cs)
  | 'x' :: 'b' :: '-' :: cs => (crossBehind, cs)
  | 'w' :: 'd' :: '-' :: cs => (wide, cs)
  | cs => (normal, cs)

end Footwork

/-- The sideways distance between two feet, positive to the skater's left. -/
def footChange : Foot → Foot → Int
  | .left, .right => -36
  | .left, .both => -18
  | .right, .left => 36
  | .right, .both => 18
  | _, _ => 0

/-- How far a crossing foot lands beyond the other, sideways and forward. -/
def crossing : Int := 18

namespace Footwork

/-- The displacement of stepping from one code onto another. -/
def delta (kind : Footwork) (before after : Code) : Point :=
  let shift := footChange before.foot after.foot
  -- The free foot crosses over, landing on the far side.
  let side := if shift < 0 then crossing else -crossing
  let ahead := crossing * before.travel.sign
  match kind with
  | normal => { x := shift, y := 0 }
  | wide => { x := 2 * shift, y := 0 }
  | crossFront => if shift = 0 then { x := 0, y := 0 } else { x := side, y := ahead }
  | crossBehind => if shift = 0 then { x := 0, y := 0 } else { x := side, y := -ahead }

/-- The effect of stepping from one code onto another. -/
def effect (kind : Footwork) (before after : Code) : Effect :=
  .relative (kind.delta before after) 0 (some after)

end Footwork

end IceFigures
