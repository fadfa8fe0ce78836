import IceFigures.Blade
import IceFigures.Plane.Box

/-!
# Skaters

Where a skater is, which way the skater faces and what the skater stands on,
and the effect that a move has on all three. An effect is either relative, a
displacement and a turn in the skater's own frame, or absolute, a jump straight
to a point and heading; either may also change the blade state.

## Main definitions

* `Displacement`: How an effect moves the skater.
* `Effect`: A displacement together with the code it ends on.
* `Skater`: Position, heading and blade state.
* `Skater.after`: The skater after an effect.

## Theorems

* `Skater.after_nothing`: The empty effect changes nothing.
-/

namespace IceFigures

/-- How an effect moves the skater. -/
inductive Displacement
  | relative (delta : Point) (turn : Int)
  | absolute (target : Point) (heading : Heading)
deriving DecidableEq

/-- What a move does to the skater: a displacement and the code it ends on. -/
structure Effect where
  displacement : Displacement := .relative .origin 0
  code : Option Code := none
deriving DecidableEq

namespace Effect

/-- The effect of doing nothing. -/
def nothing : Effect := {}

/-- A displacement and a turn in the skater's frame. -/
def relative (delta : Point) (turn : Int) (code : Option Code) : Effect :=
  { displacement := .relative delta turn, code := code }

/-- Whether the effect does not depend on where the skater is. -/
def isAbsolute (e : Effect) : Bool :=
  match e.displacement with
  | .relative .. => false
  | .absolute .. => true

/-- The effect as messages show it. -/
def text (e : Effect) : String :=
  let moved :=
    match e.displacement with
    | .relative delta turn => "rel " ++ delta.text ++ " " ++ rotationText turn
    | .absolute target heading => "abs " ++ target.text ++ " " ++ heading.text
  match e.code with
  | none => moved
  | some c => moved ++ " => " ++ c.text

end Effect

/-- A skater at a point of a sequence. -/
@[ext]
structure Skater where
  pos : Point
  heading : Heading
  code : Code
deriving DecidableEq

namespace Skater

/-- A skater at the origin, facing down the page. -/
def atOrigin (c : Code) : Skater :=
  { pos := .origin, heading := .down, code := c }

/-- The point reached by a displacement in the skater's frame. -/
def reach (s : Skater) (delta : Point) : Point :=
  s.pos.offset s.heading delta

/-- The skater moved by a displacement in its own frame. -/
def displaced (s : Skater) (delta : Point) : Skater :=
  { s with pos := s.reach delta }

/-- The skater after an effect. -/
def after (s : Skater) (e : Effect) : Skater :=
  match e.displacement with
  | .relative delta turn =>
    { pos := s.reach delta, heading := s.heading.rotate turn, code := e.code.getD s.code }
  | .absolute target heading =>
    { pos := target, heading := heading, code := e.code.getD s.code }

/-- The skater as messages show it. -/
def text (s : Skater) : String :=
  s.pos.text ++ " " ++ s.heading.text ++ " " ++ s.code.text

@[simp]
theorem after_nothing (s : Skater) : s.after .nothing = s := by
  ext <;> simp [after, Effect.nothing, reach]

end Skater

end IceFigures
