import IceFigures.Passage

/-!
# Walks

The states of the skater along a sequence of steps. The walk begins at the
origin facing down the page. Its first step needs no footwork: the skater
simply stands on the code of that step. Every other step begins with footwork
onto it.

## Main definitions

* `Stage`: A step with the skater before and after it.
* `walkFrom`: The stages of steps that follow on others.
* `walk`: The stages of a whole sequence.
-/

namespace IceFigures

/-- A step with the skater before and after it. The footwork onto the step comes
    before both. -/
structure Stage where
  before : Skater
  step : Step
  after : Skater
deriving DecidableEq

namespace Stage

/-- The stage of a step that a skater is ready for. -/
def ofStep (before : Skater) (s : Step) : Stage :=
  { before := before, step := s, after := before.after s.move.effect }

/-- The box of the stage's move, if it has one. -/
def bounds? (s : Stage) : Option Box :=
  s.step.move.bounds? s.before

end Stage

/-- The stages of steps that follow on others, the skater being where those
    ended. -/
def walkFrom (skater : Skater) : List Step → List Stage
  | [] => []
  | s :: rest =>
    let stage := Stage.ofStep (skater.after (s.move.entering skater.code)) s
    stage :: walkFrom stage.after rest

/-- The skater at the beginning of a walk that starts with a move. -/
def firstSkater (m : Move) : Skater :=
  .atOrigin (m.start?.getD .start)

/-- The stages of a whole sequence. -/
def walk : List Step → List Stage
  | [] => []
  | s :: rest =>
    let stage := Stage.ofStep (firstSkater s.move) s
    stage :: walkFrom stage.after rest

end IceFigures
