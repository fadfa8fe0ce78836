import IceFigures.Fault
import IceFigures.Profile

/-!
# Kinds of Figures

The figures of the notation: turns on one foot, steps from foot to foot, the
change of edge, the loop, twizzles and jumps. Each is written as an entry code
and a suffix of its own, and each may be skated from certain codes only.

Which of the two mirror images of a figure is skated is settled by its entry
code. `FigureKind.hand?` gives the sign that the layout is multiplied with, and
nothing for a code from which the figure cannot be skated.

## Main definitions

* `Turn`, `FootChange`, `Jump`: Families of figures.
* `FigureKind`: All kinds of figures.
* `FigureKind.suffix`: What follows the entry code.
* `FigureKind.profile`: The description of a kind.
* `FigureKind.hand?`: The sign of a layout on an entry code, if it is legal.
-/

namespace IceFigures

/-- Turns on one foot. -/
inductive Turn
  | three
  | bracket
  | rocker
  | counter
deriving DecidableEq

/-- Turns from one foot to the other. -/
inductive FootChange
  | openMohawk
  | closedMohawk
  | openChoctaw
  | closedChoctaw
deriving DecidableEq

/-- Jumps. -/
inductive Jump
  | salchow
  | toeLoop
  | loop
  | flip
  | axel
  | lutz
deriving DecidableEq

/-- Kinds of figures, with the numbers that are part of their suffix. -/
inductive FigureKind
  | turn (t : Turn)
  | footChange (f : FootChange)
  | changeOfEdge
  | loop
  | twizzle (halfTurns : Int)
  | jump (j : Jump) (rotations : Int)
deriving DecidableEq

/-! ### Suffixes -/

namespace Turn

/-- What follows the entry code of a turn. -/
def suffix : Turn → List Char
  | three => ['3']
  | bracket => ['-', 'B', 'r']
  | rocker => ['-', 'R', 'k']
  | counter => ['-', 'C', 't', 'r']

end Turn

namespace FootChange

/-- What follows the entry code of a change of foot. -/
def suffix : FootChange → List Char
  | openMohawk => ['-', 'O', 'p', 'M', 'o']
  | closedMohawk => ['-', 'C', 'l', 'M', 'o']
  | openChoctaw => ['-', 'O', 'p', 'C', 'h', 'o']
  | closedChoctaw => ['-', 'C', 'l', 'C', 'h', 'o']

end FootChange

namespace Jump

/-- The letters of a jump, which follow its number of rotations. -/
def letters : Jump → List Char
  | salchow => ['S']
  | toeLoop => ['T']
  | loop => ['L', 'o']
  | flip => ['F']
  | axel => ['A']
  | lutz => ['L', 'z']

/-- The jump whose letters start a text, and what follows them. -/
def read? (cs : List Char) : Option (Jump × List Char) :=
  [loop, lutz, salchow, toeLoop, flip, axel].findSome? fun j =>
    (List.isPrefixOf? j.letters cs).map (j, ·)

end Jump

/-- What starts the suffix of a twizzle. -/
def twizzleMark : List Char :=
  ['-', 'T', 'w']

/-- A number of half-turns in whole turns, with `.5` for an odd one. -/
def turnsText (halfTurns : Int) : List Char :=
  Text.decimal (halfTurns / 2) ++ if halfTurns % 2 = 0 then [] else ['.', '5']

/-- What a jump is labelled with: its rotations and its letters. -/
def jumpText (j : Jump) (rotations : Int) : List Char :=
  Text.decimal rotations ++ j.letters

namespace FigureKind

/-- What follows the entry code of a figure. -/
def suffix : FigureKind → List Char
  | turn t => t.suffix
  | footChange f => f.suffix
  | changeOfEdge => ['-', 'C', 'o', 'E']
  | loop => ['-', 'L', 'o', 'o', 'p']
  | twizzle halfTurns => twizzleMark ++ turnsText halfTurns
  | jump j rotations => '-' :: jumpText j rotations

end FigureKind

/-! ### Profiles -/

/-- The parameters of a figure with an entry part and an exit part. -/
def twoPartSchema (angle : Int) (angles : Option ShortCode) : Schema :=
  [.number "angle" "Angle of rotation for each curved part, in degrees" angle .positive angles,
   .number "len" "Length of each curved part in centimetres" 450 .positive
     (plusMinus 600 850 1000 300 240 100),
   .number "delta-angle" "Difference in angle for second curved part, in degrees" 0,
   .number "delta-len" "Difference in length for second curved part, in centimetres" 0,
   styleField, transitionLabelField,
   .text "label1" "Replacement entry label, used if non-empty",
   .text "label2" "Replacement exit label, used if non-empty",
   labelOffsetField]

/-- The parameters of turns on one foot and of the loop. -/
def turnSchema : Schema :=
  twoPartSchema 90 (greaterLess 100 120 140 80 70 60)

/-- The parameters of changes of foot. -/
def footChangeSchema : Schema :=
  twoPartSchema 90 (greaterLess 110 130 150 80 70 60)

/-- The parameters of the change of edge. -/
def changeOfEdgeSchema : Schema :=
  twoPartSchema 90 (greaterLess 120 180 210 60 45 30) ++
    [.number "flat-len" "Length between edges in centimetres" 50 .positive]

/-- The parameters of twizzles. -/
def twizzleSchema : Schema :=
  [.number "angle" "Angle of rotation for each curved part, in degrees" 60 .positive
     (greaterLess 70 80 90 50 40 30),
   .number "len" "Length of each curved part in centimetres" 200 .positive
     (plusMinus 300 450 600 180 100 80),
   .number "pre-len" "Length of entry curve in centimetres" 100 .positive,
   .number "pre-angle" "Angle of entry curve in degrees" 45 .positive,
   .number "post-len" "Length of exit curve in centimetres" 100 .positive,
   .number "post-angle" "Angle of exit curve in degrees" 45 .positive,
   styleField, transitionLabelField]

/-- The parameters of jumps. -/
def jumpSchema : Schema :=
  [.number "entry-angle" "Angle of rotation for entry edge, in degrees" 30 .positive
     (greaterLess 45 60 80 25 20 15),
   .number "entry-len" "Length of entry edge, in centimetres" 600 .positive
     (plusMinus 700 850 1000 450 300 200),
   .number "exit-angle" "Angle of rotation for exit edge, in degrees" 40,
   .number "exit-len" "Length of exit edge, in centimetres" 400,
   styleField,
   .text "jump-label" "Replacement jump label, used if non-empty",
   labelOffsetField]

namespace Turn

/-- The description of a turn. -/
def profile : Turn → Profile
  | three => ⟨"Three Turn", "Three turn", "LFO3", turnSchema, true⟩
  | bracket => ⟨"Bracket", "Bracket turn", "LFO-Br", turnSchema, true⟩
  | rocker => ⟨"Rocker", "Rocker turn", "LFO-Rk", turnSchema, true⟩
  | counter => ⟨"Counter", "Counter turn", "LFO-Ctr", turnSchema, true⟩

end Turn

namespace FootChange

/-- The description of a change of foot. -/
def profile : FootChange → Profile
  | openMohawk => ⟨"Open Mohawk", "Open mohawk", "LFI-OpMo", footChangeSchema, true⟩
  | closedMohawk => ⟨"Closed Mohawk", "Closed mohawk", "RBO-ClMo", footChangeSchema, true⟩
  | openChoctaw => ⟨"Open Choctaw", "Open choctaw", "LFI-OpCho", footChangeSchema, true⟩
  | closedChoctaw => ⟨"Closed Choctaw", "Closed choctaw", "RBO-ClCho", footChangeSchema, true⟩

end FootChange

namespace Jump

/-- The description of a jump. -/
def profile : Jump → Profile
  | salchow => ⟨"Salchow", "Salchow jump", "LBI-1S", jumpSchema, true⟩
  | toeLoop => ⟨"Toe Loop", "Toe Loop jump", "RBO-1T", jumpSchema, true⟩
  | loop => ⟨"Loop jump", "Loop jump", "RBO-1Lo", jumpSchema, true⟩
  | flip => ⟨"Flip", "Flip jump", "LBI-1F", jumpSchema, true⟩
  | axel => ⟨"Axel", "Axel jump", "LFO-1A", jumpSchema, true⟩
  | lutz => ⟨"Lutz", "Lutz jump", "LBO-1Lz", jumpSchema, true⟩

end Jump

namespace FigureKind

/-- The description of a figure. -/
def profile : FigureKind → Profile
  | turn t => t.profile
  | footChange f => f.profile
  | changeOfEdge => ⟨"Change of Edge", "Change of edge", "LFO-CoE", changeOfEdgeSchema, true⟩
  | loop => ⟨"Loop", "Loop figure", "RBI-Loop", turnSchema, true⟩
  | twizzle _ => ⟨"Twizzle", "Twizzle", "LFI-Tw1.5", twizzleSchema, true⟩
  | jump j _ => j.profile

end FigureKind

/-! ### Legal entries -/

namespace FootChange

/-- The side, left (`1`) or right (`-1`), to which the free foot steps. -/
def side? : FootChange → Code → Option Int
  | openMohawk, ⟨.left, .forward, .inside⟩ => some (-1)
  | openMohawk, ⟨.right, .forward, .inside⟩ => some 1
  | openChoctaw, ⟨.left, .forward, .inside⟩ => some (-1)
  | openChoctaw, ⟨.right, .forward, .inside⟩ => some 1
  | closedMohawk, ⟨.left, .backward, .outside⟩ => some (-1)
  | closedMohawk, ⟨.right, .forward, .outside⟩ => some (-1)
  | closedMohawk, ⟨.right, .backward, .outside⟩ => some 1
  | closedMohawk, ⟨.left, .forward, .outside⟩ => some 1
  | closedChoctaw, ⟨.left, .backward, .outside⟩ => some (-1)
  | closedChoctaw, ⟨.right, .backward, .outside⟩ => some 1
  | _, _ => none

end FootChange

namespace Jump

/-- The sense of rotation in the air: `1` for the usual one, widdershins, which
    lands on the right foot, and `-1` for its mirror image. -/
def sense? : Jump → Code → Option Int
  | salchow, ⟨.left, .backward, .inside⟩ => some 1
  | salchow, ⟨.right, .backward, .inside⟩ => some (-1)
  | flip, ⟨.left, .backward, .inside⟩ => some 1
  | flip, ⟨.right, .backward, .inside⟩ => some (-1)
  | toeLoop, ⟨.right, .backward, .outside⟩ => some 1
  | toeLoop, ⟨.left, .backward, .outside⟩ => some (-1)
  | loop, ⟨.right, .backward, .outside⟩ => some 1
  | loop, ⟨.left, .backward, .outside⟩ => some (-1)
  | lutz, ⟨.left, .backward, .outside⟩ => some 1
  | lutz, ⟨.right, .backward, .outside⟩ => some (-1)
  | axel, ⟨.left, .forward, .outside⟩ => some 1
  | axel, ⟨.right, .forward, .outside⟩ => some (-1)
  | _, _ => none

end Jump

namespace FigureKind

/-- The sign of the layout on an entry code, none if the code is not legal. -/
def hand? (kind : FigureKind) (entry : Code) : Option Int :=
  match kind with
  | footChange f => f.side? entry
  | jump j _ => j.sense? entry
  | _ => if entry.turn = 0 then none else some entry.turn

/-- What is wrong with the numbers of a suffix, if anything. -/
def fault? : FigureKind → Option Fault
  | twizzle halfTurns => if halfTurns < 2 then some (.tooFewHalfTurns halfTurns) else none
  | jump _ rotations =>
    if 1 ≤ rotations ∧ rotations ≤ 4 then none else some (.rotationsOutOfRange rotations)
  | _ => none

/-- Why a figure cannot be labelled with its suffix, if it cannot. -/
def labelFault? : FigureKind → Option Fault
  | twizzle halfTurns => if Text.isWritable (halfTurns / 2) then none else some .unwritable
  | _ => none

end FigureKind

end IceFigures
