import IceFigures.Figure.Kind
import IceFigures.Part

/-!
# Layouts of Figures

How each figure is put together from parts. A layout is computed from the entry
code and the parameters alone, whether or not they make sense together; whether
the parts can be skated is asked of them afterwards.

The arcs of an entry or exit are split around a cusp by fixed shares of length
and angle, always so that the shares add up to the whole. Parts that go
unlabelled carry a blank for a label, since an empty one would show the code.

A figure hands its place on to each part that it is put together from. The bare
parts are those of a layout without a place.

## Main definitions

* `TwoPart`: The parameters of a figure with an entry and an exit.
* `Turn.layout`, `FootChange.layout`, `changeOfEdgeLayout`, `loopLayout`: Layouts
  with an entry and an exit.
* `Twist`: The parameters of a twizzle.
* `twizzleLayout`: The layout of a twizzle.
* `Jump.layout`: The layouts of jumps.
-/

namespace IceFigures

/-- A label that shows nothing. -/
def blankLabel : String := " "

/-! ### Figures with an entry and an exit -/

/-- The parameters of a figure with an entry part and an exit part. -/
structure TwoPart where
  angle1 : Int
  len1 : Int
  angle2 : Int
  len2 : Int
  style : String
  transitionLabel : String
  label1 : String
  label2 : String
  labelOffset : Int

namespace TwoPart

/-- The entry and exit that parameters describe. -/
def ofParams (ps : List Param) : TwoPart where
  angle1 := Param.number ps "angle"
  len1 := Param.number ps "len"
  angle2 := Param.number ps "angle" + Param.number ps "delta-angle"
  len2 := Param.number ps "len" + Param.number ps "delta-len"
  style := Param.text ps "style"
  transitionLabel := Param.text ps "transition-label"
  label1 := Param.text ps "label1"
  label2 := Param.text ps "label2"
  labelOffset := Param.number ps "label-offset"

/-- The first arc, with the labels of the entry. -/
def entry (v : TwoPart) (footwork : Footwork) (code : Code) (angle length : Int)
    (label : String) : Part :=
  .curve
    { code := code, angle := angle, length := length, label := label, style := v.style,
      transitionLabel := v.transitionLabel, labelOffset := v.labelOffset, footwork := footwork }

/-- An arc without a label. -/
def plain (v : TwoPart) (code : Code) (angle length : Int) : Part :=
  .curve { code := code, angle := angle, length := length, label := blankLabel, style := v.style }

/-- A flat between two edges. -/
def flat (v : TwoPart) (code : Code) (length : Int) (label : String) : Part :=
  .straight
    { code := { code with edge := .flat }, length := length, label := label, style := v.style }

/-- The last arc, with the label of the exit. -/
def exit (v : TwoPart) (code : Code) (angle length : Int) (label : String) : Part :=
  .curve
    { code := code, angle := angle, length := length, label := label, style := v.style,
      labelOffset := v.labelOffset }

end TwoPart

/-- The three quarters of a length that lie away from a cusp. -/
def threeQuarters (length : Int) : Int :=
  length * 75 / 100

/-- The share of a length on the longer side of a rocker or counter. -/
def longShare (length : Int) : Int :=
  length * 85 / 100

/-- The share of an angle that is turned right at a cusp. -/
def cuspShare (angle : Int) : Int :=
  angle * 60 / 100

/-- The rotation across the cusp of a turn, before its sign. -/
def cuspRotation : Int := 135

/-- The angle of the tight arc into or out of a bracket, rocker or counter. -/
def lobeAngle : Int := 80

/-- A step across a cusp: a rotation onto another code. -/
def cusp (rotation : Int) (code : Code) : Part :=
  .shift { rotation := rotation, code := some code }

/-- The name of a turn beside its cusp. -/
def cuspLabel (text : String) : Part :=
  .label { text := text, forward := 40 }

/-- A code with a figure's suffix, which labels the figure. -/
def codeWithSuffix (code : Code) (suffix : List Char) : String :=
  String.ofList (code.letters ++ suffix)

namespace Turn

/-- Onto the reverse code, with the cusp into the curve. -/
def threeLayout (place : Option Place) (v : TwoPart) (footwork : Footwork) (c : Code) :
    List PlacedPart :=
  let out := c.reversed
  let near1 := cuspShare v.angle1
  let near2 := cuspShare v.angle2
  let far1 := threeQuarters v.len1
  let far2 := threeQuarters v.len2
  let name := firstNonempty v.label1 (codeWithSuffix c three.suffix)
  [⟨v.entry footwork c (v.angle1 - near1) far1 name, place⟩,
   ⟨v.plain c near1 (v.len1 - far1), place⟩,
   ⟨cusp (-c.turn * cuspRotation) out, place⟩,
   ⟨v.plain out near2 (v.len2 - far2), place⟩,
   ⟨v.exit out (v.angle2 - near2) far2 v.label2, place⟩]

/-- The length of the flats of a bracket. -/
def bracketFlat : Int := 40

/-- Onto the reverse code, with the cusp out of the curve. -/
def bracketLayout (place : Option Place) (v : TwoPart) (footwork : Footwork) (c : Code) :
    List PlacedPart :=
  let inner := { c with edge := c.edge.opposite }
  let outer := { c with travel := c.travel.opposite }
  let far1 := threeQuarters v.len1
  let far2 := threeQuarters v.len2
  [⟨v.entry footwork c v.angle1 far1 (firstNonempty v.label1 c.text), place⟩,
   ⟨v.flat c bracketFlat blankLabel, place⟩,
   ⟨v.plain inner lobeAngle (v.len1 - far1 - bracketFlat), place⟩,
   ⟨cuspLabel "Br", place⟩,
   ⟨cusp (c.turn * cuspRotation) outer, place⟩,
   ⟨v.plain outer lobeAngle (v.len2 - far2 - bracketFlat), place⟩,
   ⟨v.flat outer bracketFlat blankLabel, place⟩,
   ⟨v.exit c.reversed v.angle2 far2 v.label2, place⟩]

/-- The length of the flat of a rocker or counter. -/
def rockerFlat : Int := 20

/-- Onto the other direction on the same edge, with the cusp into the curve. -/
def rockerLayout (place : Option Place) (v : TwoPart) (footwork : Footwork) (c : Code) :
    List PlacedPart :=
  let out := { c with travel := c.travel.opposite }
  let far1 := longShare v.len1
  let far2 := threeQuarters v.len2
  [⟨v.entry footwork c v.angle1 far1 v.label1, place⟩,
   ⟨v.plain c lobeAngle (v.len1 - far1), place⟩,
   ⟨cuspLabel "Rk", place⟩,
   ⟨cusp (-c.turn * cuspRotation) c.reversed, place⟩,
   ⟨v.plain c.reversed lobeAngle (v.len2 - far2 - rockerFlat), place⟩,
   ⟨v.flat out rockerFlat blankLabel, place⟩,
   ⟨v.exit out v.angle2 far2 v.label2, place⟩]

/-- Onto the other direction on the same edge, with the cusp out of the curve. -/
def counterLayout (place : Option Place) (v : TwoPart) (footwork : Footwork) (c : Code) :
    List PlacedPart :=
  let inner := { c with edge := c.edge.opposite }
  let out := { c with travel := c.travel.opposite }
  let far1 := threeQuarters v.len1
  let far2 := longShare v.len2
  let name := firstNonempty v.label1 (codeWithSuffix c counter.suffix)
  [⟨v.entry footwork c v.angle1 far1 name, place⟩,
   ⟨v.flat c rockerFlat blankLabel, place⟩,
   ⟨v.plain inner lobeAngle (v.len1 - far1 - rockerFlat), place⟩,
   ⟨cuspLabel "Ctr", place⟩,
   ⟨cusp (c.turn * cuspRotation) out, place⟩,
   ⟨v.plain out lobeAngle (v.len2 - far2), place⟩,
   ⟨v.exit out v.angle2 far2 v.label2, place⟩]

/-- The layout of a turn. -/
def layout : Turn → Option Place → TwoPart → Footwork → Code → List PlacedPart
  | three => threeLayout
  | bracket => bracketLayout
  | rocker => rockerLayout
  | counter => counterLayout

/-- The parts of a turn. -/
def parts (t : Turn) (v : TwoPart) (footwork : Footwork) (c : Code) : List Part :=
  (t.layout none v footwork c).map PlacedPart.part

end Turn

namespace FootChange

/-- The code of the exit: mohawks keep the edge and choctaws change it. -/
def out (f : FootChange) (c : Code) : Code :=
  let other := { c with foot := c.foot.opposite, travel := c.travel.opposite }
  match f with
  | openMohawk | closedMohawk => other
  | openChoctaw | closedChoctaw => { other with edge := c.edge.opposite }

/-- The name of the step and the step itself, onto a code. -/
def stepLayout (place : Option Place) : FootChange → Int → Code → List PlacedPart
  | openMohawk, side, out =>
    [⟨.label { text := "OpMo", forward := 30, side := 70 * side }, place⟩,
     ⟨.shift { side := 80 * side, forward := -65, rotation := 90 * side, code := some out }, place⟩]
  | closedMohawk, side, out =>
    [⟨.label { text := "ClMo", side := 60 * side }, place⟩,
     ⟨.shift { side := 30 * side, forward := -30, code := some out }, place⟩]
  | openChoctaw, side, out =>
    [⟨.label { text := "OpCho", forward := 10, side := 80 * side }, place⟩,
     ⟨.shift { side := 40 * side, code := some out }, place⟩]
  | closedChoctaw, side, out =>
    [⟨.label { text := "ClCho", side := 60 * side }, place⟩,
     ⟨.shift { side := 30 * side, forward := -30, code := some out }, place⟩]

/-- The layout of a change of foot. -/
def layout (f : FootChange) (place : Option Place) (v : TwoPart) (footwork : Footwork)
    (side : Int) (c : Code) : List PlacedPart :=
  ⟨v.entry footwork c v.angle1 v.len1 v.label1, place⟩ ::
    (f.stepLayout place side (f.out c) ++ [⟨v.exit (f.out c) v.angle2 v.len2 v.label2, place⟩])

/-- The parts of a step onto a code. -/
def step (f : FootChange) (side : Int) (out : Code) : List Part :=
  (f.stepLayout none side out).map PlacedPart.part

/-- The parts of a change of foot. -/
def parts (f : FootChange) (v : TwoPart) (footwork : Footwork) (side : Int) (c : Code) :
    List Part :=
  (f.layout none v footwork side c).map PlacedPart.part

theorem parts_eq (f : FootChange) (v : TwoPart) (footwork : Footwork) (side : Int) (c : Code) :
    f.parts v footwork side c =
      v.entry footwork c v.angle1 v.len1 v.label1 ::
        (f.step side (f.out c) ++ [v.exit (f.out c) v.angle2 v.len2 v.label2]) := by
  rw [parts, layout, List.map_cons, List.map_append]
  rfl

end FootChange

/-- The layout of a change of edge. -/
def changeOfEdgeLayout (place : Option Place) (v : TwoPart) (flatLen : Int) (footwork : Footwork)
    (c : Code) : List PlacedPart :=
  [⟨v.entry footwork c v.angle1 v.len1 v.label1, place⟩,
   ⟨v.flat c flatLen "COE", place⟩,
   ⟨v.exit { c with edge := c.edge.opposite } v.angle2 v.len2 v.label2, place⟩]

/-- The parts of a change of edge. -/
def changeOfEdgeParts (v : TwoPart) (flatLen : Int) (footwork : Footwork) (c : Code) :
    List Part :=
  (changeOfEdgeLayout none v flatLen footwork c).map PlacedPart.part

/-- Angle and length of each arc of the loop itself, 330 degrees in all. -/
def loopArcs : List (Int × Int) :=
  [(100, 80), (130, 80), (100, 80)]

/-- The layout of a loop. -/
def loopLayout (place : Option Place) (v : TwoPart) (footwork : Footwork) (c : Code) :
    List PlacedPart :=
  ⟨v.entry footwork c v.angle1 v.len1 v.label1, place⟩ ::
    (loopArcs.map fun (angle, length) => ⟨v.plain c angle length, place⟩) ++
    [⟨v.exit c v.angle2 v.len2 (firstNonempty v.label2 blankLabel), place⟩]

/-- The parts of a loop. -/
def loopParts (v : TwoPart) (footwork : Footwork) (c : Code) : List Part :=
  (loopLayout none v footwork c).map PlacedPart.part

/-! ### Twizzles -/

/-- The parameters of a twizzle. -/
structure Twist where
  angle : Int
  len : Int
  preAngle : Int
  preLen : Int
  postAngle : Int
  postLen : Int
  style : String
  transitionLabel : String

namespace Twist

/-- The twizzle that parameters describe. -/
def ofParams (ps : List Param) : Twist where
  angle := Param.number ps "angle"
  len := Param.number ps "len"
  preAngle := Param.number ps "pre-angle"
  preLen := Param.number ps "pre-len"
  postAngle := Param.number ps "post-angle"
  postLen := Param.number ps "post-len"
  style := Param.text ps "style"
  transitionLabel := Param.text ps "transition-label"

/-- An arc of a twizzle, which has no label. -/
def arc (v : Twist) (code : Code) (angle length : Int) : Part :=
  .curve { code := code, angle := angle, length := length, label := blankLabel, style := v.style }

/-- The entry curve, with the footwork onto it. -/
def entry (v : Twist) (footwork : Footwork) (code : Code) : Part :=
  .curve
    { code := code, angle := v.preAngle, length := v.preLen, label := blankLabel,
      style := v.style, transitionLabel := v.transitionLabel, footwork := footwork }

/-- The arc of a half-turn away from its cusp. -/
def far (v : Twist) (code : Code) : Part :=
  v.arc code (v.angle - cuspShare v.angle) (threeQuarters v.len)

/-- The arc of a half-turn at its cusp. -/
def near (v : Twist) (code : Code) : Part :=
  v.arc code (cuspShare v.angle) (v.len - threeQuarters v.len)

/-- One half-turn from a code onto its reverse. The label of the whole twizzle
    stands in the middle: before the cusp of the middle half-turn, or after the
    half-turn that ends the first half. -/
def halfTurnLayout (v : Twist) (place : Option Place) (label : String) (total index : Nat)
    (c : Code) : List PlacedPart :=
  let before : List PlacedPart :=
    if total % 2 = 1 ∧ index = total / 2 then
      [⟨.label { text := label, forward := 100, side := 30 }, place⟩]
    else []
  let after : List PlacedPart :=
    if total % 2 = 0 ∧ index = (total - 1) / 2 then
      [⟨.label { text := label, side := 100 }, place⟩]
    else []
  [⟨v.far c, place⟩, ⟨v.near c, place⟩] ++ before ++
    [⟨cusp (-c.turn * 2 * v.angle) c.reversed, place⟩] ++
    [⟨v.near c.reversed, place⟩, ⟨v.far c.reversed, place⟩] ++ after

/-- Half-turns in a row, the first of them being number `index` of `total`. -/
def halfTurnsLayout (v : Twist) (place : Option Place) (label : String) (total : Nat) :
    Nat → Nat → Code → List PlacedPart
  | 0, _, _ => []
  | rest + 1, index, c =>
    v.halfTurnLayout place label total index c ++
      halfTurnsLayout v place label total rest (index + 1) c.reversed

/-- The parts of a half-turn. -/
def halfTurn (v : Twist) (label : String) (total index : Nat) (c : Code) : List Part :=
  (v.halfTurnLayout none label total index c).map PlacedPart.part

/-- The parts of half-turns in a row. -/
def halfTurns (v : Twist) (label : String) (total rest index : Nat) (c : Code) : List Part :=
  (v.halfTurnsLayout none label total rest index c).map PlacedPart.part

theorem halfTurns_zero (v : Twist) (label : String) (total index : Nat) (c : Code) :
    v.halfTurns label total 0 index c = [] := rfl

theorem halfTurns_succ (v : Twist) (label : String) (total rest index : Nat) (c : Code) :
    v.halfTurns label total (rest + 1) index c =
      v.halfTurn label total index c ++ v.halfTurns label total rest (index + 1) c.reversed :=
  List.map_append

end Twist

/-- The code after a number of half-turns. -/
def afterHalfTurns (n : Nat) (c : Code) : Code :=
  if n % 2 = 0 then c else c.reversed

/-- The layout of a twizzle: an entry curve, the half-turns and an exit curve. -/
def twizzleLayout (place : Option Place) (v : Twist) (halfTurns : Int) (footwork : Footwork)
    (c : Code) : List PlacedPart :=
  let n := halfTurns.toNat
  let label := codeWithSuffix c (twizzleMark ++ turnsText halfTurns)
  ⟨v.entry footwork c, place⟩ ::
    v.halfTurnsLayout place label n n 0 c ++
      [⟨v.arc (afterHalfTurns n c) v.postAngle v.postLen, place⟩]

/-- The parts of a twizzle. -/
def twizzleParts (v : Twist) (halfTurns : Int) (footwork : Footwork) (c : Code) : List Part :=
  (twizzleLayout none v halfTurns footwork c).map PlacedPart.part

theorem twizzleParts_eq (v : Twist) (halfTurns : Int) (footwork : Footwork) (c : Code) :
    twizzleParts v halfTurns footwork c =
      v.entry footwork c ::
        v.halfTurns (codeWithSuffix c (twizzleMark ++ turnsText halfTurns)) halfTurns.toNat
          halfTurns.toNat 0 c ++
        [v.arc (afterHalfTurns halfTurns.toNat c) v.postAngle v.postLen] := by
  rw [twizzleParts, twizzleLayout, List.map_append, List.map_cons]
  rfl

/-! ### Jumps -/

/-- The parameters of a jump. -/
structure Leap where
  entryAngle : Int
  entryLen : Int
  exitAngle : Int
  exitLen : Int
  style : String
  jumpLabel : String
  labelOffset : Int

namespace Leap

/-- The jump that parameters describe. -/
def ofParams (ps : List Param) : Leap where
  entryAngle := Param.number ps "entry-angle"
  entryLen := Param.number ps "entry-len"
  exitAngle := Param.number ps "exit-angle"
  exitLen := Param.number ps "exit-len"
  style := Param.text ps "style"
  jumpLabel := Param.text ps "jump-label"
  labelOffset := Param.number ps "label-offset"

/-- The first arc of the entry. -/
def entry (v : Leap) (footwork : Footwork) (c : Code) (angle length : Int) : Part :=
  .curve
    { code := c, angle := angle, length := length, style := v.style,
      labelOffset := v.labelOffset, footwork := footwork }

/-- A later arc of the entry, which has no label. -/
def plain (v : Leap) (c : Code) (angle length : Int) : Part :=
  .curve { code := c, angle := angle, length := length, label := blankLabel, style := v.style }

/-- The spot where the skater leaves the ice. -/
def takeOff (v : Leap) (foot : Foot) (text : String) : Part :=
  .hop
    { code := { foot := foot, travel := .backward }, label := firstNonempty v.jumpLabel text }

/-- The backward outside edge of the landing. -/
def landing (v : Leap) (foot : Foot) : Part :=
  .curve
    { code := { foot := foot, travel := .backward, edge := .outside }, angle := v.exitAngle,
      length := v.exitLen, style := v.style, labelOffset := v.labelOffset }

/-- The entry of a jump off a tightening edge: for each share of angle (in
    thirds) and of length an arc, the first of them labelled. -/
def tighteningLayout (v : Leap) (place : Option Place) (footwork : Footwork) (c : Code) :
    List (Int × Int) → List PlacedPart
  | [] => []
  | (thirds, divisor) :: rest =>
    ⟨v.entry footwork c (thirds * v.entryAngle / 3) (v.entryLen / divisor), place⟩ ::
      rest.map fun (thirds, divisor) =>
        ⟨v.plain c (thirds * v.entryAngle / 3) (v.entryLen / divisor), place⟩

/-- The arcs of a tightening entry. -/
def tightening (v : Leap) (footwork : Footwork) (c : Code) (arcs : List (Int × Int)) : List Part :=
  (v.tighteningLayout none footwork c arcs).map PlacedPart.part

theorem tightening_cons (v : Leap) (footwork : Footwork) (c : Code) (thirds divisor : Int)
    (rest : List (Int × Int)) :
    v.tightening footwork c ((thirds, divisor) :: rest) =
      v.entry footwork c (thirds * v.entryAngle / 3) (v.entryLen / divisor) ::
        rest.map fun (thirds, divisor) =>
          v.plain c (thirds * v.entryAngle / 3) (v.entryLen / divisor) := by
  rw [tightening, tighteningLayout, List.map_cons, List.map_map]
  rfl

end Leap

namespace Jump

/-- Thirds of the angle and divisor of the length of each arc of a tightening
    entry. -/
def arcs : Jump → List (Int × Int)
  | axel => [(2, 2), (3, 3), (5, 6)]
  | _ => [(2, 2), (3, 3), (5, 6), (7, 12)]

/-- The distances of a jump off the toe: from the entry to the toe pick, and
    from there to the landing. -/
def pick : Jump → Point × Point
  | lutz => ({ x := 50, y := 50 }, { x := -50, y := 100 })
  | _ => ({ x := 100, y := 50 }, { x := -50, y := 150 })

/-- Whether a jump is taken off the toe of the free foot. -/
def isToeJump : Jump → Bool
  | toeLoop | flip | lutz => true
  | salchow | loop | axel => false

/-- The foot that leaves the ice last in the usual sense of rotation. -/
def takeOffFoot : Jump → Foot
  | salchow => .left
  | _ => .right

/-- A foot, or the other one in a mirrored jump. -/
def footFor (sense : Int) (foot : Foot) : Foot :=
  if sense = 1 then foot else foot.opposite

/-- The layout of a jump. -/
def layout (j : Jump) (place : Option Place) (v : Leap) (rotations : Int) (footwork : Footwork)
    (sense : Int) (c : Code) : List PlacedPart :=
  let takeOff := v.takeOff (footFor sense j.takeOffFoot) (String.ofList (jumpText j rotations))
  let landing := v.landing (footFor sense .right)
  if j.isToeJump then
    let (toPick, fromPick) := j.pick
    [⟨v.entry footwork c v.entryAngle v.entryLen, place⟩,
     ⟨.shift { side := sense * toPick.x, forward := toPick.y }, place⟩,
     ⟨takeOff, place⟩,
     ⟨.shift { side := sense * fromPick.x, forward := fromPick.y }, place⟩,
     ⟨landing, place⟩]
  else
    v.tighteningLayout place footwork c j.arcs ++
      [⟨takeOff, place⟩,
       ⟨.shift { side := -200 * sense, forward := -150, rotation := 120 * sense }, place⟩,
       ⟨landing, place⟩]

/-- The parts of a jump. -/
def parts (j : Jump) (v : Leap) (rotations : Int) (footwork : Footwork) (sense : Int)
    (c : Code) : List Part :=
  (j.layout none v rotations footwork sense c).map PlacedPart.part

end Jump

end IceFigures
