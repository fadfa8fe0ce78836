import IceFigures.Fault
import IceFigures.Param.Codec
import IceFigures.Part.Drawing
import IceFigures.Profile

/-!
# Curves

An arc of a circle on a single edge, from which every other figure is built.
Its length and angle give the radius, and the code says to which side it
curves. In its own frame the arc starts at the origin facing forward.

Points along the arc are computed in floating point and cut off to whole
centimetres.

## Main definitions

* `Curve`: An arc on one edge.
* `Curve.fault?`: What is wrong with an arc.
* `Curve.point`: The point part of the way along the arc.
* `Curve.pointAt`: That point, unless the angle has no direction.
* `Curve.isFinite`: Whether the arc has an end.
* `Curve.effect`: Where the arc takes the skater.
* `Curve.bounds`: The box around the drawn arc.
* `Curve.labels`: The labels beside the arc.
-/

namespace IceFigures

/-- An arc of a circle on a single edge. -/
structure Curve where
  code : Code
  angle : Int := 45
  length : Int := 100
  label : String := ""
  style : String := ""
  transitionLabel : String := ""
  labelOffset : Int := -1
  footwork : Footwork := .normal
deriving DecidableEq

namespace Curve

def profile : Profile where
  name := "Edge"
  summary := "Curving edge"
  sample := "LFO"
  schema :=
    [.number "angle" "Angle of rotation from start to finish, in degrees" 45 .positive
       (greaterLess 60 90 120 30 20 10),
     lenField, labelField, styleField, transitionLabelField, labelOffsetField]

/-- What is wrong with an arc, if anything. -/
def fault? (c : Curve) : Option Fault :=
  if c.code.turn = 0 then some (.notCurving c.code)
  else if c.angle ≤ 0 then some (.unacceptable .positive (.number c.angle))
  else if c.length ≤ 0 then some (.unacceptable .positive (.number c.length))
  else none

def params (c : Curve) : List Param :=
  [⟨"angle", .number c.angle⟩, ⟨"len", .number c.length⟩, ⟨"label", .text c.label⟩,
   ⟨"style", .text c.style⟩, ⟨"transition-label", .text c.transitionLabel⟩,
   ⟨"label-offset", .number c.labelOffset⟩]

def ofParams (footwork : Footwork) (code : Code) (ps : List Param) : Curve where
  code := code
  angle := Param.number ps "angle"
  length := Param.number ps "len"
  label := Param.text ps "label"
  style := Param.text ps "style"
  transitionLabel := Param.text ps "transition-label"
  labelOffset := Param.number ps "label-offset"
  footwork := footwork

def chars (c : Curve) : List Char :=
  c.footwork.mark ++ c.code.letters ++ Schema.write profile.schema c.params

def defName (c : Curve) : String :=
  String.ofList (Svg.identChars c.chars)

def opposite (c : Curve) : Curve :=
  { c with code := c.code.opposite }

/-! ### Geometry -/

/-- The radius of the circle: the arc is as much of it as its angle is of a
    full turn. -/
def radius (c : Curve) : Float :=
  Number.double (c.length * 180) / (Number.double c.angle * Number.pi)

/-- The angle covered part of the way along the arc, in radians. -/
def covered (c : Curve) (percent : Int) : Float :=
  Number.radians c.angle * Number.double percent / 100

/-- The point part of the way along the arc, in percent. -/
def point (c : Curve) (percent : Int) : Point :=
  let r := c.radius
  let theta := c.covered percent
  let x := if c.code.turn = 1 then r * theta.cos - r else r - r * theta.cos
  { x := (Number.Binary.ofFloat x).truncate
    y := (Number.Binary.ofFloat (r * theta.sin)).truncate }

/-- The point any part of the way along the arc. Beyond all numbers an angle has
    no direction, and there is no point. -/
def pointAt (c : Curve) (percent : Int) : Except Fault Point :=
  if (c.covered percent).isInf then .error .unboundedAngle else .ok (c.point percent)

/-- The largest angle of an arc with an end. A hundred times the radians of the next
    one are beyond all numbers. -/
def maxAngle : Int :=
  Nat.shiftLeft 10321490050600785 970

/-- Whether the arc has an end. -/
def isFinite (c : Curve) : Bool :=
  decide (c.angle ≤ maxAngle)

/-- The end of the arc. -/
def endpoint (c : Curve) : Point :=
  c.point 100

/-- The rotation from start to end, clockwise. -/
def rotation (c : Curve) : Int :=
  c.angle * c.code.turn

/-- Where the arc takes the skater. -/
def effect (c : Curve) : Effect :=
  .relative c.endpoint c.rotation (some c.code)

/-- The box around the drawn arc, which is sampled at every hundredth. -/
def bounds (c : Curve) (before : Skater) : Box :=
  (List.range 101).foldl (fun b (k : Nat) => b.cover (before.reach (c.point k)))
    (.ofPoint before.pos)

/-! ### Drawing -/

/-- The path of the arc. -/
def path (c : Curve) : String :=
  let r := Svg.int (Number.Binary.ofFloat c.radius).truncate
  let big := if 180 ≤ c.angle then "1" else "0"
  let sweep := if c.code.turn = -1 then "0" else "1"
  "M 0,0 a " ++ r ++ "," ++ r ++ " 0 " ++ big ++ " " ++ sweep ++ " " ++ Svg.int c.endpoint.x ++ ","
    ++ Svg.int c.endpoint.y

def definition (c : Curve) : Svg.Definition :=
  { name := c.defName, body := .group [.path c.path "" (dashes c.style)] }

/-- Displacement of the main label from the middle of the arc, away from the
    centre of the circle. -/
def labelShift (c : Curve) (settings : Settings) : Point :=
  let half := Number.radians (c.code.turn * c.angle) / 2
  let distance :=
    Number.double (-3 * settings.fontSize * c.code.turn) * settings.labelScale c.labelOffset
  { x := (Number.Binary.ofFloat (distance * half.cos)).truncate
    y := (Number.Binary.ofFloat (distance * half.sin)).truncate }

/-- The labels beside the arc: the main one outside it, the duration inside,
    and how it was stepped onto near its start. -/
def labels (c : Curve) (settings : Settings) : List PartLabel :=
  let shift := c.labelShift settings
  let text := firstNonempty c.label c.code.text
  let main : PartLabel :=
    { text := text, pos := c.point 50 + shift, count := settings.count,
      display := settings.count.isSome || isVisibleText text }
  let duration : List PartLabel :=
    match settings.duration with
    | none => []
    | some n => [{ text := "", pos := c.point 50 + -shift, count := some n }]
  let step := firstNonempty c.transitionLabel (c.footwork.label?.getD "")
  -- Five percent along the arc is still close to straight ahead.
  let early := c.point 5 + { x := c.code.turn * 2 * settings.fontSize, y := 0 }
  let transition : List PartLabel :=
    if step = "" then [] else [{ text := step, pos := early, display := isVisibleText step }]
  main :: duration ++ transition

end Curve

end IceFigures
