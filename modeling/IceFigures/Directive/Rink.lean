import IceFigures.Param.Codec
import IceFigures.Part.Drawing
import IceFigures.Profile

/-!
# Rinks

The outline of an ice rink with its lines and spots, drawn from the origin
wherever the skater is. Cross lines run over the short side of the rink.

## Main definitions

* `Rink`: The measures of a rink.
* `Rink.shapes`: The shapes that the rink is drawn with.
-/

namespace IceFigures

/-- The outline of an ice rink. -/
structure Rink where
  width : Int := 3000
  length : Int := 6100
  centreLine : Bool := true
  centreCircle : Int := 400
  centreFaceoff : Bool := true
  midLines : Int := 800
  goalLines : Int := 0
  goals : Bool := false
  faceoffs : Bool := false
deriving DecidableEq

namespace Rink

def keyword : List Char :=
  ['R', 'i', 'n', 'k']

def profile : Profile where
  name := "Rink"
  summary := "Ice rink outline"
  sample := "Rink"
  schema :=
    [.number "width" "Width in centimetres" 3000 .positive,
     .number "length" "Length in centimetres" 6100 .positive,
     .flag "centre-line" "Show the centre line" true,
     .number "centre-circle" "Centre circle radius in centimetres, <= 0 to omit" 400,
     .flag "centre-faceoff" "Show the centre faceoff spot" true,
     .number "mid-lines" "Distance of mid lines from centre, <= 0 to omit" 800,
     .number "goal-lines" "Distance of goal lines from the ends, <= 0 to omit" 0,
     .flag "goals" "Show goals",
     .flag "faceoffs" "Show faceoff spots"]

def params (r : Rink) : List Param :=
  [⟨"width", .number r.width⟩, ⟨"length", .number r.length⟩,
   ⟨"centre-line", .flag r.centreLine⟩, ⟨"centre-circle", .number r.centreCircle⟩,
   ⟨"centre-faceoff", .flag r.centreFaceoff⟩, ⟨"mid-lines", .number r.midLines⟩,
   ⟨"goal-lines", .number r.goalLines⟩, ⟨"goals", .flag r.goals⟩,
   ⟨"faceoffs", .flag r.faceoffs⟩]

def ofParams (ps : List Param) : Rink where
  width := Param.number ps "width"
  length := Param.number ps "length"
  centreLine := Param.flag ps "centre-line"
  centreCircle := Param.number ps "centre-circle"
  centreFaceoff := Param.flag ps "centre-faceoff"
  midLines := Param.number ps "mid-lines"
  goalLines := Param.number ps "goal-lines"
  goals := Param.flag ps "goals"
  faceoffs := Param.flag ps "faceoffs"

def chars (r : Rink) : List Char :=
  keyword ++ Schema.write profile.schema r.params

def defName (r : Rink) : String :=
  String.ofList (Svg.identChars r.chars)

/-- Whether the long side runs down the page. -/
def isPortrait (r : Rink) : Bool :=
  decide (r.width < r.length)

/-- The length of the side that cross lines are placed along. -/
def longSide (r : Rink) : Int :=
  if r.isPortrait then r.length else r.width

/-- The largest radius of the corners. -/
def maxCornerRadius : Int := 850

/-- The radius of the corners: a quarter of the short side, within limits. -/
def cornerRadius (r : Rink) : Int :=
  min (min r.width r.length / 4) maxCornerRadius

/-- The radius of a faceoff spot. -/
def spotRadius : Int := 2

/-- A line across the rink, at a distance along its long side. -/
def crossLine (r : Rink) (distance : Int) (style : String) : Svg.Shape :=
  let d :=
    if r.isPortrait then "M 0," ++ Svg.int distance ++ " l " ++ Svg.int r.width ++ ",0"
    else "M " ++ Svg.int distance ++ ",0 l 0," ++ Svg.int r.length
  .path d style ""

/-- The distances and styles of the lines on both sides of the middle. -/
def pairedLines (r : Rink) : List (Int × String) :=
  let middle := r.longSide / 2
  (if 0 < r.midLines then
     [(middle - r.midLines, "stroke: blue;"), (middle + r.midLines, "stroke: blue;")]
   else []) ++
    (if 0 < r.goalLines then [(r.goalLines, ""), (r.longSide - r.goalLines, "")] else [])

/-- Whether the distances of all lines are short enough to be written. -/
def isWritable (r : Rink) : Bool :=
  r.pairedLines.all fun l => Text.isWritable l.1

/-- The shapes that the rink is drawn with. -/
def shapes (r : Rink) : List Svg.Shape :=
  let middle := r.longSide / 2
  let centreX := r.width / 2
  let centreY := r.length / 2
  [.rect 0 0 r.width r.length (some r.cornerRadius) "" ""] ++
    (if r.centreLine then [r.crossLine middle "stroke:red;"] else []) ++
    (if 0 < r.centreCircle then [.circle centreX centreY r.centreCircle "stroke:red;"] else []) ++
    (if r.centreFaceoff then [.circle centreX centreY spotRadius "fill: black;"] else []) ++
    r.pairedLines.map fun l => r.crossLine l.1 l.2

def definition (r : Rink) : Svg.Definition :=
  { name := r.defName, body := .group r.shapes }

/-- The box of the rink. -/
def bounds (r : Rink) : Box :=
  { topLeft := { x := 0, y := 0 }, bottomRight := { x := r.width, y := r.length } }

/-- The rink on the page. -/
def draw (r : Rink) (settings : Settings) : Svg.Item :=
  useAt (.atOrigin .start) r.defName settings

end Rink

end IceFigures
