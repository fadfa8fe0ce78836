import IceFigures.Param.Codec
import IceFigures.Profile
import IceFigures.Settings
import IceFigures.Svg.Shape

/-!
# Diagram Settings in the Text

A directive that switches features of the diagram on and off. Bounds, grid and
margins hold for the whole diagram; they are settled before anything is drawn
(`Info.prepare`). Markers, sizes, label offset and numbering hold from the
directive on (`Info.configure`).

## Main definitions

* `Info`: The settings of one directive.
* `Info.prepare`: Settings for the whole diagram.
* `Info.configure`: Settings from here on.
* `startMark`, `endMark`: The names of the marks at either end of a move.
-/

namespace IceFigures

/-- The settings of one directive. -/
structure Info where
  markers : Bool := false
  showBounds : Bool := false
  grid : Int := 0
  marginX : Int := 50
  marginY : Int := 50
  moveBounds : Bool := false
  fontSize : Int := -1
  strokeWidth : Int := 0
  labelOffset : Int := 100
  autoCount : Bool := false
deriving DecidableEq

/-- The name of the mark at the start of a move. -/
def startMark : String := "start-mark"

/-- The name of the mark at the end of a move. -/
def endMark : String := "end-mark"

/-- The path of a mark, an arrow in the direction of the skater. -/
def markPath : String :=
  "M 0,0 l 10,0 l -20,0 l 10,0 l 0,20 l 8,-8 l -8,8 l-8,-8 l 8,8 l 0,-30 l 0,10"

/-- A number, or none if it is zero. -/
def nonzero? (n : Int) : Option Int :=
  if n = 0 then none else some n

namespace Info

def keyword : List Char :=
  ['I', 'n', 'f', 'o']

def profile : Profile where
  name := "Info"
  summary := "Diagram settings"
  sample := "Info[markers=true,grid=100,move-bounds=true]"
  schema :=
    [.flag "markers" "Show start and end markers for each move",
     .flag "bounds" "Show the bounding box of the diagram",
     .number "grid" "Grid spacing in centimetres, or 0 for none" 0 .nonneg,
     .number "margin-x" "Horizontal margin in centimetres" 50 .nonneg,
     .number "margin-y" "Vertical margin in centimetres" 50 .nonneg,
     .flag "move-bounds" "Show the bounding box of each move",
     .number "font-size" "Font size in points, or -1 to scale with the diagram" (-1),
     .number "stroke-width" "Line width, or 0 to scale with the diagram" 0 .nonneg,
     .number "label-offset" "Percentage to scale label offsets by" 100,
     .flag "auto-count" "Number visible moves automatically"]
  visible := false

def params (i : Info) : List Param :=
  [⟨"markers", .flag i.markers⟩, ⟨"bounds", .flag i.showBounds⟩, ⟨"grid", .number i.grid⟩,
   ⟨"margin-x", .number i.marginX⟩, ⟨"margin-y", .number i.marginY⟩,
   ⟨"move-bounds", .flag i.moveBounds⟩, ⟨"font-size", .number i.fontSize⟩,
   ⟨"stroke-width", .number i.strokeWidth⟩, ⟨"label-offset", .number i.labelOffset⟩,
   ⟨"auto-count", .flag i.autoCount⟩]

def ofParams (ps : List Param) : Info where
  markers := Param.flag ps "markers"
  showBounds := Param.flag ps "bounds"
  grid := Param.number ps "grid"
  marginX := Param.number ps "margin-x"
  marginY := Param.number ps "margin-y"
  moveBounds := Param.flag ps "move-bounds"
  fontSize := Param.number ps "font-size"
  strokeWidth := Param.number ps "stroke-width"
  labelOffset := Param.number ps "label-offset"
  autoCount := Param.flag ps "auto-count"

/-- The settings of the directive for the whole diagram. -/
def prepare (i : Info) (s : Settings) : Settings :=
  { s with
    showBounds := i.showBounds
    grid := nonzero? i.grid
    showMoveBounds := i.moveBounds
    marginX := i.marginX
    marginY := i.marginY }

/-- The settings of the directive for what follows it. -/
def configure (i : Info) (s : Settings) : Settings :=
  { s with
    markers := i.markers
    fixedFontSize := if 0 < i.fontSize then some i.fontSize else none
    fixedStrokeWidth := nonzero? i.strokeWidth
    labelOffset := i.labelOffset
    autoCount := if i.autoCount then some 1 else none }

/-- The definitions of the marks, if they are switched on. -/
def definitions (i : Info) : List Svg.Definition :=
  if i.markers then
    [{ name := startMark, body := .single (.path markPath "stroke:green;" "") },
     { name := endMark, body := .single (.path markPath "stroke:red;" "") }]
  else []

end Info

end IceFigures
