import IceFigures.Plane.Box

/-!
# Settings

What is in force while a diagram is drawn. Font size and stroke width grow with
the diagram unless they are set: they depend on the length of its diagonal.

## Main definitions

* `Settings`: A snapshot of the settings.
* `Settings.fontSize`, `Settings.strokeWidth`: The sizes in effect.
* `Settings.labelScale`: The factor for the distance of labels.
-/

namespace IceFigures

/-- A snapshot of what is in force while a diagram is drawn. -/
structure Settings where
  title : String := "Skating Diagram"
  markers : Bool := false
  grid : Option Int := none
  showBounds : Bool := false
  showMoveBounds : Bool := false
  marginX : Int := 50
  marginY : Int := 50
  bounds : Box := .ofPoint .origin
  fixedFontSize : Option Int := none
  fixedStrokeWidth : Option Int := none
  labelOffset : Int := 100
  autoCount : Option Int := none
  count : Option Int := none
  duration : Option Int := none
deriving DecidableEq

namespace Settings

/-- Diagonals below which a font size is in effect, shortest first. -/
def fontSizes : List (Nat × Int) :=
  [(500, 10), (800, 12), (933, 14), (1067, 16), (1200, 18), (1600, 20), (2400, 22)]

/-- The font size of the largest diagrams. -/
def maxFontSize : Int := 24

/-- Diagonals below which a stroke width is in effect, shortest first. -/
def strokeWidths : List (Nat × Int) :=
  [(1000, 1), (1600, 2), (2400, 3)]

/-- The stroke width of the largest diagrams. -/
def maxStrokeWidth : Int := 4

/-- The first size of a table whose limit a box stays below. -/
def sizeFor (table : List (Nat × Int)) (largest : Int) (b : Box) : Int :=
  ((table.find? fun entry => b.shorterThan entry.1).map (·.2)).getD largest

/-- The font size in effect, in points. -/
def fontSize (s : Settings) : Int :=
  s.fixedFontSize.getD (sizeFor fontSizes maxFontSize s.bounds)

/-- The stroke width in effect. -/
def strokeWidth (s : Settings) : Int :=
  s.fixedStrokeWidth.getD (sizeFor strokeWidths maxStrokeWidth s.bounds)

/-- The factor for the distance of labels; a percentage of minus one stands for
    the one that is set for the diagram. -/
def labelScale (s : Settings) (percent : Int) : Float :=
  Number.percent (if percent = -1 then s.labelOffset else percent)

/-- The settings without a count and a duration. -/
def untimed (s : Settings) : Settings :=
  { s with count := none, duration := none }

end Settings

end IceFigures
