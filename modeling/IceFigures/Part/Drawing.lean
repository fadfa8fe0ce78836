import IceFigures.Settings
import IceFigures.Skater
import IceFigures.Svg.Shape

/-!
# Drawing Parts

What the drawings of all parts have in common: a definition is used at the
skater's position and heading, and labels are placed in the skater's frame.

## Main definitions

* `PartLabel`: A label in the frame of its part.
* `useAt`: A definition used where the skater is.
* `drawLabels`: The labels that are shown, placed on the page.
* `firstNonempty`: A text, or another one if it is empty.
-/

namespace IceFigures

/-- Text drawn alongside a part, placed in the part's own frame. -/
structure PartLabel where
  text : String
  pos : Point
  count : Option Int := none
  display : Bool := true
deriving DecidableEq

/-- A definition used where the skater is. -/
def useAt (s : Skater) (target : String) (settings : Settings) : Svg.Item :=
  .use target s.pos s.heading settings.strokeWidth

/-- A label placed on the page. -/
def PartLabel.item (s : Skater) (settings : Settings) (l : PartLabel) : Svg.Item :=
  .caption
    { pos := s.reach l.pos, fontSize := settings.fontSize, body := .counted l.count l.text }

/-- The labels that are shown, placed on the page. -/
def drawLabels (s : Skater) (settings : Settings) (labels : List PartLabel) : List Svg.Item :=
  (labels.filter (·.display)).map (PartLabel.item s settings)

/-- A text, or another one in its place if it is empty. -/
def firstNonempty (s other : String) : String :=
  if s = "" then other else s

/-- Whether a text shows anything. -/
def isVisibleText (s : String) : Bool :=
  !(Text.trim s.toList).isEmpty

/-- The dashes of a line style; other styles are solid. -/
def dashes (style : String) : String :=
  if style = "dashed" then "50 30" else ""

end IceFigures
