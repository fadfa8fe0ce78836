import IceFigures.Param.Codec
import IceFigures.Part.Label

/-!
# Titles and Fixed Text

Text at a fixed point of the diagram. The title is also the title of the whole
document; unless it is given a place it stands in the middle of the diagram.

## Main definitions

* `FixedText`: Text at a fixed point.
* `Title`: The title of the diagram.
-/

namespace IceFigures

/-- Text at a fixed point of the diagram. -/
structure FixedText where
  text : String := ""
  x : Int := 100
  y : Int := 100
  fontSize : Int := 0
  rotation : Int := 0
deriving DecidableEq

namespace FixedText

def keyword : List Char :=
  ['T', 'e', 'x', 't']

def profile : Profile where
  name := "Text"
  summary := "Text at a fixed position"
  sample := "Text[text=\"Start\",x=500,y=200]"
  schema :=
    [textField,
     .number "x" "Horizontal position in centimetres" 100,
     .number "y" "Vertical position in centimetres" 100,
     fontSizeField, rotateField]
  visible := false

def params (t : FixedText) : List Param :=
  [⟨"text", .text t.text⟩, ⟨"x", .number t.x⟩, ⟨"y", .number t.y⟩,
   ⟨"font-size", .number t.fontSize⟩, ⟨"rotate", .number t.rotation⟩]

def ofParams (ps : List Param) : FixedText where
  text := Param.text ps "text"
  x := Param.number ps "x"
  y := Param.number ps "y"
  fontSize := Param.number ps "font-size"
  rotation := Param.number ps "rotate"

/-- The point of the text. -/
def pos (t : FixedText) : Point :=
  { x := t.x, y := t.y }

/-- The text on the page. -/
def draw (t : FixedText) (settings : Settings) : Svg.Item :=
  captionAt t.text t.pos t.fontSize settings.fontSize t.rotation

end FixedText

/-- The title of the diagram. -/
structure Title where
  text : String := ""
  x : Int := -1
  y : Int := 100
  fontSize : Int := 0
deriving DecidableEq

namespace Title

def keyword : List Char :=
  ['T', 'i', 't', 'l', 'e']

def profile : Profile where
  name := "Title"
  summary := "Diagram title"
  sample := "Title[text=\"Waltz\"]"
  schema :=
    [textField,
     .number "x" "Horizontal position in centimetres, or -1 to centre" (-1),
     .number "y" "Vertical position in centimetres" 100,
     .number "font-size" "Font size in points, or 0 for twice the label size" 0 .nonneg]
  visible := false

def params (t : Title) : List Param :=
  [⟨"text", .text t.text⟩, ⟨"x", .number t.x⟩, ⟨"y", .number t.y⟩,
   ⟨"font-size", .number t.fontSize⟩]

def ofParams (ps : List Param) : Title where
  text := Param.text ps "text"
  x := Param.number ps "x"
  y := Param.number ps "y"
  fontSize := Param.number ps "font-size"

/-- The settings with the title in place of the one before. -/
def prepare (t : Title) (s : Settings) : Settings :=
  { s with title := t.text }

/-- The point of the title: in the middle if its distance is negative. -/
def pos (t : Title) (settings : Settings) : Point :=
  { x := if 0 ≤ t.x then t.x else settings.bounds.middle.x, y := t.y }

/-- The title on the page. -/
def draw (t : Title) (settings : Settings) : Svg.Item :=
  captionAt t.text (t.pos settings) t.fontSize (2 * settings.fontSize) 0

end Title

end IceFigures
