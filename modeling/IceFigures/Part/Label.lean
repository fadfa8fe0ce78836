import IceFigures.Param.Codec
import IceFigures.Part.Drawing
import IceFigures.Profile

/-!
# Labels

Text placed in the skater's frame, wherever the skater is at the time.

## Main definitions

* `Label`: A text with its distances from the skater.
* `captionAt`: A text on the page, in its own font size or the one in effect.
* `Label.draw`: The label on the page.
-/

namespace IceFigures

/-- The parameter of a text to display. -/
def textField : Field :=
  .text "text" "Text to display"

/-- The font size of a text. -/
def fontSizeField : Field :=
  .number "font-size" "Font size in points, or 0 to scale with the diagram" 0 .nonneg

/-- The rotation of a text. -/
def rotateField : Field :=
  .number "rotate" "Rotation of the text in degrees" 0

/-- A text on the page, in its own font size or in the given one. -/
def captionAt (text : String) (pos : Point) (fontSize inEffect rotation : Int) : Svg.Item :=
  .caption
    { pos := pos, fontSize := if fontSize = 0 then inEffect else fontSize,
      rotation := rotation, body := .plain text }

/-- A text placed relative to the skater. -/
structure Label where
  text : String := ""
  forward : Int := 0
  side : Int := 0
  fontSize : Int := 0
  rotation : Int := 0
deriving DecidableEq

namespace Label

def keyword : List Char :=
  ['L', 'a', 'b', 'e', 'l']

def profile : Profile where
  name := "Label"
  summary := "Text relative to the skater"
  sample := "Label[text=\"CoE\",fwd=50,side=20]"
  schema :=
    [textField,
     .number "fwd" "Distance forward in centimetres" 0,
     .number "side" "Distance to the skater's left in centimetres" 0,
     fontSizeField, rotateField]
  visible := false

def params (l : Label) : List Param :=
  [⟨"text", .text l.text⟩, ⟨"fwd", .number l.forward⟩, ⟨"side", .number l.side⟩,
   ⟨"font-size", .number l.fontSize⟩, ⟨"rotate", .number l.rotation⟩]

def ofParams (ps : List Param) : Label where
  text := Param.text ps "text"
  forward := Param.number ps "fwd"
  side := Param.number ps "side"
  fontSize := Param.number ps "font-size"
  rotation := Param.number ps "rotate"

def chars (l : Label) : List Char :=
  keyword ++ Schema.write profile.schema l.params

/-- The same label on the skater's other side. -/
def opposite (l : Label) : Label :=
  { l with side := -l.side }

/-- The label on the page. -/
def draw (l : Label) (before : Skater) (settings : Settings) : Svg.Item :=
  captionAt l.text (before.reach { x := l.side, y := l.forward }) l.fontSize settings.fontSize
    l.rotation

end Label

end IceFigures
