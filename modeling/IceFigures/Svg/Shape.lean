import IceFigures.Plane.Box
import IceFigures.Svg.Ident
import IceFigures.Svg.Xml

/-!
# Drawings

What a diagram is made of: shapes, definitions that name them, and items that
are placed on the page. An item is a use of a definition, a caption or a shape,
and may carry a name of its own.

## Main definitions

* `Shape`: A path, rectangle or circle.
* `Definition`: A named group of shapes, or a single named shape.
* `Caption`: Text placed on the page.
* `Item`: Something placed on the page, perhaps with a name.
* `Document`: A whole diagram.
* `Document.write`: The written form of a diagram.
-/

namespace IceFigures

namespace Svg

/-- A whole number as it stands in an attribute. -/
def int (n : Int) : String :=
  String.ofList (Text.decimal n)

/-- A shape. -/
inductive Shape
  | path (d : String) (style : String) (dash : String)
  | rect (x y width height : Int) (corner : Option Int) (style : String) (dash : String)
  | circle (x y radius : Int) (style : String)
deriving DecidableEq

namespace Shape

/-- The element of a shape, under a name if it has one. -/
def xml (name : String) : Shape → Xml
  | path d style dash =>
    .element "path" [("d", d), ("id", name), ("stroke-dasharray", dash), ("style", style)] "" []
  | rect x y width height corner style dash =>
    let radius := (corner.map int).getD ""
    .element "rect"
      [("height", int height), ("id", name), ("rx", radius), ("ry", radius),
       ("stroke-dasharray", dash), ("style", style), ("width", int width), ("x", int x),
       ("y", int y)] "" []
  | circle x y radius style =>
    .element "circle"
      [("cx", int x), ("cy", int y), ("id", name), ("r", int radius), ("style", style)] "" []

end Shape

/-- What a name is defined to draw. -/
inductive Definition.Body
  | group (shapes : List Shape)
  | single (shape : Shape)
deriving DecidableEq

/-- A name and what it is defined to draw. -/
structure Definition where
  name : String
  body : Definition.Body
deriving DecidableEq

namespace Definition

/-- The element of a definition, under the given name. -/
def xml (name : String) : Body → Xml
  | .group shapes => .element "g" [("id", name)] "" (shapes.map (Shape.xml ""))
  | .single shape => shape.xml name

end Definition

/-- The text of a caption: as it stands, or behind a highlighted count. -/
inductive Caption.Body
  | plain (text : String)
  | counted (count : Option Int) (text : String)
deriving DecidableEq

/-- Text placed on the page. -/
structure Caption where
  pos : Point
  fontSize : Int
  rotation : Int := 0
  body : Caption.Body
deriving DecidableEq

namespace Caption

/-- The style of caption text. -/
def style (fontSize : Int) : String :=
  "stroke:black; fill:black; font-size:" ++ int fontSize ++ "pt;"

/-- The style of a count. -/
def countStyle : String :=
  "font-weight:bolder; fill:purple; stroke:purple;"

/-- Whether the count of a caption, if it has one, is short enough to be
    written. -/
def isWritable (c : Caption) : Bool :=
  match c.body with
  | .counted (some n) _ => Text.isWritable n
  | _ => true

/-- The element of a caption. -/
def xml (name : String) (c : Caption) : Xml :=
  let transform :=
    if c.rotation = 0 then ""
    else "rotate(" ++ int c.rotation ++ "," ++ int c.pos.x ++ "," ++ int c.pos.y ++ ")"
  let attributes :=
    [("id", name), ("style", style c.fontSize), ("transform", transform), ("x", int c.pos.x),
     ("y", int c.pos.y)]
  match c.body with
  | .plain text => .element "text" attributes text []
  | .counted count text =>
    let lead := (count.map fun n => Xml.element "tspan" [("style", countStyle)] (int n) []).toList
    .element "text" attributes "" (lead ++ [.element "tspan" [] text []])

end Caption

/-- What an item is. -/
inductive Item.Content
  | use (target : String) (pos : Point) (heading : Int) (strokeWidth : Int)
  | caption (caption : Caption)
  | shape (shape : Shape)
deriving DecidableEq

/-- Something placed on the page, perhaps with a name. -/
structure Item where
  content : Item.Content
  name : Option String := none
deriving DecidableEq

namespace Item

/-- A definition used at a point and heading. -/
def use (target : String) (pos : Point) (heading : Heading) (strokeWidth : Int) : Item :=
  { content := .use target pos heading.degrees strokeWidth }

/-- A caption without a name. -/
def caption (c : Caption) : Item :=
  { content := .caption c }

/-- A shape without a name. -/
def shape (s : Shape) : Item :=
  { content := .shape s }

/-- The item without its name. -/
def anonymous (i : Item) : Item :=
  { i with name := none }

/-- Whether the count of an item, if it has one, is short enough to be
    written. -/
def isWritable (i : Item) : Bool :=
  match i.content with
  | .caption c => c.isWritable
  | _ => true

/-- The element of an item. -/
def xml (i : Item) : Xml :=
  let name := i.name.getD ""
  match i.content with
  | .use target pos heading strokeWidth =>
    .element "use"
      [("id", name),
       ("style", "stroke:black; stroke-width:" ++ int strokeWidth ++ ";"),
       ("transform",
        "translate(" ++ int pos.x ++ " " ++ int pos.y ++ ") rotate(" ++ int heading ++ ")"),
       ("xlink:href", "#" ++ target)] "" []
  | .caption c => c.xml name
  | .shape s => s.xml name

end Item

/-- A whole diagram. -/
structure Document where
  title : String
  definitions : List Definition
  items : List Item
  view : Box

namespace Document

/-- What every diagram is described as. -/
def description : String :=
  "Ice skating diagram"

/-- The style sheet of every diagram. -/
def styleSheet : String :=
  "text \x7b text-anchor: middle \x7d path,rect,circle \x7b fill:none; \x7d"

/-- The attributes of the root element. -/
def rootAttributes (view : Box) : List (String × String) :=
  [("baseProfile", "full"), ("height", int view.height), ("version", "1.1"),
   ("viewBox",
    " ".intercalate [int view.topLeft.x, int view.topLeft.y, int view.width, int view.height]),
   ("width", int view.width), ("xmlns", "http://www.w3.org/2000/svg"),
   ("xmlns:ev", "http://www.w3.org/2001/xml-events"),
   ("xmlns:xlink", "http://www.w3.org/1999/xlink")]

/-- The root element of a diagram. -/
def xml (d : Document) : Xml :=
  let style := Xml.literal "style" [("type", "text/css")] styleSheet
  .element "svg" (rootAttributes d.view) ""
    (.element "title" [] d.title [] ::
     .element "desc" [] description [] ::
     .element "defs" [] "" (style :: d.definitions.map fun f => Definition.xml f.name f.body) ::
     d.items.map Item.xml)

/-- The written form of a diagram. -/
def write (d : Document) : String :=
  d.xml.write

end Document

end Svg

end IceFigures
