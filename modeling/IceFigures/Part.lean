import IceFigures.Part.Curve
import IceFigures.Part.Hop
import IceFigures.Part.Label
import IceFigures.Part.Shift
import IceFigures.Part.Straight

/-!
# Parts

The pieces that figures are put together from: arcs, straight glides and hops,
which are drawn, shifts, which move the skater unseen, and labels, which do not
move it at all. Each of them is also a move of its own.

## Main definitions

* `Part`: A piece of a figure.
* `Part.fault?`: What is wrong with a part.
* `Part.effect`: What a part does to the skater.
* `Part.bounds?`: The box of a part, if it has one.
* `Part.draw`: The items that a part puts on the page.
* `PlacedPart`: A part at a place.
* `walkParts`: The skater before each of a list of parts.
-/

namespace IceFigures

/-- A piece of a figure, or a move of its own. -/
inductive Part
  | curve (c : Curve)
  | straight (s : Straight)
  | hop (h : Hop)
  | shift (s : Shift)
  | label (l : Label)
deriving DecidableEq

namespace Part

/-- What is known of the part's kind. -/
def profile : Part → Profile
  | curve _ => Curve.profile
  | straight _ => Straight.profile
  | hop _ => Hop.profile
  | shift _ => Shift.profile
  | label _ => Label.profile

/-- What is wrong with a part, if anything. -/
def fault? : Part → Option Fault
  | curve c => c.fault?
  | straight s => s.fault?
  | hop h => h.fault?
  | shift _ => none
  | label _ => none

/-- The parameters of a part. -/
def params : Part → List Param
  | curve c => c.params
  | straight s => s.params
  | hop h => h.params
  | shift s => s.params
  | label l => l.params

/-- Whether every number of a part is short enough to be written. -/
def isWritable (p : Part) : Bool :=
  Param.areWritable p.params

/-- Whether a part has an end for others to follow on. -/
def isFinite : Part → Bool
  | curve c => c.isFinite
  | straight _ => true
  | hop _ => true
  | shift _ => true
  | label _ => true

/-- The canonical text of a part. -/
def chars : Part → List Char
  | curve c => c.chars
  | straight s => s.chars
  | hop h => h.chars
  | shift s => s.chars
  | label l => l.chars

/-- The same part on the other foot. -/
def opposite : Part → Part
  | curve c => curve c.opposite
  | straight s => straight s.opposite
  | hop h => hop h.opposite
  | shift s => shift s.opposite
  | label l => label l.opposite

/-- The code that a skated part is skated on. -/
def code? : Part → Option Code
  | curve c => some c.code
  | straight s => some s.code
  | hop h => some h.code
  | shift _ => none
  | label _ => none

/-- The footwork onto a part, coming off a code. -/
def entering (old : Code) : Part → Effect
  | curve c => c.footwork.effect old c.code
  | straight s => s.footwork.effect old s.code
  | hop h => h.footwork.effect old h.code
  | shift _ => .nothing
  | label _ => .nothing

/-- What a part does to the skater, once it has been stepped onto. -/
def effect : Part → Effect
  | curve c => c.effect
  | straight s => s.effect
  | hop h => h.effect
  | shift s => s.effect
  | label _ => .nothing

/-- The rotation of a part, clockwise. -/
def rotation : Part → Int
  | curve c => c.rotation
  | straight _ => 0
  | hop _ => 0
  | shift s => s.rotation
  | label _ => 0

/-- The box of a part started by a skater, if it has one. -/
def bounds? (before : Skater) : Part → Option Box
  | curve c => some (c.bounds before)
  | straight s => some ((Box.ofPoint before.pos).cover (before.after s.effect).pos)
  | hop h => some ((Box.ofPoint before.pos).cover (before.after h.effect).pos)
  | shift s => some (s.bounds before)
  | label _ => none

/-- The definitions that a part uses. -/
def definitions : Part → List Svg.Definition
  | curve c => [c.definition]
  | straight s => [s.definition]
  | hop h => [h.definition]
  | shift _ => []
  | label _ => []

/-- The labels that go with a part, in its own frame. -/
def labels (settings : Settings) : Part → List PartLabel
  | curve c => c.labels settings
  | straight s => s.labels settings
  | hop h => h.labels settings
  | shift _ => []
  | label _ => []

/-- A drawn part on the page: its definition in use, then its labels. -/
def drawShape (before : Skater) (settings : Settings) (name : String)
    (labels : List PartLabel) : List Svg.Item :=
  useAt before name settings :: drawLabels before settings labels

/-- The items that a part puts on the page. -/
def draw (before : Skater) (settings : Settings) : Part → List Svg.Item
  | curve c => drawShape before settings c.defName (c.labels settings)
  | straight s => drawShape before settings s.defName (s.labels settings)
  | hop h => drawShape before settings h.defName (h.labels settings)
  | shift _ => []
  | label l => [l.draw before settings]

end Part

/-- A part with the place that it names what it draws from. -/
structure PlacedPart where
  part : Part
  place : Option Place
deriving DecidableEq

/-- The skater before each of a list of parts. -/
def walkParts : Skater → List Part → List (Skater × Part)
  | _, [] => []
  | s, p :: ps => (s, p) :: walkParts (s.after p.effect) ps

/-- The skater after a list of parts. -/
def afterParts (s : Skater) (ps : List Part) : Skater :=
  ps.foldl (fun t p => t.after p.effect) s

end IceFigures
