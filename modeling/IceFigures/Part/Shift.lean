import IceFigures.Fault
import IceFigures.Param.Codec
import IceFigures.Part.Drawing
import IceFigures.Profile

/-!
# Shifts

Moving the skater without drawing anything, for instance across the cusp of a
turn.

## Main definitions

* `Shift`: A displacement, a rotation and perhaps a new code.
* `optionalCode`: A code, or none for an empty text.
* `Shift.effect`: Where the shift takes the skater.
-/

namespace IceFigures

/-- The parameter of a code to switch to. -/
def codeField : Field :=
  .text "code" "Code to switch to, if non-empty"

/-- The code that a text is, none if it is empty. -/
def optionalCode (text : String) : Except Fault (Option Code) :=
  if text = "" then .ok none else (Code.parse text).map some

/-- The text of a code that may be missing. -/
def optionalCodeText (code : Option Code) : String :=
  (code.map Code.text).getD ""

/-- A displacement of the skater without a drawing. -/
structure Shift where
  side : Int := 0
  forward : Int := 0
  rotation : Int := 0
  code : Option Code := none
deriving DecidableEq

namespace Shift

def keyword : List Char :=
  ['S', 'h', 'i', 'f', 't']

def profile : Profile where
  name := "Shift"
  summary := "Shift without drawing"
  sample := "Shift[fwd=50,side=50,rotate=270]"
  schema :=
    [.number "fwd" "Distance forward in centimetres" 0,
     .number "side" "Distance to the skater's left in centimetres" 0,
     .number "rotate" "Rotation in degrees, clockwise" 0,
     codeField]
  visible := false

def params (s : Shift) : List Param :=
  [⟨"fwd", .number s.forward⟩, ⟨"side", .number s.side⟩, ⟨"rotate", .number s.rotation⟩,
   ⟨"code", .text (optionalCodeText s.code)⟩]

def ofParams (ps : List Param) : Except Fault Shift :=
  (optionalCode (Param.text ps "code")).map fun code =>
    { side := Param.number ps "side", forward := Param.number ps "fwd",
      rotation := Param.number ps "rotate", code := code }

def chars (s : Shift) : List Char :=
  keyword ++ Schema.write profile.schema s.params

def opposite (s : Shift) : Shift :=
  { s with side := -s.side, rotation := -s.rotation, code := s.code.map Code.opposite }

/-- The displacement in the skater's frame. -/
def delta (s : Shift) : Point :=
  { x := s.side, y := s.forward }

/-- Where the shift takes the skater. -/
def effect (s : Shift) : Effect :=
  .relative s.delta s.rotation s.code

/-- The box of the point that the shift leads to. -/
def bounds (s : Shift) (before : Skater) : Box :=
  .ofPoint (before.reach s.delta)

end Shift

end IceFigures
