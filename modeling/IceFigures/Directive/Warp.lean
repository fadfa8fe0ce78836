import IceFigures.Part.Shift

/-!
# Warps

Moving the skater to a fixed point and heading without drawing anything.

## Main definitions

* `Warp`: A point, a heading and perhaps a new code.
* `Warp.effect`: Where the warp takes the skater.
-/

namespace IceFigures

/-- A jump to a fixed point and heading. -/
structure Warp where
  x : Int := 0
  y : Int := 0
  direction : Int := 0
  code : Option Code := none
deriving DecidableEq

namespace Warp

def keyword : List Char :=
  ['W', 'a', 'r', 'p']

def profile : Profile where
  name := "Warp"
  summary := "Move to a fixed position without drawing"
  sample := "Warp[x=100,y=100,dir=270]"
  schema :=
    [.number "x" "Horizontal position in centimetres" 0,
     .number "y" "Vertical position in centimetres" 0,
     .number "dir" "Direction to face, in degrees clockwise from down" 0 .nonneg,
     codeField]
  visible := false

def params (w : Warp) : List Param :=
  [⟨"x", .number w.x⟩, ⟨"y", .number w.y⟩, ⟨"dir", .number w.direction⟩,
   ⟨"code", .text (optionalCodeText w.code)⟩]

def ofParams (ps : List Param) : Except Fault Warp :=
  (optionalCode (Param.text ps "code")).map fun code =>
    { x := Param.number ps "x", y := Param.number ps "y", direction := Param.number ps "dir",
      code := code }

/-- The same warp onto the other foot; point and heading stay. -/
def opposite (w : Warp) : Warp :=
  { w with code := w.code.map Code.opposite }

/-- The point that the warp leads to. -/
def target (w : Warp) : Point :=
  { x := w.x, y := w.y }

/-- Where the warp takes the skater. -/
def effect (w : Warp) : Effect :=
  { displacement := .absolute w.target (.ofDegrees w.direction), code := w.code }

end Warp

end IceFigures
