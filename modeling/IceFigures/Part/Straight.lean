import IceFigures.Fault
import IceFigures.Param.Codec
import IceFigures.Part.Drawing
import IceFigures.Profile

/-!
# Straight Glides

A straight glide on the flat of the blade, on one foot or on both. Both feet
leave two parallel tracks and no label.

## Main definitions

* `Straight`: A straight glide.
* `Straight.fault?`: What is wrong with a glide.
* `Straight.effect`: Where the glide takes the skater.
* `Straight.labels`: The label beside the glide.
-/

namespace IceFigures

/-- A straight glide on one or both feet. -/
structure Straight where
  code : Code
  length : Int := 100
  label : String := ""
  style : String := ""
  footwork : Footwork := .normal
deriving DecidableEq

namespace Straight

def profile : Profile where
  name := "Straight Edge"
  summary := "Straight edge"
  sample := "LF"
  schema := [lenField, labelField, styleField]

/-- What is wrong with a glide, if anything. -/
def fault? (s : Straight) : Option Fault :=
  if s.code.edge ≠ .flat then some (.notFlat s.code)
  else if s.length ≤ 0 then some (.unacceptable .positive (.number s.length))
  else none

def params (s : Straight) : List Param :=
  [⟨"len", .number s.length⟩, ⟨"label", .text s.label⟩, ⟨"style", .text s.style⟩]

def ofParams (footwork : Footwork) (code : Code) (ps : List Param) : Straight where
  code := code
  length := Param.number ps "len"
  label := Param.text ps "label"
  style := Param.text ps "style"
  footwork := footwork

def chars (s : Straight) : List Char :=
  s.footwork.mark ++ s.code.letters ++ Schema.write profile.schema s.params

def defName (s : Straight) : String :=
  String.ofList (Svg.identChars s.chars)

def opposite (s : Straight) : Straight :=
  { s with code := s.code.opposite }

/-- Where the glide takes the skater. -/
def effect (s : Straight) : Effect :=
  .relative { x := 0, y := s.length } 0 (some s.code)

/-- Half the gap between the two tracks of a glide on both feet. -/
def halfGap : Int := 10

/-- The path of the glide. -/
def path (s : Straight) : String :=
  let n := Svg.int s.length
  if s.code.foot = .both then
    "M 0,0 m " ++ Svg.int halfGap ++ ",0 l 0," ++ n ++ " m -" ++ Svg.int (2 * halfGap) ++ ",-" ++ n
      ++ " l 0," ++ n
  else "M 0,0 l 0," ++ n

def definition (s : Straight) : Svg.Definition :=
  { name := s.defName, body := .group [.path s.path "" (dashes s.style)] }

/-- The label beside the glide, unless it is on both feet. -/
def labels (s : Straight) (settings : Settings) : List PartLabel :=
  if s.code.foot = .both then []
  else
    let text := firstNonempty s.label s.code.text
    [{ text := text, pos := { x := 30, y := s.length / 2 }, count := settings.count,
       display := settings.count.isSome || isVisibleText text }]

end Straight

end IceFigures
