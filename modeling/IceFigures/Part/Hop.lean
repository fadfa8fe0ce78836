import IceFigures.Fault
import IceFigures.Param.Codec
import IceFigures.Part.Drawing
import IceFigures.Profile

/-!
# Hops

A spot on the ice where the skater leaves it and lands on the same point.

## Main definitions

* `Hop`: A hop on a flat.
* `Hop.fault?`: What is wrong with a hop.
* `Hop.labels`: The label beside the spot.
-/

namespace IceFigures

/-- A hop, drawn as a spot. -/
structure Hop where
  code : Code
  size : Int := 5
  label : String := ""
  labelOffset : Int := -1
  footwork : Footwork := .normal
deriving DecidableEq

namespace Hop

/-- What follows the code of a hop. -/
def suffix : List Char :=
  ['-', 'H', 'o', 'p']

def profile : Profile where
  name := "Hop"
  summary := "Hop"
  sample := "RB-Hop"
  schema :=
    [.number "size" "Size of the hop mark in centimetres" 5 .positive, labelField,
     labelOffsetField]

/-- What is wrong with a hop, if anything. -/
def fault? (h : Hop) : Option Fault :=
  if h.code.edge ≠ .flat then some (.hopOffFlat h.code) else none

def params (h : Hop) : List Param :=
  [⟨"size", .number h.size⟩, ⟨"label", .text h.label⟩, ⟨"label-offset", .number h.labelOffset⟩]

def ofParams (footwork : Footwork) (code : Code) (ps : List Param) : Hop where
  code := code
  size := Param.number ps "size"
  label := Param.text ps "label"
  labelOffset := Param.number ps "label-offset"
  footwork := footwork

def chars (h : Hop) : List Char :=
  h.footwork.mark ++ h.code.letters ++ suffix ++ Schema.write profile.schema h.params

def defName (h : Hop) : String :=
  String.ofList (Svg.identChars h.chars)

def opposite (h : Hop) : Hop :=
  { h with code := h.code.opposite }

/-- A hop leaves the skater in place, on its code. -/
def effect (h : Hop) : Effect :=
  .relative .origin 0 (some h.code)

def definition (h : Hop) : Svg.Definition :=
  { name := h.defName, body := .group [.circle 0 0 h.size "fill: black;"] }

/-- The label beside the spot. -/
def labels (h : Hop) (settings : Settings) : List PartLabel :=
  let text := firstNonempty h.label "Hop"
  let distance := (Number.Binary.ofFloat (30 * settings.labelScale h.labelOffset)).truncate
  [{ text := text, pos := { x := distance, y := 0 }, display := isVisibleText text }]

end Hop

end IceFigures
