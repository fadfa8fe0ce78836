import IceFigures.Param.Schema

/-!
# Profiles

What is known of a kind of move without an instance of it: what it is called,
how it is written, which parameters it takes and whether it is visible.

## Main definitions

* `Profile`: The description of a kind of move.
* `lenField`, `labelOffsetField`: Parameters that many kinds share.
-/

namespace IceFigures

/-- The description of a kind of move. -/
structure Profile where
  name : String
  summary : String
  sample : String
  schema : Schema := []
  visible : Bool := true

/-- The length of a glide. -/
def lenField : Field :=
  .number "len" "Length in centimetres" 100 .positive (plusMinus 150 200 300 75 50 25)

/-- The distance of a move's labels. -/
def labelOffsetField : Field :=
  .number "label-offset"
    "Amount to scale label offsets by, as a percentage, or -1 to use global value" (-1)

/-- The replacement of a label. -/
def labelField : Field :=
  .text "label" "Replacement label, used if non-empty"

/-- The style of a line. -/
def styleField : Field :=
  .text "style" "Style of line"

/-- The replacement of the label beside the first step. -/
def transitionLabelField : Field :=
  .text "transition-label" "Replacement transition label, used if non-empty"

end IceFigures
