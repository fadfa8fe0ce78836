import IceFigures.Figure.Layout

/-!
# Figures

A figure is a kind, an entry code, the values of its parameters and the
footwork onto it. Its parts follow from these. Later parts are placed where the
part before them ended, without footwork of their own; so the figure as a whole
moves the skater by one relative effect.

## Main definitions

* `Figure`: A figure as it is written.
* `Figure.layout`: The parts that the figure is laid out as, each with its place.
* `Figure.parts`: The parts that the figure is laid out as.
* `Figure.fault?`: What is wrong with a figure.
* `Figure.isWritable`: Whether the numbers of a figure can be written.
* `Figure.isFinite`: Whether every part of a figure has an end.
* `Figure.effect`: What the figure does to the skater.
* `Figure.bounds?`: The box around the parts of the figure.
* `Figure.draw`: The items that the figure puts on the page.
-/

namespace IceFigures

/-- A figure as it is written. -/
structure Figure where
  kind : FigureKind
  entry : Code
  values : List Param
  footwork : Footwork := .normal
deriving DecidableEq

namespace Figure

/-- A figure with all parameters at their defaults if no values are given. -/
def ofValues (kind : FigureKind) (entry : Code) (values : List Param)
    (footwork : Footwork := .normal) : Figure :=
  { kind := kind, entry := entry, footwork := footwork
    values := if values.isEmpty then Schema.defaults kind.profile.schema else values }

/-- The description of the figure's kind. -/
def profile (f : Figure) : Profile :=
  f.kind.profile

/-- The canonical text of a figure. -/
def chars (f : Figure) : List Char :=
  f.footwork.mark ++ f.entry.letters ++ f.kind.suffix ++
    Schema.write f.kind.profile.schema f.values

/-- The same figure on the other foot. -/
def opposite (f : Figure) : Figure :=
  { f with entry := f.entry.opposite }

/-- The sign of the figure's layout, zero on a code that is not legal. -/
def hand (f : Figure) : Int :=
  (f.kind.hand? f.entry).getD 0

/-- The parts that the figure is laid out as, each with its place. -/
def layout (f : Figure) (place : Option Place) : List PlacedPart :=
  let v := TwoPart.ofParams f.values
  match f.kind with
  | .turn t => t.layout place v f.footwork f.entry
  | .footChange c => c.layout place v f.footwork f.hand f.entry
  | .changeOfEdge =>
    changeOfEdgeLayout place v (Param.number f.values "flat-len") f.footwork f.entry
  | .loop => loopLayout place v f.footwork f.entry
  | .twizzle halfTurns =>
    twizzleLayout place (Twist.ofParams f.values) halfTurns f.footwork f.entry
  | .jump j rotations =>
    j.layout place (Leap.ofParams f.values) rotations f.footwork f.hand f.entry

/-- The parts that the figure is laid out as, wherever it is written. -/
def parts (f : Figure) : List Part :=
  (f.layout none).map PlacedPart.part

theorem parts_eq (f : Figure) :
    f.parts =
      match f.kind with
      | .turn t => t.parts (.ofParams f.values) f.footwork f.entry
      | .footChange c => c.parts (.ofParams f.values) f.footwork f.hand f.entry
      | .changeOfEdge =>
        changeOfEdgeParts (.ofParams f.values) (Param.number f.values "flat-len") f.footwork f.entry
      | .loop => loopParts (.ofParams f.values) f.footwork f.entry
      | .twizzle halfTurns => twizzleParts (.ofParams f.values) halfTurns f.footwork f.entry
      | .jump j rotations => j.parts (.ofParams f.values) rotations f.footwork f.hand f.entry := by
  rcases f with ⟨kind, entry, values, footwork⟩
  cases kind <;> rfl

/-- The parameters that a kind of figure reads as numbers before it is labelled,
    in the order in which it reads them. -/
def numbersFirst : FigureKind → List String
  | .twizzle _ => ["angle", "len"]
  | .jump _ _ => ["entry-angle", "entry-len", "label-offset"]
  | _ => ["angle", "len", "delta-angle", "delta-len", "label-offset"]

/-- The parameters that a kind of figure reads as numbers when it comes to its
    first part. -/
def numbersNext : FigureKind → List String
  | .twizzle _ => ["pre-angle", "pre-len"]
  | _ => []

/-- The parameters that a kind of figure reads as numbers when it comes to its
    last parts. -/
def numbersLast : FigureKind → List String
  | .changeOfEdge => ["flat-len"]
  | .twizzle _ => ["post-angle", "post-len"]
  | .jump _ _ => ["exit-angle", "exit-len"]
  | _ => []

/-- How many parts come after the numbers that are read last. -/
def partsLast : FigureKind → Nat
  | .changeOfEdge => 2
  | _ => 1

/-- The first of the named parameters that holds a text which is no number. -/
def numericFault? (values : List Param) (names : List String) : Option Fault :=
  names.findSome? fun name =>
    match Param.value? values name with
    | some (.text s) =>
      match Text.readInteger s.toList with
      | .ok _ => none
      | .error .malformed => some (.notNumeric s)
      | .error (.tooLong digits) => some (.tooManyDigits digits)
    | _ => none

/-- What is wrong with the parts of a figure, if anything, and with the numbers
    that are read last. -/
def piecesFault? (f : Figure) : Option Fault :=
  let (before, after) := f.parts.splitAt (f.parts.length - partsLast f.kind)
  before.findSome? Part.fault? <|> numericFault? f.values (numbersLast f.kind) <|>
    after.findSome? Part.fault?

/-- What is wrong with the numbers, the label and the parts of a figure, if
    anything, in the order in which they are laid out. -/
def layoutFault? (f : Figure) : Option Fault :=
  numericFault? f.values (numbersFirst f.kind) <|> f.kind.labelFault? <|>
    numericFault? f.values (numbersNext f.kind) <|> f.piecesFault?

/-- What is wrong with a figure, if anything: its values, then the numbers in
    its suffix, then its entry code, then its layout. -/
def fault? (f : Figure) : Option Fault :=
  if !(Schema.fits f.kind.profile.schema f.values) then
    some (.figureMismatch f.values f.kind.profile.name)
  else
    f.kind.fault? <|>
      (if (f.kind.hand? f.entry).isNone then some (.illegalEntry f.entry f.kind.profile.name)
       else none) <|>
      f.layoutFault?

/-- Whether every number of the values and of the parts is short enough to be
    written. -/
def isWritable (f : Figure) : Bool :=
  Param.areWritable f.values && f.parts.all Part.isWritable

/-- Whether every part of the figure has an end. -/
def isFinite (f : Figure) : Bool :=
  f.parts.all Part.isFinite

/-- The code that the figure starts on. -/
def start? (f : Figure) : Option Code :=
  f.parts.head?.bind Part.code?

/-- The code that the figure ends on. -/
def exit? (f : Figure) : Option Code :=
  f.parts.getLast?.bind Part.code?

/-- The footwork onto the figure, coming off a code. -/
def entering (old : Code) (f : Figure) : Effect :=
  (f.parts.head?.map (Part.entering old)).getD .nothing

/-- What the figure does to the skater: what its parts do one after another to
    a skater at the origin. -/
def effect (f : Figure) : Effect :=
  let last := afterParts (.atOrigin f.entry) f.parts
  .relative last.pos last.heading.degrees (some last.code)

/-- The parts with the skater before each of them. -/
def walk (f : Figure) (before : Skater) : List (Skater × Part) :=
  walkParts before f.parts

/-- The box around the parts of the figure. -/
def bounds? (before : Skater) (f : Figure) : Option Box :=
  Box.unionAll ((f.walk before).map fun (s, p) => p.bounds? s)

/-- The definitions that the figure uses. -/
def definitions (f : Figure) : List Svg.Definition :=
  f.parts.flatMap Part.definitions

/-- Whether the first part shows the count and duration of the figure. -/
def showsCount (f : Figure) : Bool :=
  match f.kind with
  | .twizzle _ => false
  | _ => true

/-- The items of parts that show no count. -/
def drawUntimed (settings : Settings) (walk : List (Skater × Part)) : List Svg.Item :=
  walk.flatMap fun (s, p) => p.draw s settings.untimed

/-- The items that the figure puts on the page. -/
def draw (before : Skater) (settings : Settings) (f : Figure) : List Svg.Item :=
  match f.walk before with
  | [] => []
  | (s, p) :: rest =>
    p.draw s (if f.showsCount then settings else settings.untimed) ++ drawUntimed settings rest

end Figure

end IceFigures
