import IceFigures.Diagram.Names
import IceFigures.Diagram.Walk

/-!
# Diagrams

A sequence of steps as a drawing. Definitions and the settings of the whole
diagram are collected first; then the boxes of all moves give its extent, on
which the sizes of text and lines depend; then every move is placed in order,
under the settings that the moves before it have established.

Moves are numbered as they are placed. A count that is written shows as it is,
except that zero shows none; otherwise the automatic number shows, if numbering
is on. Each visible move moves the numbering on from what it showed.

## Main definitions

* `firstOfName`: Definitions without those whose name came before.
* `countFor`: The count that a step shows.
* `nextSettings`: The settings after a step has been placed.
* `placeStages`: The items of stages placed in order.
* `gridLines`: The multiples of a spacing between two limits.
* `Diagram`: A drawing with the names of its items.
* `Diagram.ofSteps`: The diagram of a sequence of steps.
* `Refusal`: Why a text has no diagram.
* `Diagram.ofText`: The diagram of a text.
-/

namespace IceFigures

/-! ### Collecting -/

/-- Definitions without those whose name was seen before. -/
def firstOfName : List String → List Svg.Definition → List Svg.Definition
  | _, [] => []
  | seen, d :: ds =>
    if seen.contains d.name then firstOfName seen ds
    else d :: firstOfName (d.name :: seen) ds

/-- The definitions of a sequence, one for each name. -/
def definitionsOf (steps : List Step) : List Svg.Definition :=
  firstOfName [] (steps.flatMap fun s => s.move.definitions)

/-- The settings of the whole diagram. -/
def preparedSettings (steps : List Step) : Settings :=
  steps.foldl (fun settings s => s.move.prepare settings) {}

/-- The box of a walk; the origin if no move has one. -/
def boundsOf (stages : List Stage) : Box :=
  (Box.unionAll (stages.map Stage.bounds?)).getD (.ofPoint .origin)

/-! ### Placing -/

/-- The count that a step shows. -/
def countFor (s : Step) (settings : Settings) : Option Int :=
  match s.count with
  | none => settings.autoCount
  | some 0 => none
  | some n => some n

/-- The settings after a step has been placed with a count. -/
def nextSettings (s : Step) (count : Option Int) (settings : Settings) : Settings :=
  match settings.autoCount with
  | none => settings
  | some n =>
    if s.move.isVisible then { settings with autoCount := some (count.getD n + 1) } else settings

/-- A mark at either end of a move, if marks are switched on. -/
def markAt (shown : Bool) (s : Skater) (mark : String) (settings : Settings) : List Svg.Item :=
  if shown then [useAt s mark settings] else []

/-- The items of a step at a skater, named from its place. -/
def drawStep (before : Skater) (settings : Settings) (names : Names) (s : Step) :
    List Svg.Item × Names :=
  nameItems s.place names (s.move.draw before settings)

/-- The items of stages placed in order, with the names given and the settings
    in force at the end. -/
def placeStages : Settings → Names → List Stage → List Svg.Item × Names × Settings
  | settings, names, [] => ([], names, settings)
  | settings, names, stage :: rest =>
    let step := stage.step
    let configured := step.move.configure settings
    let count := countFor step configured
    let own := { configured with count := count, duration := step.duration.map Int.ofNat }
    let (items, names') := drawStep stage.before own names step
    let (later, last) := placeStages (nextSettings step count configured) names' rest
    (markAt settings.markers stage.before startMark settings ++ items ++
      markAt settings.markers stage.after endMark configured ++ later, last)

/-! ### Background -/

/-- The multiples of a spacing from one limit up to another, which is left out. -/
def gridLines (low high spacing : Int) : List Int :=
  if spacing ≤ 0 then []
  else
    let first := -(-low / spacing) * spacing
    let count := ((high - first + spacing - 1) / spacing).toNat
    (List.range count).map fun (k : Nat) => first + k * spacing

/-- The style of a grid line; the lines through the origin are darker. -/
def gridStyle (n : Int) : String :=
  if n = 0 then "stroke:gray; stroke-width:2;" else "stroke:lightgray;"

/-- The grid behind a box: upright lines, then level ones. -/
def gridItems (b : Box) (spacing : Int) : List Svg.Item :=
  let line (x1 y1 x2 y2 centre : Int) : Svg.Item :=
    .shape (.path ("M " ++ Svg.int x1 ++ "," ++ Svg.int y1 ++ " L " ++ Svg.int x2 ++ "," ++
      Svg.int y2) (gridStyle centre) "")
  (gridLines b.topLeft.x b.bottomRight.x spacing).map
      (fun x => line x b.topLeft.y x b.bottomRight.y x) ++
    (gridLines b.topLeft.y b.bottomRight.y spacing).map
      (fun y => line b.topLeft.x y b.bottomRight.x y y)

/-- A dashed rectangle along a box. -/
def boxItem (b : Box) (colour : String) (width : Int) (dash : String) : Svg.Item :=
  .shape (.rect b.topLeft.x b.topLeft.y b.width b.height none
    ("stroke:" ++ colour ++ "; stroke-width:" ++ Svg.int width ++ ";") dash)

/-- The boxes of the moves of a walk, if they are to be shown. -/
def moveBoxItems (settings : Settings) (stages : List Stage) : List Svg.Item :=
  if settings.showMoveBounds then
    (stages.filterMap Stage.bounds?).map fun b =>
      boxItem b "blue" (2 * settings.strokeWidth) "2,2"
  else []

/-- The boxes of the whole diagram with and without its margin, if they are to
    be shown. -/
def boxItems (settings : Settings) (outer inner : Box) : List Svg.Item :=
  if settings.showBounds then
    [boxItem outer "red" (3 * settings.strokeWidth) "5,5",
     boxItem inner "green" (3 * settings.strokeWidth) "5,5"]
  else []

/-- The grid of a diagram, if it has one. -/
def gridOf (settings : Settings) (b : Box) : List Svg.Item :=
  match settings.grid with
  | none => []
  | some spacing => gridItems b spacing

/-! ### Diagrams -/

/-- A drawing with the names of its items. -/
structure Diagram where
  document : Svg.Document
  names : Names

namespace Diagram

/-- The diagram of a sequence of steps. -/
def ofSteps (steps : List Step) : Diagram :=
  let prepared := preparedSettings steps
  let stages := walk steps
  let bounds := boundsOf stages
  let outer := bounds.withMargin prepared.marginX prepared.marginY
  let (items, names, last) := placeStages { prepared with bounds := bounds } {} stages
  { names := names
    document :=
      { title := prepared.title
        definitions := definitionsOf steps
        items :=
          moveBoxItems prepared stages ++ items ++ gridOf last bounds ++
            boxItems last outer bounds
        view := outer } }

/-- The diagram itself, if all its counts can be written. Numbering may go on
    from the longest count there is. -/
def checked (d : Diagram) : Except Refusal Diagram :=
  if d.document.items.all Svg.Item.isWritable then .ok d else .error (.overall .unwritable)

/-- The diagram of a text. -/
def ofText (text : String) : Except Refusal Diagram :=
  match expand text with
  | .error d => .error (.located d)
  | .ok steps => (ofSteps steps).checked

/-- The written form of a diagram. -/
def write (d : Diagram) : String :=
  d.document.write

/-- The stems of the names in a diagram, in order of first use. -/
def stems (d : Diagram) : List String :=
  d.names.stems

end Diagram

end IceFigures
