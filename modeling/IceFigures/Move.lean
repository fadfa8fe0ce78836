import IceFigures.Directive.Caption
import IceFigures.Directive.Info
import IceFigures.Directive.RepeatMark
import IceFigures.Directive.Rink
import IceFigures.Directive.Warp
import IceFigures.Figure

/-!
# Moves

Everything that one fragment of a diagram can say: a part on its own, a figure,
or a directive that places the skater, draws something fixed, sets up the
diagram or marks a repeat.

A move is plain data. `Move.fault?` tells whether it can be skated, and
`Move.checked` also asks whether its numbers are small enough for an end to be
found and for the move to be written; what it does to the skater and what it
draws is defined for every move.

## Main definitions

* `Move`: A move.
* `profiles`: The descriptions of all kinds of moves.
* `Move.fault?`: What is wrong with a move.
* `Move.isFinite`, `Move.isWritable`: Whether the numbers of a move are small enough.
* `Move.checked`: The move itself, if it can be skated and written.
* `Move.text`: The canonical text of a move.
* `Move.opposite`: The same move on the other foot.
* `Move.entering`, `Move.effect`: What a move does to the skater.
* `Move.bounds?`: The box of a move, if it has one.
* `Move.definitions`, `Move.draw`: What a move draws.
* `partsFault?`: Why moves cannot follow one another within one figure.
-/

namespace IceFigures

/-- A step, figure or directive of a diagram. -/
inductive Move
  | part (p : Part)
  | figure (f : Figure)
  | warp (w : Warp)
  | rink (r : Rink)
  | info (i : Info)
  | title (t : Title)
  | text (t : FixedText)
  | repeatStart
  | repeatEnd (e : RepeatEnd)
deriving DecidableEq

/-- The profiles of all kinds of moves, skated ones first. -/
def profiles : List Profile :=
  [Curve.profile, Straight.profile, Hop.profile, Turn.profile .three, Turn.profile .bracket,
   Turn.profile .rocker, Turn.profile .counter, FootChange.profile .openMohawk,
   FootChange.profile .closedMohawk, FootChange.profile .openChoctaw,
   FootChange.profile .closedChoctaw, FigureKind.profile .changeOfEdge, FigureKind.profile .loop,
   FigureKind.profile (.twizzle 2), Jump.profile .salchow, Jump.profile .toeLoop,
   Jump.profile .loop, Jump.profile .flip, Jump.profile .axel, Jump.profile .lutz, Warp.profile,
   Shift.profile, Rink.profile, Info.profile, Title.profile, FixedText.profile, Label.profile,
   repeatStartProfile, RepeatEnd.profile]

namespace Move

/-- The description of the move's kind. -/
def profile : Move → Profile
  | part p => p.profile
  | figure f => f.profile
  | warp _ => Warp.profile
  | rink _ => Rink.profile
  | info _ => Info.profile
  | title _ => Title.profile
  | text _ => FixedText.profile
  | repeatStart => repeatStartProfile
  | repeatEnd _ => RepeatEnd.profile

/-- What is wrong with a move, if anything. -/
def fault? : Move → Option Fault
  | part p => p.fault?
  | figure f => f.fault?
  | repeatEnd e => e.fault?
  | _ => none

/-- The parameters of a move, in the order of its schema. -/
def params : Move → List Param
  | part p => p.params
  | figure f => f.values
  | warp w => w.params
  | rink r => r.params
  | info i => i.params
  | title t => t.params
  | text t => t.params
  | repeatStart => []
  | repeatEnd e => e.params

/-- Whether every number that a move is written or drawn with is short enough to
    be written. -/
def isWritable : Move → Bool
  | part p => p.isWritable
  | figure f => f.isWritable
  | rink r => Param.areWritable r.params && r.isWritable
  | m => Param.areWritable m.params

/-- Whether a move has an end for others to follow on. -/
def isFinite : Move → Bool
  | part p => p.isFinite
  | figure f => f.isFinite
  | _ => true

/-- The move itself, if nothing is wrong with it, it has an end and it can be written. -/
def checked (m : Move) : Except Fault Move :=
  match m.fault? with
  | some fault => .error fault
  | none =>
    if !m.isFinite then .error .unboundedAngle
    else if m.isWritable then .ok m
    else .error .unwritable

/-- The canonical text of a move, as characters. -/
def chars : Move → List Char
  | part p => p.chars
  | figure f => f.chars
  | warp w => Warp.keyword ++ Schema.write Warp.profile.schema w.params
  | rink r => r.chars
  | info i => Info.keyword ++ Schema.write Info.profile.schema i.params
  | title t => Title.keyword ++ Schema.write Title.profile.schema t.params
  | text t => FixedText.keyword ++ Schema.write FixedText.profile.schema t.params
  | repeatStart => startSign
  | repeatEnd e => e.chars

/-- The canonical text of a move. -/
def written (m : Move) : String :=
  String.ofList m.chars

/-- The same move on the other foot. Directives that do not move the skater
    have no foot to change. -/
def opposite : Move → Move
  | part p => part p.opposite
  | figure f => figure f.opposite
  | warp w => warp w.opposite
  | m => m

/-- Whether the move takes up a number when moves are numbered. -/
def isVisible (m : Move) : Bool :=
  m.profile.visible

/-! ### Effect on the skater -/

/-- The code that a skated move starts on. -/
def start? : Move → Option Code
  | part p => p.code?
  | figure f => f.start?
  | _ => none

/-- The code that a skated move ends on. -/
def exit? : Move → Option Code
  | part p => p.code?
  | figure f => f.exit?
  | _ => none

/-- The footwork onto a move, coming off a code. -/
def entering (old : Code) : Move → Effect
  | part p => p.entering old
  | figure f => f.entering old
  | _ => .nothing

/-- What a move does to the skater, once it has been stepped onto. -/
def effect : Move → Effect
  | part p => p.effect
  | figure f => f.effect
  | warp w => w.effect
  | _ => .nothing

/-- The box of a move started by a skater, if it has one. -/
def bounds? (before : Skater) : Move → Option Box
  | part p => p.bounds? before
  | figure f => f.bounds? before
  | warp w => some (.ofPoint w.target)
  | rink r => some r.bounds
  | text t => some (.ofPoint t.pos)
  | _ => none

/-- The parts that a move is skated as. -/
def parts : Move → List Part
  | part p => [p]
  | figure f => f.parts
  | _ => []

/-! ### Drawing -/

/-- Settings that a move establishes before anything is drawn. -/
def prepare (s : Settings) : Move → Settings
  | info i => i.prepare s
  | title t => t.prepare s
  | _ => s

/-- Settings in force from a move onwards. -/
def configure (s : Settings) : Move → Settings
  | info i => i.configure s
  | _ => s

/-- The definitions that a move uses or supplies. -/
def definitions : Move → List Svg.Definition
  | part p => p.definitions
  | figure f => f.definitions
  | rink r => [r.definition]
  | info i => i.definitions
  | _ => []

/-- The labels that go with a move itself, in its own frame. -/
def labels (settings : Settings) : Move → List PartLabel
  | part p => p.labels settings
  | _ => []

/-- The items that a move puts on the page. -/
def draw (before : Skater) (settings : Settings) : Move → List Svg.Item
  | part p => p.draw before settings
  | figure f => f.draw before settings
  | rink r => [r.draw settings]
  | title t => [t.draw settings]
  | text t => [t.draw settings]
  | _ => []

end Move

/-- Why moves cannot follow one another within one figure, if they cannot: there
    are fewer than two, the first is not skated, or a later one does not depend
    on where the one before it ended. -/
def partsFault? (ms : List Move) : Option Fault :=
  match ms with
  | first :: later@(_ :: _) =>
    if first.start?.isNone then some (.directiveFirst first.written)
    else (later.find? fun m => m.effect.isAbsolute).map fun m => .absolutePart m.written
  | _ => some (.tooFewParts ms.length)

end IceFigures
