import IceFigures.Move

/-!
# Reading Moves

A skated move is written as footwork, a code, a suffix and parameters; a
directive as a sign or a keyword and parameters. What a suffix may be depends
on the code: a flat is glided or hopped on, and everything else starts on an
edge. Suffixes are tried in a fixed order, and a code without a known suffix is
an edge on its own.

Parameters are read before the move is checked, so a fault in them is reported
first.

## Main definitions

* `fixedSuffixes`: The suffixes without a number, in the order they are tried.
* `readHalfTurns?`: The number of turns of a twizzle.
* `readJump?`: The suffix of a jump.
* `readFlatMove`, `readEdgeMove`: What follows a code.
* `readSkated`: A skated move.
* `directives`: The directives with keywords, in the order they are tried.
* `readDirective`: A directive.
-/

namespace IceFigures

/-- The suffixes without a number, in the order in which they are tried. -/
def fixedSuffixes : List (List Char × FigureKind) :=
  [(Turn.three.suffix, .turn .three),
   (FootChange.openMohawk.suffix, .footChange .openMohawk),
   (FootChange.closedMohawk.suffix, .footChange .closedMohawk),
   (Turn.bracket.suffix, .turn .bracket),
   (Turn.rocker.suffix, .turn .rocker),
   (Turn.counter.suffix, .turn .counter),
   (FootChange.openChoctaw.suffix, .footChange .openChoctaw),
   (FootChange.closedChoctaw.suffix, .footChange .closedChoctaw),
   (FigureKind.changeOfEdge.suffix, .changeOfEdge),
   (['-', 'C', 'O', 'E'], .changeOfEdge)]

/-- A figure whose suffix has no number, and what follows the suffix. -/
def readFixedSuffix? (cs : List Char) : Option (FigureKind × List Char) :=
  fixedSuffixes.findSome? fun entry => (List.isPrefixOf? entry.1 cs).map (entry.2, ·)

/-- A number of turns in half-turns, and what follows it: a whole number that
    starts with no zero, then perhaps `.5`. -/
def readHalfTurns? (cs : List Char) : Option (Except Fault Nat × List Char) :=
  match cs with
  | [] => none
  | c :: _ =>
    if Text.isAsciiDigit c && c != '0' then
      let whole := numberOfDigits (cs.takeWhile Text.isAsciiDigit)
      let rest := cs.dropWhile Text.isAsciiDigit
      match List.isPrefixOf? ['.', '5'] rest with
      | some rest' => some (whole.map fun n => 2 * n + 1, rest')
      | none => some (whole.map fun n => 2 * n, rest)
    else none

/-- A jump with its number of rotations, and what follows it. -/
def readJump? : List Char → Option (FigureKind × List Char)
  | '-' :: d :: cs =>
    if Text.isAsciiDigit d && d != '0' then
      (Jump.read? cs).map fun (j, rest) => (.jump j (Text.ofDigits [d]), rest)
    else none
  | _ => none

/-- A part on a code with the parameters that a text gives it. -/
def readPart (schema : Schema) (build : List Param → Part) (cs : List Char) :
    Except Fault Move := do
  let ps ← schema.populate cs
  (Move.part (build ps)).checked

/-- A figure on an entry code with the parameters that a text gives it. -/
def readFigure (footwork : Footwork) (entry : Code) (kind : FigureKind) (cs : List Char) :
    Except Fault Move := do
  let ps ← Schema.populate kind.profile.schema cs
  (Move.figure (.ofValues kind entry ps footwork)).checked

/-- What follows a code on the flat. -/
def readFlatMove (footwork : Footwork) (code : Code) (cs : List Char) : Except Fault Move :=
  match List.isPrefixOf? Hop.suffix cs with
  | some rest => readPart Hop.profile.schema (fun ps => .hop (.ofParams footwork code ps)) rest
  | none =>
    readPart Straight.profile.schema (fun ps => .straight (.ofParams footwork code ps)) cs

/-- What follows a code on an edge. -/
def readEdgeMove (footwork : Footwork) (code : Code) (cs : List Char) : Except Fault Move :=
  match readFixedSuffix? cs with
  | some (kind, rest) => readFigure footwork code kind rest
  | none =>
    match List.isPrefixOf? twizzleMark cs with
    | some rest =>
      match readHalfTurns? rest with
      | some (turns, rest') => turns.bind fun n => readFigure footwork code (.twizzle n) rest'
      | none => .error (.noTurnCount (String.ofList cs))
    | none =>
      match readJump? cs with
      | some (kind, rest) => readFigure footwork code kind rest
      | none =>
        match List.isPrefixOf? FigureKind.loop.suffix cs with
        | some rest => readFigure footwork code .loop rest
        | none =>
          readPart Curve.profile.schema (fun ps => .curve (.ofParams footwork code ps)) cs

/-- A skated move; nothing if the text does not start with a code. -/
def readSkated? (cs : List Char) : Option (Except Fault Move) :=
  let (footwork, rest) := Footwork.read cs
  match Code.read? rest with
  | none => if footwork = .normal then none else some (.error (.noCode footwork))
  | some (code, rest') =>
    some (if code.edge = .flat then readFlatMove footwork code rest'
      else readEdgeMove footwork code rest')

/-- A directive with the parameters that a text gives it. -/
def readKeyword (schema : Schema) (build : List Param → Except Fault Move) (cs : List Char) :
    Except Fault Move := do
  let ps ← schema.populate cs
  let m ← build ps
  m.checked

/-- The directives with keywords, in the order in which they are tried. -/
def directives : List (List Char × Schema × (List Param → Except Fault Move)) :=
  [(Warp.keyword, Warp.profile.schema, fun ps => (Warp.ofParams ps).map .warp),
   (Shift.keyword, Shift.profile.schema, fun ps => (Shift.ofParams ps).map fun s =>
      .part (.shift s)),
   (Rink.keyword, Rink.profile.schema, fun ps => .ok (.rink (.ofParams ps))),
   (Info.keyword, Info.profile.schema, fun ps => .ok (.info (.ofParams ps))),
   (Title.keyword, Title.profile.schema, fun ps => .ok (.title (.ofParams ps))),
   (FixedText.keyword, FixedText.profile.schema, fun ps => .ok (.text (.ofParams ps))),
   (Label.keyword, Label.profile.schema, fun ps => .ok (.part (.label (.ofParams ps)))),
   (repeatStartKeyword, repeatStartProfile.schema, fun _ => .ok .repeatStart),
   (RepeatEnd.keyword, RepeatEnd.profile.schema, fun ps => .ok (.repeatEnd (.ofParams ps)))]

/-- The first directive whose keyword starts a text, and what follows it. -/
def readKeywordMove? (cs : List Char) : Option (Except Fault Move) :=
  directives.findSome? fun (keyword, schema, build) =>
    (List.isPrefixOf? keyword cs).map (readKeyword schema build)

/-- A directive, written as a repeat sign or with a keyword. -/
def readDirective (cs : List Char) : Except Fault Move :=
  if cs = startSign then .ok .repeatStart
  else
    match RepeatEnd.read? cs with
    | some mark => mark.bind fun e => (Move.repeatEnd e).checked
    | none => (readKeywordMove? cs).getD (.error (.unrecognized (String.ofList cs)))

end IceFigures
