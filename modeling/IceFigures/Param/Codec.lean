import IceFigures.Param.Reader

/-!
# Parameter Text

The text of a move's parameters is a region of short codes and blanks, followed
perhaps by a bracketed list. `Schema.populate` gives every parameter of a
schema its value: the last one listed for its name, else the detent of its
short code, else its default. `Schema.write` prints the shortest text of that
kind: nothing for a default, signs for a detent and a list for the rest.

## Main definitions

* `shortRuns`: The runs of one sign in a region of short codes.
* `shortLevels`: The level that each run of a region selects.
* `Schema.populate`: The parameters that a text gives to a schema.
* `Schema.write`: The shortest text of parameters.
* `Schema.render`: The same, provided that the parameters fit the schema.
-/

namespace IceFigures

/-- Whether a character may stand in a region of short codes. -/
def isShortChar (c : Char) : Bool :=
  (ShortKind.ofSign? c).isSome || Text.isBlank c

/-- The runs of one sign in a region of short codes, from left to right. -/
def shortRuns (region : List Char) : List (List Char) :=
  (region.splitBy (· == ·)).filter fun run => !run.all Text.isBlank

/-- The levels of runs, added to those of the runs before them. -/
def levelsOfRuns (region : String) (seen : List (ShortKind × Level)) :
    List (List Char) → Except Fault (List (ShortKind × Level))
  | [] => .ok seen
  | run :: rest =>
    match run.head?.bind ShortKind.ofSign? with
    | none => levelsOfRuns region seen rest
    | some kind =>
      if seen.any fun s => s.1 = kind then .error (.conflictingRuns region)
      else
        match Level.ofRun? (run.head? == some kind.up) run.length with
        | none => .error (.runTooLong (String.ofList run))
        | some level => levelsOfRuns region (seen ++ [(kind, level)]) rest

/-- The level that each run of a region selects: two runs at most, of different
    kinds and of three signs at most. -/
def shortLevels (region : List Char) : Except Fault (List (ShortKind × Level)) :=
  let shown := String.ofList (Text.trim region)
  if 2 < (shortRuns region).length then .error (.tooManyRuns shown)
  else levelsOfRuns shown [] (shortRuns region)

namespace Schema

/-- Gives a value to the first field that has one under `pick`. -/
def assign (pick : Field → Option Value) : Schema → List Param → Option (List Param)
  | f :: fs, p :: ps =>
    match pick f with
    | some v => some ({ name := f.name, value := v } :: ps)
    | none => (assign pick fs ps).map (p :: ·)
  | _, _ => none

/-- The value that a level of a kind of short code selects in a field. -/
def detent? (kind : ShortKind) (level : Level) (f : Field) : Option Value :=
  f.short.bind fun s => if s.kind = kind then some (.number (s.detents.value level)) else none

/-- Parameters with the detent of a short code, in the first field that takes it. -/
def setShort (schema : Schema) (ps : List Param) (code : ShortKind × Level) :
    Except Fault (List Param) :=
  match assign (detent? code.1 code.2) schema ps with
  | some ps' => .ok ps'
  | none => .error (.noShortCode code.1)

/-- Parameters with a listed value, in the first field of its name. -/
def setListed (schema : Schema) (ps : List Param) (p : Param) : Except Fault (List Param) :=
  match schema.find? (·.name = p.name) with
  | none => .error (.unknownName p.name)
  | some f =>
    if f.range.accepts p.value then
      .ok ((assign (fun g => if g.name = p.name then some p.value else none) schema ps).getD ps)
    else .error (.unacceptable f.range p.value)

/-- The parameters that a text gives to a schema. -/
def populate (schema : Schema) (cs : List Char) : Except Fault (List Param) := do
  let levels ← shortLevels (cs.takeWhile isShortChar)
  let ps ← levels.foldlM schema.setShort schema.defaults
  let rest := cs.dropWhile isShortChar
  if rest.isEmpty then return ps
  let listed ← parseList rest
  listed.foldlM schema.setListed ps

/-- The short code that a parameter is written as, empty if it is not. -/
def shortOf (f : Field) (p : Param) : List Char :=
  if p.value = f.default then []
  else
    match f.short, p.value with
    | some s, .number n => s.symbols n
    | _, _ => []

/-- Whether a parameter has to be listed by name. -/
def isListed (f : Field) (p : Param) : Bool :=
  p.value != f.default && (shortOf f p).isEmpty

/-- The short codes of parameters. -/
def writeShort (schema : Schema) (ps : List Param) : List Char :=
  (schema.zip ps).flatMap fun (f, p) => shortOf f p

/-- The parameters that have to be listed by name. -/
def listed (schema : Schema) (ps : List Param) : List Param :=
  ((schema.zip ps).filter fun (f, p) => isListed f p).map (·.2)

/-- Parameters as a bracketed list. -/
def writeList (ps : List Param) : List Char :=
  '[' :: [','].intercalate (ps.map Param.chars) ++ [']']

/-- The shortest text of parameters. -/
def write (schema : Schema) (ps : List Param) : List Char :=
  let rest := schema.listed ps
  if rest.isEmpty then schema.writeShort ps else schema.writeShort ps ++ writeList rest

/-- The shortest text of parameters that fit the schema. -/
def render (schema : Schema) (ps : List Param) : Except Fault String :=
  if schema.fits ps then .ok (String.ofList (schema.write ps)) else .error (.schemaMismatch ps)

end Schema

end IceFigures
