import IceFigures.Blade
import IceFigures.Footwork
import IceFigures.Param.Schema
import IceFigures.Source.Place

/-!
# Faults

Everything that can be wrong with a diagram, as causes. The wording of each
cause is given once, in `Fault.wording`; a message quotes the text at fault as
`Text.quoted` shows it. Where a number in it is too long to be written, that is
what the message says instead.

A fault on its own does not know where it arose. A `Diagnostic` is a fault at a
place of the text.

## Main definitions

* `Fault`: The causes for which a text is refused.
* `Fault.wording`: The wording of a cause whose numbers can be written.
* `Fault.message`: What a cause is reported as.
* `numberOfDigits`: The number of a run of digits, unless there are too many.
* `Diagnostic`: A fault at a place.
* `Diagnostic.text`: The wording with row and column in front.
* `Refusal`: Why something is refused.
* `Place.shown`: A place as messages show it, unless it is too far away.
* `Diagnostic.refusal`: A fault at a place, unless the place cannot be shown.
-/

namespace IceFigures

/-- The causes for which a text or a figure is refused. -/
inductive Fault
  -- Numbers
  | tooManyDigits (count : Nat)
  | unwritable
  | unboundedAngle
  | notNumeric (text : String)
  -- Values and lists of parameters
  | numberTooLarge (digits : String)
  | noValue (rest : String)
  | textAfterValue (text : String)
  | noList (text : String)
  | noName (rest : String)
  | noEquals (name : String)
  | noSeparator (rest : String)
  | textAfterList (rest : String)
  -- Parameters of a schema
  | tooManyRuns (region : String)
  | conflictingRuns (region : String)
  | runTooLong (run : String)
  | noShortCode (kind : ShortKind)
  | unknownName (name : String)
  | unacceptable (range : Range) (value : Value)
  | schemaMismatch (params : List Param)
  | figureMismatch (params : List Param) (figure : String)
  -- Codes and figures
  | invalidCode (text : String)
  | notCurving (code : Code)
  | notFlat (code : Code)
  | hopOffFlat (code : Code)
  | illegalEntry (code : Code) (figure : String)
  | tooFewHalfTurns (count : Int)
  | rotationsOutOfRange (count : Int)
  | tooFewParts (count : Nat)
  | directiveFirst (move : String)
  | absolutePart (move : String)
  -- Moves
  | noCode (footwork : Footwork)
  | noTurnCount (rest : String)
  | timedDirective (rest : String)
  | unrecognized (text : String)
  -- Repeats
  | unmatchedEnd
  | unmatchedStart
deriving DecidableEq

namespace Fault

/-- The most digits of a number as messages speak of it. -/
def digitLimit : String :=
  "Exceeds the limit (" ++ toString Text.maxDigits ++ " digits) for integer string conversion"

/-- What messages suggest about the most digits of a number. -/
def digitAdvice : String :=
  "; use sys.set_int_max_str_digits() to increase the limit"

/-- The numbers that a cause speaks of and that may have any size. -/
def numbers : Fault → List Int
  | unacceptable _ (.number n) | tooFewHalfTurns n | rotationsOutOfRange n => [n]
  | schemaMismatch params | figureMismatch params _ =>
    params.filterMap fun p =>
      match p.value with
      | .number n => some n
      | _ => none
  | _ => []

/-- The wording of a cause whose numbers can be written. -/
def wording : Fault → String
  | tooManyDigits count =>
    digitLimit ++ ": value has " ++ toString count ++ " digits" ++ digitAdvice
  | unwritable => digitLimit ++ digitAdvice
  | unboundedAngle => "math domain error"
  | notNumeric text => "invalid literal for int() with base 10: " ++ Text.quotedStart 200 text
  | numberTooLarge digits => "Number out of range: " ++ Text.quoted digits
  | noValue rest => "Invalid parameter value at " ++ Text.quoted rest
  | textAfterValue text => "Invalid parameter value: " ++ Text.quoted text
  | noList text => "Expected '[' at " ++ Text.quoted text
  | noName rest => "Expected parameter name at " ++ Text.quoted rest
  | noEquals name => "Expected '=' after parameter " ++ Text.quoted name
  | noSeparator rest => "Expected ',' or ']' at " ++ Text.quoted rest
  | textAfterList rest => "Unexpected text after parameters: " ++ Text.quoted rest
  | tooManyRuns region => "Too many short codes: " ++ Text.quoted region
  | conflictingRuns region => "Conflicting short codes: " ++ Text.quoted region
  | runTooLong run => "Short code too long: " ++ Text.quoted run
  | noShortCode kind =>
    "No parameter takes " ++ Text.quoted kind.up.toString ++ "/" ++ Text.quoted kind.down.toString
      ++ " short codes"
  | unknownName name => "Unknown parameter " ++ Text.quoted name
  | unacceptable range value => range.complaint value
  | schemaMismatch params => "Parameters " ++ Param.listedAll params ++ " do not match schema"
  | figureMismatch params figure =>
    "Parameters " ++ Param.listedAll params ++ " do not match " ++ figure
  | invalidCode text => "Invalid code: " ++ Text.quoted text
  | notCurving code => code.text ++ " is not a curving edge"
  | notFlat code => code.text ++ " is not a flat"
  | hopOffFlat code => "Hop must be written on a flat, not " ++ code.text
  | illegalEntry code figure => code.text ++ " is not a valid entry edge for " ++ figure
  | tooFewHalfTurns count =>
    "Twizzle needs at least 2 half-turns, got " ++ String.ofList (Text.decimal count)
  | rotationsOutOfRange count =>
    String.ofList (Text.decimal count) ++ " rotations out of range, must be 1-4"
  | tooFewParts count =>
    "Compound move needs at least 2 parts, got " ++ String.ofList (Text.decimal count)
  | directiveFirst move => "Compound move must start with a skating move, not " ++ move
  | absolutePart move => "Only the first part of a compound move may be absolute: " ++ move
  | noCode footwork => "Expected a code after " ++ Text.quoted (String.ofList footwork.mark)
  | noTurnCount rest => "Expected a turn count after '-Tw' in " ++ Text.quoted rest
  | timedDirective rest => "Count and duration only apply to skating moves: " ++ Text.quoted rest
  | unrecognized text => "Unrecognized move " ++ Text.quoted text
  | unmatchedEnd => "found end of repeat when no repeat in progress!"
  | unmatchedStart => "found end of input with repeat still pending!"

/-- The wording of a cause, or of its numbers being too long to be written. -/
def message (f : Fault) : String :=
  if f.numbers.all Text.isWritable then f.wording else unwritable.wording

end Fault

/-- The number that a run of digits stands for, unless there are too many. -/
def numberOfDigits (digits : List Char) : Except Fault Nat :=
  if Text.maxDigits < digits.length then .error (.tooManyDigits digits.length)
  else .ok (Text.ofDigits digits)

/-- A fault at a place of the text. -/
structure Diagnostic where
  place : Place
  fault : Fault
deriving DecidableEq

namespace Diagnostic

/-- The wording of a fault with its row and column in front. -/
def text (d : Diagnostic) : String :=
  d.place.text ++ ": " ++ d.fault.message

end Diagnostic

/-- Why something is refused: a fault at a place of the text, or a fault of the
    whole. -/
inductive Refusal
  | located (d : Diagnostic)
  | overall (f : Fault)
deriving DecidableEq

/-- Row and column as messages show them, unless the place is too far away. -/
def Place.shown (p : Place) : Except Fault String :=
  if p.isWritable then .ok p.text else .error .unwritable

/-- A fault at a place that cannot be shown is a fault of the whole. -/
def Diagnostic.refusal (d : Diagnostic) : Refusal :=
  match d.place.shown with
  | .ok _ => .located d
  | .error fault => .overall fault

/-- The code that a whole text is. -/
def Code.parse (text : String) : Except Fault Code :=
  match Code.read? text.toList with
  | some (c, []) => .ok c
  | _ => .error (.invalidCode text)

end IceFigures
