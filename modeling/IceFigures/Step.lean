import IceFigures.Move.Reader
import IceFigures.Source.Fragment

/-!
# Steps

A move as one fragment writes it: with the place of the fragment, and in front
of a skated move perhaps a count and a duration in counts.

## Main definitions

* `Step`: A move with its place, count and duration.
* `Step.chars`: The canonical text of a step.
* `Step.read`: The step that a text is.
* `Step.ofFragment`: The step of a fragment, with faults at its place.
* `Step.parse`: The step of a text at a place that is given with it.
* `Step.ofText`: The steps of a whole text, up to the first fault.
* `canonical`: The canonical form of a whole text.
-/

namespace IceFigures

/-- A move as it is written. -/
structure Step where
  move : Move
  place : Option Place := none
  count : Option Nat := none
  duration : Option Nat := none
deriving DecidableEq

namespace Step

/-- The count of a step in front of its move. -/
def countChars : Option Nat → List Char
  | none => []
  | some n => Nat.toDigits 10 n ++ [')', ' ']

/-- The duration of a step in front of its move. -/
def durationChars : Option Nat → List Char
  | none => []
  | some n => '/' :: Nat.toDigits 10 n ++ [' ']

/-- The canonical text of a step, as characters. -/
def chars (s : Step) : List Char :=
  countChars s.count ++ durationChars s.duration ++ s.move.chars

/-- The canonical text of a step. -/
def written (s : Step) : String :=
  String.ofList s.chars

/-- The step at another place. -/
def withPlace (s : Step) (place : Option Place) : Step :=
  { s with place := place }

/-- The step in a pass of a repeat. -/
def inPass (s : Step) (pass : Option Nat) : Step :=
  { s with place := s.place.map fun p => p.inPass pass }

/-- The step on the other foot. -/
def opposite (s : Step) : Step :=
  { s with move := s.move.opposite }

/-- A count at the start of a text, and what follows it. -/
def readCount (cs : List Char) : Except Fault (Option Nat × List Char) :=
  match Text.readDigits? cs with
  | some (digits, ')' :: rest) =>
    (numberOfDigits digits).map fun n => (some n, Text.dropBlanks rest)
  | _ => .ok (none, cs)

/-- A duration at the start of a text, and what follows it. -/
def readDuration : List Char → Except Fault (Option Nat × List Char)
  | '/' :: cs =>
    match Text.readDigits? cs with
    | some (digits, rest) => (numberOfDigits digits).map fun n => (some n, Text.dropBlanks rest)
    | none => .ok (none, '/' :: cs)
  | cs => .ok (none, cs)

/-- The step that a text is, without a place. -/
def read (cs : List Char) : Except Fault Step := do
  let (count, afterCount) ← readCount cs
  let (duration, rest) ← readDuration afterCount
  match readSkated? rest with
  | some result => result.map fun m => { move := m, count := count, duration := duration }
  | none =>
    if count.isSome || duration.isSome then .error (.timedDirective (String.ofList rest))
    else (readDirective rest).map fun m => { move := m }

/-- The step of a fragment, with faults at its place. -/
def ofFragment (f : Fragment) : Except Diagnostic Step :=
  match read f.text.toList with
  | .error fault => .error { place := f.place, fault := fault }
  | .ok s => .ok (s.withPlace (some f.place))

/-- The step of a text that is said to stand at a place, however far away. -/
def parse (place : Place) (text : String) : Except Refusal Step :=
  (ofFragment { place := place, text := text }).mapError Diagnostic.refusal

/-- The steps of a whole text, up to the first fault. -/
def ofText (text : String) : Except Diagnostic (List Step) :=
  (Fragment.ofText text).mapM ofFragment

end Step

/-- The canonical form of a whole text, its steps joined by a separator. -/
def canonical (text separator : String) : Except Diagnostic String :=
  (Step.ofText text).map fun steps => separator.intercalate (steps.map Step.written)

end IceFigures
