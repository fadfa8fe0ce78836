import IceFigures.Diagram

/-!
# The Command

What a run of the program does with its input: it writes a diagram, or the
canonical form of the input one step to a line, or a message about the first
fault. Only one of standard output, the output file and the error stream gets
anything.

## Main definitions

* `Request`: What a run is asked to do.
* `Reply`: What a run answers.
* `plainLines`: A text with all line ends written alike.
* `answer`: The answer to a request.
-/

namespace IceFigures

/-- What a run is asked to do. -/
structure Request where
  input : String
  /-- The name of the input file, none for standard input. -/
  file : Option String := none
  /-- Whether the output goes to a file. -/
  toFile : Bool := false
  canonical : Bool := false

/-- What a run answers. -/
structure Reply where
  status : Nat
  stdout : String := ""
  stderr : String := ""
  written : Option String := none
deriving DecidableEq

/-- A text with every carriage return, alone or before a line feed, made a line
    feed. -/
def plainLines : List Char → List Char
  | [] => []
  | '\r' :: '\n' :: cs => '\n' :: plainLines cs
  | '\r' :: cs => '\n' :: plainLines cs
  | c :: cs => c :: plainLines cs

/-- What a request asks for, or the first fault of its input. -/
def outputOf (r : Request) : Except Refusal String :=
  let text := String.ofList (plainLines r.input.toList)
  if r.canonical then ((canonical text "\n").map (· ++ "\n")).mapError .located
  else (Diagram.ofText text).map Diagram.write

/-- The answer to a request. A fault without a place is nothing that the answer
    could point to, and is left to the caller. -/
def answer (r : Request) : Except Fault Reply :=
  match outputOf r with
  | .error (.overall f) => .error f
  | .error (.located d) =>
    .ok { status := 1, stderr := r.file.getD "<stdin>" ++ ":" ++ d.text ++ "\n" }
  | .ok output =>
    .ok (if r.toFile then { status := 0, written := some output }
      else { status := 0, stdout := output })

end IceFigures
