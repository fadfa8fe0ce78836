import IceFigures.Command

/-!
# Command Line

Reads a diagram from a file or from standard input and writes it out. The
options are `--canonical` for the canonical form of the input instead of a
diagram, and `--out` (or `-o`) with the name of a file to write to.
-/

namespace IceFigures

/-- The arguments of a run. -/
structure Arguments where
  file : Option String := none
  out : Option String := none
  canonical : Bool := false

namespace Arguments

/-- The arguments read from left to right; none if they make no sense. -/
def read (sofar : Arguments) : List String → Option Arguments
  | [] => some sofar
  | "--canonical" :: rest => read { sofar with canonical := true } rest
  | "--out" :: name :: rest => read { sofar with out := some name } rest
  | "-o" :: name :: rest => read { sofar with out := some name } rest
  | name :: rest =>
    if name.startsWith "-" || sofar.file.isSome then none
    else read { sofar with file := some name } rest

end Arguments

end IceFigures

open IceFigures in
/-- Runs the command on its arguments. -/
def main (args : List String) : IO UInt32 := do
  match Arguments.read {} args with
  | none =>
    (← IO.getStderr).putStrLn "usage: [input] [--out FILE] [--canonical]"
    return 2
  | some a =>
    let input ←
      match a.file with
      | some name => IO.FS.readFile name
      | none => (← IO.getStdin).readToEnd
    let request : Request :=
      { input := input, file := a.file, toFile := a.out.isSome, canonical := a.canonical }
    match answer request with
    | .error fault =>
      (← IO.getStderr).putStrLn fault.message
      return 1
    | .ok reply =>
      match a.out, reply.written with
      | some name, some text => IO.FS.writeFile name text
      | _, _ => pure ()
      (← IO.getStdout).putStr reply.stdout
      (← IO.getStderr).putStr reply.stderr
      return reply.status.toUInt32
