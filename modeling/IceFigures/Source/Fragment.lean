import IceFigures.Source.Place
import IceFigures.Text.Blank

/-!
# Fragments

A diagram is written as fragments, each holding one move. Fragments end at a
line end or a semicolon, and from a `#` to the end of its line everything is a
comment. Blanks around a fragment do not belong to it, and a stretch of blanks
alone is no fragment.

## Main definitions

* `Fragment`: A trimmed piece of text and where it starts.
* `Fragment.ofPieces`: The fragments of the pieces of one line.
* `Fragment.ofLine`: The fragments of one line.
* `Fragment.ofText`: The fragments of a whole text.
-/

namespace IceFigures

/-- The text of one move and where it starts. -/
structure Fragment where
  place : Place
  text : String
deriving DecidableEq

namespace Fragment

/-- The fragments of the pieces of a line, the first piece starting at `col`. -/
def ofPieces (row : Nat) : Nat → List (List Char) → List Fragment
  | _, [] => []
  | col, piece :: rest =>
    let body := Text.trim piece
    let lead := (piece.takeWhile Text.isBlank).length
    let later := ofPieces row (col + piece.length + 1) rest
    if body.isEmpty then later
    else { place := { row := row, col := col + lead }, text := String.ofList body } :: later

/-- The fragments of one line. -/
def ofLine (row : Nat) (line : List Char) : List Fragment :=
  ofPieces row 0 ((line.takeWhile (· ≠ '#')).splitOn ';')

/-- The fragments of lines, the first of them being line `row`. -/
def ofLines : Nat → List (List Char) → List Fragment
  | _, [] => []
  | row, line :: rest => ofLine row line ++ ofLines (row + 1) rest

/-- The fragments of a whole text. -/
def ofText (text : String) : List Fragment :=
  ofLines 0 (text.toList.splitOn '\n')

end Fragment

end IceFigures
