import IceFigures.Text.Numeral

/-!
# Places

Where in the text a move was written: its row and column, both counted from
zero, and for a copy made by a repeat the pass it belongs to. A place names the
drawn elements of its move by a stem.

## Main definitions

* `Place`: A row, a column and perhaps a pass.
* `Place.stem`: The stem of the element names of a place.
-/

namespace IceFigures

/-- Where a move was written, and in which pass of a repeat it is drawn. -/
structure Place where
  row : Nat := 0
  col : Nat := 0
  pass : Option Nat := none
deriving DecidableEq

namespace Place

/-- The same row and column in another pass. -/
def inPass (p : Place) (pass : Option Nat) : Place :=
  { p with pass := pass }

/-- The stem of the element names of a place, as characters. -/
def stemChars (p : Place) : List Char :=
  let base := "r_".toList ++ Nat.toDigits 10 p.row ++ "_c_".toList ++ Nat.toDigits 10 p.col
  match p.pass with
  | none => base
  | some n => base ++ "_x".toList ++ Nat.toDigits 10 n

/-- The stem of the element names of a place. -/
def stem (p : Place) : String :=
  String.ofList p.stemChars

/-- Row and column counted from one, as messages show them. -/
def text (p : Place) : String :=
  String.ofList (Nat.toDigits 10 (p.row + 1) ++ ':' :: Nat.toDigits 10 (p.col + 1))

/-- Whether the row and the column are short enough to be shown. -/
def isWritable (p : Place) : Bool :=
  Text.isWritable (p.row + 1) && Text.isWritable (p.col + 1)

/-- Whether the row, the column and the pass are short enough to be spelled in a
    stem. -/
def hasStem (p : Place) : Bool :=
  Text.isWritable p.row && Text.isWritable p.col && p.pass.all fun n => Text.isWritable n

end Place

end IceFigures
