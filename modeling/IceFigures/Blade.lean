/-!
# Blade States

What a skater stands on at an instant: a foot, a direction of travel and an
edge of the blade, written together as a code such as `LFO` or `BF`.

A code on one foot and one edge curves. Which way follows from three signs, one
for each letter, that multiply: changing the foot, the direction or the edge
each turns the curve around (`Code.turn`). A code on both feet or on the flat
has a zero among its signs and does not curve.

## Main definitions

* `Foot`, `Travel`, `Edge`: The three parts of a code.
* `Code`: A blade state.
* `Code.turn`: The way a code curves, `-1` widdershins, `1` clockwise, `0` if
  it does not curve.
* `Code.read?`: A code at the start of a text and what follows it.

## Theorems

* `Code.opposite_opposite`: Mirroring twice changes nothing.
* `Code.turn_reversed`: A half turn keeps the sense of curving.
* `Code.turn_opposite`: The mirror image curves the other way.
* `Code.read?_letters_append`: A code is read back from its letters.
-/

namespace IceFigures

/-- The skating foot. -/
inductive Foot
  | left
  | right
  | both
deriving DecidableEq

/-- The direction of travel, as seen from the skater's body. -/
inductive Travel
  | forward
  | backward
deriving DecidableEq

/-- The edge of the blade. -/
inductive Edge
  | outside
  | inside
  | flat
deriving DecidableEq

namespace Foot

/-- The foot seen in a mirror. -/
def opposite : Foot → Foot
  | left => right
  | right => left
  | both => both

/-- The letter of a foot. -/
def letter : Foot → Char
  | left => 'L'
  | right => 'R'
  | both => 'B'

/-- The foot that a letter stands for. -/
def ofLetter? : Char → Option Foot
  | 'L' => some left
  | 'R' => some right
  | 'B' => some both
  | _ => none

/-- The side of the body a foot is on. -/
def sign : Foot → Int
  | left => -1
  | right => 1
  | both => 0

end Foot

namespace Travel

/-- The other direction of travel. -/
def opposite : Travel → Travel
  | forward => backward
  | backward => forward

/-- The letter of a direction of travel. -/
def letter : Travel → Char
  | forward => 'F'
  | backward => 'B'

/-- The direction of travel that a letter stands for. -/
def ofLetter? : Char → Option Travel
  | 'F' => some forward
  | 'B' => some backward
  | _ => none

/-- One for forward, minus one for backward. -/
def sign : Travel → Int
  | forward => 1
  | backward => -1

end Travel

namespace Edge

/-- The other edge of the same blade; the flat is its own. -/
def opposite : Edge → Edge
  | outside => inside
  | inside => outside
  | flat => flat

/-- The letters of an edge; the flat is written as nothing. -/
def letters : Edge → List Char
  | outside => ['O']
  | inside => ['I']
  | flat => []

/-- The edge that a letter stands for. -/
def ofLetter? : Char → Option Edge
  | 'O' => some outside
  | 'I' => some inside
  | _ => none

/-- The side of the blade an edge is on. -/
def sign : Edge → Int
  | outside => 1
  | inside => -1
  | flat => 0

end Edge

/-- A blade state: foot, direction of travel and edge. -/
structure Code where
  foot : Foot
  travel : Travel
  edge : Edge := .flat
deriving DecidableEq

namespace Code

/-- The letters of a code. -/
def letters (c : Code) : List Char :=
  c.foot.letter :: c.travel.letter :: c.edge.letters

/-- The text of a code. -/
def text (c : Code) : String :=
  String.ofList c.letters

/-- The same step on the other foot. -/
def opposite (c : Code) : Code :=
  { c with foot := c.foot.opposite }

/-- The code on the other side of a half turn: the other direction of travel
    and the other edge of the same foot. -/
def reversed (c : Code) : Code :=
  { c with travel := c.travel.opposite, edge := c.edge.opposite }

/-- Which way a code curves: towards the skater's left (`-1`, widdershins),
    right (`1`, clockwise) or not at all (`0`). -/
def turn (c : Code) : Int :=
  c.foot.sign * c.travel.sign * c.edge.sign

/-- Both feet forward, where every walk begins. -/
def start : Code :=
  { foot := .both, travel := .forward }

/-- The edge at the start of a text, flat if there is no letter of one. -/
def readEdge : List Char → Edge × List Char
  | [] => (.flat, [])
  | c :: cs =>
    match Edge.ofLetter? c with
    | some e => (e, cs)
    | none => (.flat, c :: cs)

/-- A code at the start of a text and what follows it. -/
def read? : List Char → Option (Code × List Char)
  | f :: t :: cs =>
    match Foot.ofLetter? f, Travel.ofLetter? t with
    | some foot, some travel =>
      some ({ foot := foot, travel := travel, edge := (readEdge cs).1 }, (readEdge cs).2)
    | _, _ => none
  | _ => none

theorem opposite_opposite (c : Code) : c.opposite.opposite = c := by
  rcases c with ⟨_ | _ | _, _, _⟩ <;> rfl

theorem reversed_reversed (c : Code) : c.reversed.reversed = c := by
  rcases c with ⟨_, _ | _, _ | _ | _⟩ <;> rfl

theorem turn_reversed (c : Code) : c.reversed.turn = c.turn := by
  rcases c with ⟨_ | _ | _, _ | _, _ | _ | _⟩ <;> rfl

theorem turn_opposite (c : Code) : c.opposite.turn = -c.turn := by
  rcases c with ⟨_ | _ | _, _ | _, _ | _ | _⟩ <;> rfl

theorem read?_letters_append (c : Code) (rest : List Char)
    (h : c.edge = .flat → ∀ x ∈ rest.head?, Edge.ofLetter? x = none) :
    read? (c.letters ++ rest) = some (c, rest) := by
  rcases c with ⟨_ | _ | _, _ | _, _ | _ | _⟩ <;> first
    | rfl
    | (cases rest with
       | nil => rfl
       | cons x xs =>
         have hx := h rfl x rfl
         simp [read?, letters, readEdge, Foot.letter, Travel.letter, Edge.letters,
           Foot.ofLetter?, Travel.ofLetter?, hx])

end Code

end IceFigures
