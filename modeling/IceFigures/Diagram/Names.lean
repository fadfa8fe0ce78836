import IceFigures.Fault
import IceFigures.Svg.Shape

/-!
# Names of Drawn Items

Every item drawn for a move that was written somewhere gets a name from the
place of the move. The first item of a place takes the bare stem; the following
ones number themselves from two.

## Main definitions

* `Names`: How often each place has given a name, in order of first use.
* `Names.next`: The next name of a place.
* `Names.issue`: The next name of a place, if it can be spelled.
* `Names.stems`: The stems of all places used so far.
* `nameItems`: Items named one after another from one place.
-/

namespace IceFigures

/-- How often each place has given a name, in order of first use. -/
structure Names where
  uses : List (Place × Nat) := []
deriving DecidableEq

namespace Names

/-- How often a place has given a name. -/
def count (names : Names) (p : Place) : Nat :=
  ((names.uses.find? fun u => u.1 = p).map (·.2)).getD 0

/-- One more use of a place. -/
def bump (p : Place) : List (Place × Nat) → List (Place × Nat)
  | [] => [(p, 1)]
  | u :: us => if u.1 = p then (p, u.2 + 1) :: us else u :: bump p us

/-- The name that a place gives at its n-th use. -/
def nameAt (p : Place) (n : Nat) : List Char :=
  if n = 1 then p.stemChars else p.stemChars ++ "_n".toList ++ Nat.toDigits 10 n

/-- The next name of a place. -/
def next (names : Names) (p : Place) : String × Names :=
  (String.ofList (nameAt p (names.count p + 1)), { uses := bump p names.uses })

/-- The next name of a place that is given from outside, unless it is too far
    away for a stem. Whatever is drawn takes its names with `next`. -/
def issue (names : Names) (p : Place) : Except Fault (String × Names) :=
  if p.hasStem then .ok (names.next p) else .error .unwritable

/-- The names of places that are given one after another. -/
def issueAll : Names → List Place → Except Fault (List String × Names)
  | names, [] => .ok ([], names)
  | names, p :: ps => do
    let (name, names') ← names.issue p
    let (rest, last) ← issueAll names' ps
    return (name :: rest, last)

/-- The stems of all places used so far, in order of first use. -/
def stems (names : Names) : List String :=
  names.uses.map fun u => u.1.stem

end Names

/-- Items named one after another from one place. -/
def nameItemsFrom (p : Place) : Names → List Svg.Item → List Svg.Item × Names
  | names, [] => ([], names)
  | names, i :: is =>
    let (name, names') := names.next p
    let (rest, last) := nameItemsFrom p names' is
    ({ i with name := some name } :: rest, last)

/-- Items named from the place of their move; without a place they stay as they
    are. -/
def nameItems (place : Option Place) (names : Names) (items : List Svg.Item) :
    List Svg.Item × Names :=
  match place with
  | none => (items, names)
  | some p => nameItemsFrom p names items

end IceFigures
