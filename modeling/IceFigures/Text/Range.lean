/-!
# Code Point Ranges

Character classes of the notation follow the Unicode character database, so
they are kept as tables of closed ranges of code points. A class is then one
table and one question asked of it.

## Main definitions

* `Range`: A closed range of code points.
* `Range.anyHas`: Whether some range of a table holds a character.
-/

namespace IceFigures

namespace Text

/-- A closed range of code points. -/
structure Range where
  first : Nat
  last : Nat

namespace Range

/-- Whether the range holds the character. -/
def has (r : Range) (c : Char) : Bool :=
  decide (r.first ≤ c.toNat) && decide (c.toNat ≤ r.last)

/-- Whether some range of the table holds the character. -/
def anyHas (table : List Range) (c : Char) : Bool :=
  table.any fun r => r.has c

theorem has_iff (r : Range) (c : Char) : r.has c = true ↔ r.first ≤ c.toNat ∧ c.toNat ≤ r.last := by
  simp [has]

theorem anyHas_iff (table : List Range) (c : Char) :
    anyHas table c = true ↔ ∃ r ∈ table, r.first ≤ c.toNat ∧ c.toNat ≤ r.last := by
  simp [anyHas, has_iff]

end Range

end Text

end IceFigures
