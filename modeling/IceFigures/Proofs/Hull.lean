import IceFigures.Plane.Box
import Mathlib.Data.List.Induction
import Mathlib.Order.Bounds.Basic

/-!
# The Hull of Boxes

The boxes of a diagram are taken together one after another. What comes out is the
hull of them all: on each of its four sides it reaches as far as one of the boxes
does, and no box reaches further. There is only one such box, so it does not matter
in which order the boxes are taken (`Box.unionAll_of_perm`).

Taking in a box means taking in two of its corners. This is enough because the boxes
are the right way round, their left side being on the left and their top at the top.
Boxes that begin at a point and grow from there always are.

## Main definitions

* `Box.Ordered`: A box that is the right way round.
* `Box.Encloses`: A box that reaches at least as far as another on every side.
* `Box.IsHull`: The least box around boxes.

## Theorems

* `Box.isHull_unionAll`: Boxes taken together are their hull.
* `Box.IsHull.unique`: There is one hull at most.
* `Box.unionAll_of_perm`: The order does not matter.
* `Box.encloses_unionAll_append`: More boxes make a larger box.
-/

namespace IceFigures

namespace Box

/-- A box whose left side is on the left and whose top is at the top. -/
structure Ordered (b : Box) : Prop where
  horizontal : b.topLeft.x ≤ b.bottomRight.x
  vertical : b.topLeft.y ≤ b.bottomRight.y

/-- A box that reaches at least as far as another on every side. -/
structure Encloses (b c : Box) : Prop where
  left : b.topLeft.x ≤ c.topLeft.x
  top : b.topLeft.y ≤ c.topLeft.y
  right : c.bottomRight.x ≤ b.bottomRight.x
  bottom : c.bottomRight.y ≤ b.bottomRight.y

/-- The least box around boxes: each of its sides is the outermost one of theirs. -/
structure IsHull (boxes : List Box) (hull : Box) : Prop where
  left : IsLeast {x | ∃ b ∈ boxes, b.topLeft.x = x} hull.topLeft.x
  top : IsLeast {y | ∃ b ∈ boxes, b.topLeft.y = y} hull.topLeft.y
  right : IsGreatest {x | ∃ b ∈ boxes, b.bottomRight.x = x} hull.bottomRight.x
  bottom : IsGreatest {y | ∃ b ∈ boxes, b.bottomRight.y = y} hull.bottomRight.y

/-! ### Boxes that grow -/

theorem ordered_ofPoint (p : Point) : (ofPoint p).Ordered :=
  ⟨Int.le_refl p.x, Int.le_refl p.y⟩

theorem Ordered.cover {b : Box} (h : b.Ordered) (p : Point) : (b.cover p).Ordered where
  horizontal :=
    (Int.min_le_left _ _).trans (h.horizontal.trans (Int.le_max_left _ _))
  vertical :=
    (Int.min_le_left _ _).trans (h.vertical.trans (Int.le_max_left _ _))

/-- A box that grows to take in points stays the right way round. -/
theorem Ordered.foldl_cover {α : Type} {b : Box} (h : b.Ordered) (point : α → Point)
    (points : List α) : (points.foldl (fun c k => c.cover (point k)) b).Ordered := by
  induction points generalizing b with
  | nil => exact h
  | cons k ks ih => exact ih (h.cover _)

theorem Encloses.refl (b : Box) : b.Encloses b :=
  ⟨Int.le_refl _, Int.le_refl _, Int.le_refl _, Int.le_refl _⟩

theorem Encloses.trans {a b c : Box} (h : a.Encloses b) (h' : b.Encloses c) : a.Encloses c :=
  ⟨h.left.trans h'.left, h.top.trans h'.top, h'.right.trans h.right, h'.bottom.trans h.bottom⟩

theorem encloses_cover (b : Box) (p : Point) : (b.cover p).Encloses b :=
  ⟨Int.min_le_left _ _, Int.min_le_left _ _, Int.le_max_left _ _, Int.le_max_left _ _⟩

theorem encloses_union (b c : Box) : (b.union c).Encloses b :=
  (encloses_cover _ _).trans (encloses_cover _ _)

/-- An ordered box is taken in side by side. -/
theorem Ordered.union_eq {c : Box} (h : c.Ordered) (b : Box) :
    b.union c =
      { topLeft := { x := min b.topLeft.x c.topLeft.x, y := min b.topLeft.y c.topLeft.y }
        bottomRight :=
          { x := max b.bottomRight.x c.bottomRight.x,
            y := max b.bottomRight.y c.bottomRight.y } } := by
  have hx := h.horizontal
  have hy := h.vertical
  ext <;> simp only [Box.union, Box.cover] <;> omega

/-! ### Hulls -/

section Sides

variable {side : Box → Int} {boxes : List Box} {m : Int}

/-- The sides of boxes with one more box behind them. -/
theorem sides_concat (side : Box → Int) (boxes : List Box) (b : Box) :
    {x | ∃ c ∈ boxes ++ [b], side c = x} = {x | ∃ c ∈ boxes, side c = x} ∪ {side b} := by
  ext x
  simp only [List.mem_append, List.mem_singleton, Set.mem_ofPred_eq, Set.mem_union,
    Set.mem_singleton_iff]
  constructor
  · rintro ⟨c, hc | rfl, hx⟩
    · exact Or.inl ⟨c, hc, hx⟩
    · exact Or.inr hx.symm
  · rintro (⟨c, hc, hx⟩ | hx)
    · exact ⟨c, Or.inl hc, hx⟩
    · exact ⟨b, Or.inr rfl, hx.symm⟩

theorem isLeast_concat (h : IsLeast {x | ∃ c ∈ boxes, side c = x} m) (b : Box) :
    IsLeast {x | ∃ c ∈ boxes ++ [b], side c = x} (min m (side b)) := by
  rw [sides_concat]
  exact h.union isLeast_singleton

theorem isGreatest_concat (h : IsGreatest {x | ∃ c ∈ boxes, side c = x} m) (b : Box) :
    IsGreatest {x | ∃ c ∈ boxes ++ [b], side c = x} (max m (side b)) := by
  rw [sides_concat]
  exact h.union isGreatest_singleton

end Sides

theorem isHull_singleton (b : Box) : IsHull [b] b := by
  constructor <;> simp only [List.mem_singleton, exists_eq_left, Set.ofPred_eq_eq_singleton']
  · exact isLeast_singleton
  · exact isLeast_singleton
  · exact isGreatest_singleton
  · exact isGreatest_singleton

namespace IsHull

variable {boxes boxes' : List Box} {hull hull' : Box}

/-- A hull that takes in one more box is the hull of one box more. -/
theorem union (h : IsHull boxes hull) {b : Box} (hb : b.Ordered) :
    IsHull (boxes ++ [b]) (hull.union b) := by
  rw [hb.union_eq]
  exact ⟨isLeast_concat h.left b, isLeast_concat h.top b, isGreatest_concat h.right b,
    isGreatest_concat h.bottom b⟩

/-- There is one hull at most. -/
theorem unique (h : IsHull boxes hull) (h' : IsHull boxes hull') : hull = hull' := by
  ext
  · exact h.left.unique h'.left
  · exact h.top.unique h'.top
  · exact h.right.unique h'.right
  · exact h.bottom.unique h'.bottom

/-- The hull depends on which boxes there are, and not on their order. -/
theorem of_perm (h : IsHull boxes hull) (hperm : boxes.Perm boxes') : IsHull boxes' hull := by
  rcases h with ⟨hleft, htop, hright, hbottom⟩
  simp only [hperm.mem_iff] at hleft htop hright hbottom
  exact ⟨hleft, htop, hright, hbottom⟩

/-- The hull of ordered boxes is ordered. -/
theorem ordered (h : IsHull boxes hull) (hboxes : ∀ b ∈ boxes, b.Ordered) : hull.Ordered := by
  rcases h.left.1 with ⟨b, hb, hleft⟩
  rcases h.top.1 with ⟨c, hc, htop⟩
  constructor
  · rw [← hleft]
    exact (hboxes b hb).horizontal.trans (h.right.2 ⟨b, hb, rfl⟩)
  · rw [← htop]
    exact (hboxes c hc).vertical.trans (h.bottom.2 ⟨c, hc, rfl⟩)

end IsHull

/-! ### Boxes taken together -/

theorem unionAll_concat (boxes : List (Option Box)) (next : Option Box) :
    unionAll (boxes ++ [next]) = (unionAll boxes).merge union next := by
  rw [unionAll, List.foldl_append, ← unionAll]
  rfl

-- Here and below by induction on the boxes from the last one on, as they are taken in.
theorem filterMap_eq_nil_of_unionAll {boxes : List (Option Box)} (h : unionAll boxes = none) :
    boxes.filterMap id = [] := by
  induction boxes using List.reverseRecOn with
  | nil => rfl
  | append_singleton boxes next ih =>
      rw [unionAll_concat, Option.merge_eq_none_iff] at h
      rw [List.filterMap_append, ih h.1, h.2]
      rfl

/-- Ordered boxes taken together are their hull. -/
theorem isHull_unionAll {boxes : List (Option Box)} {hull : Box}
    (hboxes : ∀ b ∈ boxes.filterMap id, b.Ordered) (h : unionAll boxes = some hull) :
    IsHull (boxes.filterMap id) hull := by
  induction boxes using List.reverseRecOn generalizing hull with
  | nil => cases h
  | append_singleton boxes next ih =>
      rw [List.filterMap_append, List.forall_mem_append] at hboxes
      rw [unionAll_concat] at h
      rw [List.filterMap_append]
      cases next with
      | none =>
          rw [Option.merge_none_right] at h
          rw [List.filterMap_cons_none rfl, List.filterMap_nil, List.append_nil]
          exact ih hboxes.1 h
      | some b =>
          have hb : b.Ordered := hboxes.2 b List.mem_cons_self
          cases hsofar : unionAll boxes with
          | none =>
              rw [hsofar, Option.merge_none_left, Option.some.injEq] at h
              rw [filterMap_eq_nil_of_unionAll hsofar, ← h]
              exact isHull_singleton b
          | some hull' =>
              rw [hsofar] at h
              rw [← Option.some.inj h]
              exact (ih hboxes.1 hsofar).union hb

/-- Ordered boxes come out the same in whatever order they are taken together. -/
theorem unionAll_of_perm {boxes boxes' : List Box} {hull : Box} (h : IsHull boxes hull)
    (hboxes : ∀ b ∈ boxes, b.Ordered) (hperm : boxes'.Perm boxes) :
    unionAll (boxes'.map some) = some hull := by
  have hfilter : (boxes'.map some).filterMap id = boxes' := by
    rw [List.filterMap_map]
    exact List.filterMap_some
  cases hunion : unionAll (boxes'.map some) with
  | none =>
      have hnil := filterMap_eq_nil_of_unionAll hunion
      rcases h.left.1 with ⟨b, hb, -⟩
      rw [← hperm.mem_iff, ← hfilter, hnil] at hb
      exact absurd hb List.not_mem_nil
  | some hull' =>
      have hhull := isHull_unionAll (by
        rw [hfilter]
        exact fun b hb => hboxes b (hperm.mem_iff.1 hb)) hunion
      rw [hfilter] at hhull
      exact congrArg some ((hhull.of_perm hperm).unique h)

/-- More boxes make a box that is at least as large. -/
theorem encloses_unionAll_append {boxes : List (Option Box)} {hull : Box}
    (h : unionAll boxes = some hull) (more : List (Option Box)) :
    ∃ hull', unionAll (boxes ++ more) = some hull' ∧ hull'.Encloses hull := by
  induction more using List.reverseRecOn with
  | nil => exact ⟨hull, by rw [List.append_nil, h], .refl hull⟩
  | append_singleton more next ih =>
      rcases ih with ⟨hull', hunion, hencloses⟩
      rw [← List.append_assoc, unionAll_concat, hunion]
      cases next with
      | none => exact ⟨hull', rfl, hencloses⟩
      | some b => exact ⟨hull'.union b, rfl, (encloses_union hull' b).trans hencloses⟩

end Box

end IceFigures
