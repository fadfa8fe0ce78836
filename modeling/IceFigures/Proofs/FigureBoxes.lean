import IceFigures.Proofs.ViewBox
import IceFigures.Proofs.WalkState

/-!
# The Box of a Figure

A figure is drawn part by part, and its box is the hull of the boxes of its parts, each
taken where the walk over the parts has come to. The parts do not measure themselves
alike. An arc takes in every point that it is sampled at, and a glide or a hop the points
where it begins and ends. A shift is only as large as the point that it leads to, and a
label has no box at all.

That the path stays in the box is therefore not a matter of each part by itself. The point
where a shift begins is in the box of the part before it, and so on through any labels
between the two. What the walk keeps up is that the skater is in the box of the figure:
the figure begins with an arc, which takes in where it begins, and every part ends in its
own box or does not move (`Part.has_after`).

Nothing of this depends on where an arc leads or how a displacement is turned and rounded.
It is enough that the end of an arc is one of the points it is sampled at, and that a
skater who is not displaced stays in place.

## Main definitions

* `Figure.Covers`: A box that covers the path of a figure and is the least to do so.
* `Figure.partBoxes`: The boxes of the parts of a figure.

## Theorems

* `Box.IsHull.encloses`, `Box.IsHull.enclosed`: A hull is the least box around boxes.
* `Part.has_after`, `Part.has_pos`: Parts end, and if drawn begin, in their boxes.
* `has_walkParts`: A walk that begins in a box around all parts stays there.
* `Figure.covers_of_walk`: Every figure has a box, which covers its path.
-/

namespace IceFigures

/-! ### Boxes -/

namespace Box

theorem Encloses.has {b c : Box} (h : b.Encloses c) {p : Point} (hp : c.Has p) : b.Has p := by
  rcases h with ⟨hleft, htop, hright, hbottom⟩
  simp only [Has] at hp ⊢
  omega

theorem has_ofPoint (p : Point) : (ofPoint p).Has p :=
  ⟨Int.le_refl _, Int.le_refl _, Int.le_refl _, Int.le_refl _⟩

/-- A box that takes in points one by one has what it had before. -/
theorem has_foldl_cover_of_has {α : Type} {b : Box} {p : Point} (h : b.Has p) (point : α → Point)
    (points : List α) : (points.foldl (fun c k => c.cover (point k)) b).Has p := by
  induction points generalizing b with
  | nil => exact h
  | cons k ks ih => exact ih (has_cover_of_has _ h)

/-- And it has every one of the points. -/
theorem has_foldl_cover {α : Type} (b : Box) (point : α → Point) {points : List α} {k : α}
    (hk : k ∈ points) : (points.foldl (fun c k => c.cover (point k)) b).Has (point k) := by
  induction points generalizing b with
  | nil => cases hk
  | cons j ks ih =>
      rcases List.mem_cons.1 hk with rfl | hlater
      · exact has_foldl_cover_of_has (has_cover b _) point ks
      · exact ih _ hlater

namespace IsHull

variable {boxes : List Box} {hull : Box} (h : IsHull boxes hull)
include h

/-- A hull reaches at least as far as each of the boxes. -/
theorem encloses {b : Box} (hb : b ∈ boxes) : hull.Encloses b :=
  ⟨h.left.2 ⟨b, hb, rfl⟩, h.top.2 ⟨b, hb, rfl⟩, h.right.2 ⟨b, hb, rfl⟩, h.bottom.2 ⟨b, hb, rfl⟩⟩

/-- Every other box that does so reaches at least as far as the hull. -/
theorem enclosed {b : Box} (hb : ∀ c ∈ boxes, b.Encloses c) : b.Encloses hull := by
  rcases h.left.1 with ⟨l, hl, hleft⟩
  rcases h.top.1 with ⟨t, ht, htop⟩
  rcases h.right.1 with ⟨r, hr, hright⟩
  rcases h.bottom.1 with ⟨d, hd, hbottom⟩
  constructor
  · rw [← hleft]
    exact (hb l hl).left
  · rw [← htop]
    exact (hb t ht).top
  · rw [← hright]
    exact (hb r hr).right
  · rw [← hbottom]
    exact (hb d hd).bottom

end IsHull

end Box

/-! ### Parts -/

namespace Part

variable {p : Part} {s : Skater} {b : Box}

/-- A part that has a box ends in it. -/
theorem has_after (h : p.bounds? s = some b) : b.Has (s.after p.effect).pos := by
  cases p with
  | curve c =>
      rw [← Option.some.inj h]
      exact Box.has_foldl_cover _ (fun k : Nat => s.reach (c.point k))
        (List.mem_range.2 (show 100 < 101 by decide))
  | straight g =>
      rw [← Option.some.inj h]
      exact Box.has_cover _ _
  | hop j =>
      rw [← Option.some.inj h]
      exact Box.has_cover _ _
  | shift g =>
      rw [← Option.some.inj h]
      exact Box.has_ofPoint _
  | label l => cases h

/-- Drawn parts begin in their boxes as well. -/
theorem has_pos (hdrawn : p.code?.isSome = true) (h : p.bounds? s = some b) : b.Has s.pos := by
  cases p with
  | curve c =>
      rw [← Option.some.inj h]
      exact Box.has_foldl_cover_of_has (Box.has_ofPoint _) _ _
  | straight g =>
      rw [← Option.some.inj h]
      exact Box.has_cover_of_has _ (Box.has_ofPoint _)
  | hop j =>
      rw [← Option.some.inj h]
      exact Box.has_cover_of_has _ (Box.has_ofPoint _)
  | shift g => cases hdrawn
  | label l => cases h

/-- Only labels have no box. -/
theorem bounds?_eq_none_iff : p.bounds? s = none ↔ ∃ l, p = .label l := by
  cases p <;> simp only [bounds?, reduceCtorEq, exists_false, label.injEq, exists_eq']

/-- Labels leave the skater as it is. -/
theorem after_label (s : Skater) (l : Label) : s.after (label l).effect = s :=
  s.after_nothing

end Part

-- By induction on the parts. A part hands on a skater who is in the box, whether it moved
-- the skater into its own box or not at all.
theorem has_walkParts {hull : Box} {s : Skater} {ps : List Part} (hstart : hull.Has s.pos)
    (hparts : ∀ sp ∈ walkParts s ps, ∀ b, sp.2.bounds? sp.1 = some b → hull.Encloses b) :
    ∀ sp ∈ walkParts s ps, hull.Has sp.1.pos ∧ hull.Has (sp.1.after sp.2.effect).pos := by
  induction ps generalizing s with
  | nil => exact List.forall_mem_nil _
  | cons p ps ih =>
      rw [walkParts, List.forall_mem_cons] at hparts ⊢
      have hafter : hull.Has (s.after p.effect).pos := by
        cases hbounds : p.bounds? s with
        | none =>
            rcases Part.bounds?_eq_none_iff.1 hbounds with ⟨l, rfl⟩
            rw [Part.after_label]
            exact hstart
        | some b => exact (hparts.1 b hbounds).has (Part.has_after hbounds)
      exact ⟨⟨hstart, hafter⟩, ih hafter hparts.2⟩

namespace Figure

/-- A box that covers the path of a figure from a skater and is the least to do so. -/
structure Covers (f : Figure) (before : Skater) (hull : Box) : Prop where
  /-- It reaches at least as far as the box of each part where the part is drawn. -/
  encloses : ∀ sp ∈ f.walk before, ∀ b, sp.2.bounds? sp.1 = some b → hull.Encloses b
  /-- No smaller box does. -/
  least : ∀ c : Box, (∀ sp ∈ f.walk before, ∀ b, sp.2.bounds? sp.1 = some b → c.Encloses b) →
    c.Encloses hull
  /-- It has the point where the figure begins. -/
  start : hull.Has before.pos
  /-- It has the points before and after every part. -/
  path : ∀ sp ∈ f.walk before, hull.Has sp.1.pos ∧ hull.Has (sp.1.after sp.2.effect).pos
  /-- Only labels have no box, and they do not move the skater. -/
  labels : ∀ sp ∈ f.walk before, (sp.2.bounds? sp.1 = none ↔ ∃ l, sp.2 = .label l) ∧
    ∀ l, sp.2 = .label l → sp.1.after sp.2.effect = sp.1

/-- The boxes of the parts of a figure, where each of them is drawn. -/
def partBoxes (f : Figure) (before : Skater) : List Box :=
  (f.walk before).filterMap fun sp => sp.2.bounds? sp.1

theorem mem_partBoxes_iff {f : Figure} {before : Skater} {b : Box} :
    b ∈ f.partBoxes before ↔ ∃ sp ∈ f.walk before, sp.2.bounds? sp.1 = some b :=
  List.mem_filterMap

/-- Every figure begins with an arc, whose box has the point where the figure begins. -/
theorem exists_first_partBox (f : Figure) (before : Skater) :
    ∃ b ∈ f.partBoxes before, b.Has before.pos := by
  rcases f.head?_parts with ⟨c, hfirst⟩
  rcases List.head?_eq_some_iff.1 hfirst with ⟨rest, hparts⟩
  have hmem : (before, .curve c) ∈ f.walk before := by
    rw [walk, hparts, walkParts]
    exact List.mem_cons_self
  exact ⟨c.bounds before, mem_partBoxes_iff.2 ⟨_, hmem, rfl⟩, Part.has_pos (p := .curve c) rfl rfl⟩

/-- A figure has a box, the hull of the boxes of its parts. -/
theorem exists_isHull_partBoxes (f : Figure) (before : Skater) :
    ∃ hull, f.bounds? before = some hull ∧ Box.IsHull (f.partBoxes before) hull := by
  have hboxes : ((f.walk before).map fun sp => sp.2.bounds? sp.1).filterMap id =
      f.partBoxes before := by
    rw [List.filterMap_map]
    rfl
  cases hunion : f.bounds? before with
  | none =>
      -- The box of the first arc would have been left out.
      have hnone := Box.filterMap_eq_nil_of_unionAll hunion
      rcases f.exists_first_partBox before with ⟨b, hb, -⟩
      rw [hboxes] at hnone
      rw [hnone] at hb
      exact absurd hb List.not_mem_nil
  | some hull =>
      refine ⟨hull, rfl, ?_⟩
      have hhull := Box.isHull_unionAll (by
        intro b hb
        rw [hboxes] at hb
        rcases mem_partBoxes_iff.1 hb with ⟨sp, -, hbounds⟩
        exact Part.ordered_of_bounds? hbounds) hunion
      rwa [hboxes] at hhull

/-- Every figure has a box from wherever it is skated, and the box covers its path. -/
theorem covers_of_walk (f : Figure) (before : Skater) :
    ∃ hull, f.bounds? before = some hull ∧ f.Covers before hull := by
  rcases f.exists_isHull_partBoxes before with ⟨hull, hbounds, hhull⟩
  have hencloses : ∀ sp ∈ f.walk before, ∀ b, sp.2.bounds? sp.1 = some b → hull.Encloses b :=
    fun sp hsp b hb => hhull.encloses (mem_partBoxes_iff.2 ⟨sp, hsp, hb⟩)
  have hstart : hull.Has before.pos := by
    rcases f.exists_first_partBox before with ⟨b, hb, hhas⟩
    exact (hhull.encloses hb).has hhas
  refine ⟨hull, hbounds, ?_⟩
  constructor
  case encloses => exact hencloses
  case least =>
    intro c hc
    refine hhull.enclosed fun b hb => ?_
    rcases mem_partBoxes_iff.1 hb with ⟨sp, hsp, hpart⟩
    exact hc sp hsp b hpart
  case start => exact hstart
  case path => exact has_walkParts hstart hencloses
  case labels =>
    intro sp _
    refine ⟨Part.bounds?_eq_none_iff, ?_⟩
    rintro l hl
    rw [hl, Part.after_label]

end Figure

end IceFigures
