import IceFigures.Proofs.WalkState

/-!
# Directives Put into a Walk

Settings, captions, labels and rinks are drawn or take effect wherever they
stand, but leave the skater alone. Putting them into a sequence, at any places and
as many as one likes, changes the stage of no other step: neither the point nor the
heading nor the code before it or after it.

That is plain behind the first step, since no footwork leads onto a directive and a
directive has no effect. In front of it there is more to say. A walk does without
footwork onto its first step, and a directive put there makes some other step the
second, which is stepped onto from both feet. From both feet, though, no footwork
goes anywhere (`Footwork.delta_start`). So the first step is no exception after all:
a walk is one that follows on from a skater at the origin on both feet
(`walk_eq_walkFrom`), and what holds of every step holds of the first.

Which steps were put in is said by marks, one for each step. Two equal directives may
stand next to each other, one of them put in and the other not, and the marks tell
which is which.

## Main definitions

* `Move.isStill`: Moves that leave the skater alone.
* `kept`: The members of a list that are marked to be kept.

## Theorems

* `Move.after_still`: A still move is passed over.
* `firstSkater_eq`: The first step may be stepped onto like any other.
* `walk_eq_walkFrom`: A whole walk follows on from both feet at the origin.
* `kept_walkFrom`: Still steps of a walk that follows on others.
* `kept_walk`: Still steps of a whole walk.
-/

namespace IceFigures

namespace Move

/-- Whether a move leaves the skater alone: settings, captions, labels and rinks. -/
def isStill : Move → Bool
  | part (.label _) => true
  | rink _ => true
  | info _ => true
  | title _ => true
  | text _ => true
  | _ => false

theorem effect_of_isStill {m : Move} (h : m.isStill = true) : m.effect = .nothing := by
  cases m with
  | part p =>
      cases p with
      | label l => rfl
      | _ => exact Bool.noConfusion h
  | rink r => rfl
  | info i => rfl
  | title t => rfl
  | text t => rfl
  | _ => exact Bool.noConfusion h

theorem isSkated_of_isStill {m : Move} (h : m.isStill = true) : m.isSkated = false := by
  cases m with
  | part p =>
      cases p with
      | label l => rfl
      | _ => exact Bool.noConfusion h
  | figure f => exact Bool.noConfusion h
  | _ => rfl

/-- A still move is passed over: there is no footwork onto it, and it does nothing. -/
theorem after_still {m : Move} (h : m.isStill = true) (s : Skater) :
    (s.after (m.entering s.code)).after m.effect = s := by
  rw [entering_of_directive (isSkated_of_isStill h), effect_of_isStill h, Skater.after_nothing,
    Skater.after_nothing]

end Move

/-! ### The first step -/

/-- From both feet no footwork goes anywhere. -/
theorem Footwork.delta_start (kind : Footwork) (onto : Code) :
    kind.delta .start onto = .origin := by
  rcases onto with ⟨foot, travel, edge⟩
  cases kind <;> cases foot <;> rfl

/-- Whoever steps from both feet stays there, on the new code. -/
theorem atOrigin_after_footwork (kind : Footwork) (onto : Code) :
    (Skater.atOrigin .start).after (kind.effect .start onto) = .atOrigin onto := by
  have hpos : (Skater.atOrigin .start).reach (kind.delta .start onto) = .origin := by
    rw [Footwork.delta_start]
    exact Point.offset_zero _ _
  ext1
  case pos => exact hpos
  case heading => exact heading_after_footwork _ kind .start onto
  case code => rfl

/-- The first step may be stepped onto like any other, from both feet. -/
theorem firstSkater_eq (m : Move) :
    firstSkater m = (Skater.atOrigin .start).after (m.entering .start) := by
  have hnothing : Skater.atOrigin .start = (Skater.atOrigin .start).after .nothing :=
    (Skater.after_nothing _).symm
  cases m with
  | part p =>
      cases p with
      | curve c => exact (atOrigin_after_footwork c.footwork c.code).symm
      | straight g => exact (atOrigin_after_footwork g.footwork g.code).symm
      | hop j => exact (atOrigin_after_footwork j.footwork j.code).symm
      | shift g => exact hnothing
      | label l => exact hnothing
  | figure f =>
      rcases f.head?_parts with ⟨c, hhead⟩
      rw [firstSkater, Move.start?, Figure.start?, Move.entering, Figure.entering, hhead]
      exact (atOrigin_after_footwork c.footwork c.code).symm
  | _ => exact hnothing

/-- A whole walk follows on from a skater on both feet at the origin. -/
theorem walk_eq_walkFrom (steps : List Step) : walk steps = walkFrom (.atOrigin .start) steps := by
  cases steps with
  | nil => rfl
  | cons s rest =>
      rw [walk, walkFrom, firstSkater_eq]
      rfl

/-! ### Steps that are kept -/

/-- The members of a list that are marked to be kept. Where the marks end, nothing more
    is kept. -/
def kept {α : Type} : List Bool → List α → List α
  | keep :: marks, a :: as => if keep then a :: kept marks as else kept marks as
  | _, _ => []

-- By induction on the steps. A still step leaves behind the skater whom it found, so the
-- steps behind it start from where they would start without it.
theorem kept_walkFrom (skater : Skater) {marks : List Bool} {steps : List Step}
    (h : ∀ p ∈ marks.zip steps, p.1 = false → p.2.move.isStill = true) :
    kept marks (walkFrom skater steps) = walkFrom skater (kept marks steps) := by
  induction steps generalizing skater marks with
  | nil => cases marks <;> rfl
  | cons s rest ih =>
      cases marks with
      | nil => rfl
      | cons keep marks =>
          rw [List.zip_cons_cons, List.forall_mem_cons] at h
          cases keep with
          | true =>
              rw [walkFrom, kept, kept, if_pos rfl, if_pos rfl, walkFrom, ih _ h.2]
          | false =>
              have hpassed : (Stage.ofStep (skater.after (s.move.entering skater.code)) s).after =
                  skater := Move.after_still (h.1 rfl) skater
              rw [walkFrom, kept, kept, if_neg Bool.false_ne_true, if_neg Bool.false_ne_true,
                hpassed, ih _ h.2]

/-- If the steps that are not kept are still, the others have the stages in a walk that
    they would have if they were the only ones. -/
theorem kept_walk {marks : List Bool} {steps : List Step}
    (h : ∀ p ∈ marks.zip steps, p.1 = false → p.2.move.isStill = true) :
    kept marks (walk steps) = walk (kept marks steps) := by
  rw [walk_eq_walkFrom, walk_eq_walkFrom]
  exact kept_walkFrom _ h

/-- Settings in front of two skated steps, a label between them and a rink behind. -/
def annotatedSteps : List Step :=
  [{ move := .info {} },
   { move := .part (.curve
       { code := ⟨.left, .forward, .outside⟩, footwork := .crossFront }) },
   { move := .part (.label { text := "slow" }) },
   { move := .figure (.ofValues (.turn .three) ⟨.right, .forward, .inside⟩ []) },
   { move := .rink {} }]

/-- The two skated steps are skated as they would be without what was put in. -/
theorem kept_walk_annotated :
    (∀ p ∈ [false, true, false, true, false].zip annotatedSteps,
      p.1 = false → p.2.move.isStill = true) ∧
    kept [false, true, false, true, false] (walk annotatedSteps) =
      walk [{ move := .part (.curve
                { code := ⟨.left, .forward, .outside⟩, footwork := .crossFront }) },
            { move := .figure (.ofValues (.turn .three) ⟨.right, .forward, .inside⟩ []) }] := by
  have hstill : ∀ p ∈ [false, true, false, true, false].zip annotatedSteps,
      p.1 = false → p.2.move.isStill = true := by decide
  exact ⟨hstill, kept_walk hstill⟩

end IceFigures
