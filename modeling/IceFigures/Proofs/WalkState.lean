import IceFigures.Proofs.DrawnShapes
import Mathlib.Algebra.Ring.Int.Defs

/-!
# Blade State and Heading along a Walk

What a walk does to the code and the heading of the skater, whatever it does to
the position. A skated move is entered on its own start and left on its own end.
A directive is entered on the code that was left behind, and leaves the skater
there unless it names another one. No footwork turns the skater, so the heading
changes within moves only: a warp sets it, and any other move turns it by what
its parts turn together.

A figure does all of that as one effect, taken from a skater at the origin. Its
heading is a residue already, so the parts and the figure agree modulo a full
turn (`Figure.heading_after_effect`), and its first and its last part are curves
whatever its parameters are (`Figure.head?_parts`, `Figure.getLast?_parts`), so
it always has a start and an end.

## Main definitions

* `Move.named?`: The code that a directive names.
* `Move.rotation`: What the parts of a move turn together.
* `Stage.Continues`: How a stage goes on from a skater.
* `priorSkaters`: The skaters whom the stages of a walk go on from.

## Theorems

* `heading_afterParts`: Parts turn the skater one after another.
* `Figure.code_after_effect`, `Figure.heading_after_effect`: So does a figure.
* `continues_ofStep`: One step.
* `continues_walkFrom`: A walk that follows on others.
* `continues_walk`: A whole walk.
-/

namespace IceFigures

/-- The code that a directive names for the skater to go on with. -/
def Move.named? : Move → Option Code
  | part (.shift s) => s.code
  | warp w => w.code
  | _ => none

/-- What the parts of a move turn together, clockwise. -/
def Move.rotation (m : Move) : Int :=
  (m.parts.map Part.rotation).sum

/-! ### Effects -/

namespace Skater

@[simp]
theorem code_after (s : Skater) (e : Effect) : (s.after e).code = e.code.getD s.code := by
  rcases e with ⟨_ | _, _⟩ <;> rfl

@[simp]
theorem heading_after_relative (s : Skater) (delta : Point) (turn : Int) (code : Option Code) :
    (s.after (.relative delta turn code)).heading = s.heading.rotate turn := rfl

end Skater

/-- Footwork never turns the skater. -/
theorem heading_after_footwork (s : Skater) (footwork : Footwork) (old new : Code) :
    (s.after (footwork.effect old new)).heading = s.heading :=
  s.heading.rotate_zero

/-! ### Parts and figures -/

/-- A part turns the skater by its rotation. -/
theorem Part.heading_after_effect (s : Skater) (p : Part) :
    (s.after p.effect).heading = s.heading.rotate p.rotation := by
  cases p with
  | label l =>
      rw [effect, Skater.after_nothing]
      exact s.heading.rotate_zero.symm
  | _ => rfl

-- By induction on the parts, each of which turns the skater once more.
theorem heading_afterParts (s : Skater) (ps : List Part) :
    (afterParts s ps).heading = s.heading.rotate (ps.map Part.rotation).sum := by
  induction ps generalizing s with
  | nil => exact s.heading.rotate_zero.symm
  | cons p ps ih =>
      rw [afterParts, List.foldl_cons, ← afterParts, ih, Part.heading_after_effect,
        Heading.rotate_rotate, List.map_cons, List.sum_cons]

/-- Parts that end in a curve leave the skater on its code. -/
theorem code_afterParts {ps : List Part} {c : Curve} (h : ps.getLast? = some (.curve c))
    (s : Skater) : (afterParts s ps).code = c.code := by
  rcases List.getLast?_eq_some_iff.1 h with ⟨before, rfl⟩
  rw [afterParts, List.foldl_append, List.foldl_cons, List.foldl_nil, Skater.code_after]
  rfl

namespace Figure

/-- Every figure begins with a curve. -/
theorem head?_parts (f : Figure) : ∃ c, f.parts.head? = some (.curve c) := by
  rcases f with ⟨kind, entry, values, footwork⟩
  cases kind with
  | turn t => cases t <;> exact ⟨_, rfl⟩
  | jump j n => cases j <;> exact ⟨_, rfl⟩
  | _ => exact ⟨_, rfl⟩

/-- Every figure ends in a curve. -/
theorem getLast?_parts (f : Figure) : ∃ c, f.parts.getLast? = some (.curve c) := by
  rcases f with ⟨kind, entry, values, footwork⟩
  cases kind with
  | turn t => cases t <;> exact ⟨_, rfl⟩
  | footChange g => cases g <;> exact ⟨_, rfl⟩
  | jump j n => cases j <;> exact ⟨_, rfl⟩
  | twizzle n =>
      simp only [parts_eq, twizzleParts_eq, List.getLast?_concat]
      exact ⟨_, rfl⟩
  | _ => exact ⟨_, rfl⟩

/-- A figure leaves the skater on its own end. -/
theorem code_after_effect (s : Skater) (f : Figure) :
    f.exit? = some (s.after f.effect).code := by
  rcases f.getLast?_parts with ⟨c, hlast⟩
  rw [exit?, hlast, Skater.code_after]
  exact congrArg some (code_afterParts hlast _).symm

/-- A figure turns the skater by what its parts turn together. -/
theorem heading_after_effect (s : Skater) (f : Figure) :
    (s.after f.effect).heading.degrees =
      (s.heading.degrees + (f.parts.map Part.rotation).sum) % 360 := by
  have hparts : (afterParts (.atOrigin f.entry) f.parts).heading.degrees =
      (f.parts.map Part.rotation).sum % 360 := by
    rw [heading_afterParts, Heading.degrees_rotate, Skater.atOrigin, Heading.down,
      Heading.degrees_ofDegrees, Int.zero_emod, Int.zero_add]
  rw [effect, Skater.heading_after_relative, Heading.degrees_rotate, hparts, Int.add_emod_emod]

end Figure

/-! ### Moves -/

namespace Move

/-- Only skated moves have a start. -/
theorem start?_of_directive {m : Move} (h : m.isSkated = false) : m.start? = none := by
  cases m with
  | part p => exact Option.not_isSome_iff_eq_none.1 (Bool.eq_false_iff.1 h)
  | figure f => exact Bool.noConfusion h
  | _ => rfl

/-- Footwork onto a move never turns the skater. -/
theorem heading_after_entering (s : Skater) (old : Code) (m : Move) :
    (s.after (m.entering old)).heading = s.heading := by
  cases m with
  | part p =>
      cases p with
      | curve c => exact heading_after_footwork s _ _ _
      | straight g => exact heading_after_footwork s _ _ _
      | hop g => exact heading_after_footwork s _ _ _
      | _ => exact congrArg Skater.heading s.after_nothing
  | figure f =>
      rcases f.head?_parts with ⟨c, hhead⟩
      rw [entering, Figure.entering, hhead]
      exact heading_after_footwork s _ _ _
  | _ => exact congrArg Skater.heading s.after_nothing

/-- Footwork onto a skated move leads to its start. -/
theorem code_after_entering {m : Move} (h : m.isSkated = true) (s : Skater) (old : Code) :
    m.start? = some (s.after (m.entering old)).code := by
  cases m with
  | part p =>
      cases p with
      | shift g => exact Bool.noConfusion h
      | label l => exact Bool.noConfusion h
      | _ => rfl
  | figure f =>
      rcases f.head?_parts with ⟨c, hhead⟩
      rw [entering, Figure.entering, start?, Figure.start?, hhead]
      rfl
  | _ => exact Bool.noConfusion h

/-- There is no footwork onto a directive. -/
theorem entering_of_directive {m : Move} (h : m.isSkated = false) (old : Code) :
    m.entering old = .nothing := by
  cases m with
  | part p =>
      cases p with
      | shift g => rfl
      | label l => rfl
      | _ => exact Bool.noConfusion h
  | figure f => exact Bool.noConfusion h
  | _ => rfl

/-- A skated move leaves the skater on its end. -/
theorem code_after_effect {m : Move} (h : m.isSkated = true) (s : Skater) :
    m.exit? = some (s.after m.effect).code := by
  cases m with
  | part p =>
      cases p with
      | shift g => exact Bool.noConfusion h
      | label l => exact Bool.noConfusion h
      | _ => rfl
  | figure f => exact f.code_after_effect s
  | _ => exact Bool.noConfusion h

/-- A directive leaves the skater on the code it names, if it names one. -/
theorem code_after_directive {m : Move} (h : m.isSkated = false) (s : Skater) :
    (s.after m.effect).code = m.named?.getD s.code := by
  cases m with
  | part p =>
      cases p with
      | shift g => exact s.code_after _
      | label l => exact s.code_after _
      | _ => exact Bool.noConfusion h
  | figure f => exact Bool.noConfusion h
  | _ => exact s.code_after _

/-- Any move but a warp turns the skater by its rotation. -/
theorem heading_after_effect {m : Move} (h : ∀ w, m ≠ .warp w) (s : Skater) :
    (s.after m.effect).heading.degrees = (s.heading.degrees + m.rotation) % 360 := by
  have hnothing : (s.after .nothing).heading.degrees = (s.heading.degrees + 0) % 360 := rfl
  cases m with
  | warp w => exact absurd rfl (h w)
  | part p =>
      rw [effect, Part.heading_after_effect, Heading.degrees_rotate, rotation, parts,
        List.map_singleton, List.sum_singleton]
  | figure f => exact f.heading_after_effect s
  | _ => exact hnothing

end Move

/-! ### Walks -/

/-- How a stage goes on from the skater that was left behind. -/
structure Stage.Continues (prior : Skater) (g : Stage) : Prop where
  /-- A skated move is entered on its start and left on its end. -/
  skated : g.step.move.isSkated = true →
    g.step.move.start? = some g.before.code ∧ g.step.move.exit? = some g.after.code
  /-- A directive is entered on the code left behind, and left on the code that
      it names, if it names one. -/
  directive : g.step.move.isSkated = false →
    g.before.code = prior.code ∧ g.after.code = g.step.move.named?.getD g.before.code
  /-- Nothing turns the skater between two moves. -/
  heading_before : g.before.heading = prior.heading
  /-- A warp sets the heading. -/
  heading_warp : ∀ w, g.step.move = .warp w → g.after.heading.degrees = w.direction % 360
  /-- Any other move turns the skater by its parts. -/
  heading_after : (∀ w, g.step.move ≠ .warp w) →
    g.after.heading.degrees = (g.before.heading.degrees + g.step.move.rotation) % 360
  /-- Headings are residues. -/
  range_before : 0 ≤ g.before.heading.degrees ∧ g.before.heading.degrees < 360
  range_after : 0 ≤ g.after.heading.degrees ∧ g.after.heading.degrees < 360

/-- The skaters whom the stages of a walk go on from: the one in front of all
    stages, and those that the stages leave behind. -/
def priorSkaters (first : Skater) (stages : List Stage) : List Skater :=
  first :: stages.map Stage.after

/-- One step, taken by a skater who faces as before and stands on the start of
    the move or, if it has none, on the code left behind. -/
theorem continues_ofStep {prior before : Skater} {s : Step}
    (hheading : before.heading = prior.heading)
    (hstart : s.move.isSkated = true → s.move.start? = some before.code)
    (hcode : s.move.isSkated = false → before.code = prior.code) :
    (Stage.ofStep before s).Continues prior where
  skated h := ⟨hstart h, Move.code_after_effect h before⟩
  directive h := ⟨hcode h, Move.code_after_directive h before⟩
  heading_before := hheading
  heading_warp w h := by
    change (before.after s.move.effect).heading.degrees = w.direction % 360
    rw [show s.move = .warp w from h]
    rfl
  heading_after h := Move.heading_after_effect h before
  range_before := ⟨before.heading.nonneg, before.heading.lt⟩
  range_after := ⟨(before.after s.move.effect).heading.nonneg,
    (before.after s.move.effect).heading.lt⟩

-- By induction on the steps: what the first stage leaves behind is what the
-- stages behind it go on from.
theorem continues_walkFrom (skater : Skater) (steps : List Step) (i : Nat) {prior : Skater}
    {stage : Stage} (hprior : (priorSkaters skater (walkFrom skater steps))[i]? = some prior)
    (hstage : (walkFrom skater steps)[i]? = some stage) : stage.Continues prior := by
  induction steps generalizing skater i with
  | nil =>
      rw [walkFrom, List.getElem?_nil] at hstage
      cases hstage
  | cons s rest ih =>
      rw [walkFrom] at hprior hstage
      cases i with
      | zero =>
          rw [priorSkaters, List.getElem?_cons_zero, Option.some.injEq] at hprior
          rw [List.getElem?_cons_zero, Option.some.injEq] at hstage
          rw [← hprior, ← hstage]
          refine continues_ofStep (Move.heading_after_entering skater _ _)
            (fun hskated => Move.code_after_entering hskated skater _) fun hdirective => ?_
          rw [Move.entering_of_directive hdirective, Skater.after_nothing]
      | succ i =>
          rw [priorSkaters, List.getElem?_cons_succ, List.map_cons] at hprior
          rw [List.getElem?_cons_succ] at hstage
          exact ih _ i hprior hstage

/-- Every stage of a walk goes on from the stage in front of it, and the first
    one from a skater on both feet who faces down the page. -/
theorem continues_walk (steps : List Step) :
    (walk steps).map Stage.step = steps ∧
      ∀ (i : Nat) (prior : Skater) (stage : Stage),
        (priorSkaters (.atOrigin .start) (walk steps))[i]? = some prior →
        (walk steps)[i]? = some stage → stage.Continues prior := by
  refine ⟨map_step_walk steps, fun i prior stage hprior hstage => ?_⟩
  cases steps with
  | nil =>
      rw [walk, List.getElem?_nil] at hstage
      cases hstage
  | cons s rest =>
      rw [walk] at hprior hstage
      cases i with
      | zero =>
          rw [priorSkaters, List.getElem?_cons_zero, Option.some.injEq] at hprior
          rw [List.getElem?_cons_zero, Option.some.injEq] at hstage
          rw [← hprior, ← hstage]
          -- No footwork is needed: the skater stands on the start, if there is one.
          refine continues_ofStep rfl (fun hskated => ?_) fun hdirective => ?_
          · have hentry := Move.code_after_entering hskated (.atOrigin .start) .start
            rw [firstSkater, hentry]
            rfl
          · rw [firstSkater, Move.start?_of_directive hdirective]
            rfl
      | succ i =>
          rw [priorSkaters, List.getElem?_cons_succ, List.map_cons] at hprior
          rw [List.getElem?_cons_succ] at hstage
          exact continues_walkFrom _ rest i hprior hstage

end IceFigures
