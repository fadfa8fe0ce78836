import IceFigures.Proofs.MirroredLabels
import IceFigures.Proofs.WalkState

/-!
# Walks in a Mirror

With every move on the other foot, a sequence is skated as if seen in a mirror. At
every step the skater is on the other foot and has turned the other way. This takes
no more than three facts about a move and its mirror image: they start and end on
mirrored codes, they name mirrored codes, and they turn opposite ways. The first and
the last hold of whole figures because they hold of their parts.

The mirror is the line down the page from the origin, where every walk begins. A
warp breaks the symmetry, for it leads to the same point and heading on either foot.

## Main definitions

* `Skater.Mirrors`: A skater and a skater in the mirror, wherever they are.
* `Stage.Mirrors`: A stage and a stage in the mirror.
* `MirrorsWalk`: What becomes of a sequence in the mirror.

## Theorems

* `Move.opposite_opposite`, `Move.fault?_opposite`: The mirror image of a move.
* `Move.checked_opposite`: It passes its check if the move does.
* `Move.start?_opposite`, `Move.exit?_opposite`, `Move.rotation_opposite`: What it does.
* `Stage.mirrors_ofStep`: One step.
* `mirrors_walkFrom`: A walk that follows on others.
* `mirrors_walk`: A whole walk.
-/

namespace IceFigures

/-! ### The mirror image of a move -/

theorem Part.opposite_opposite (p : Part) : p.opposite.opposite = p := by
  cases p with
  | curve c => rw [opposite, opposite, Curve.opposite, Curve.opposite, c.code.opposite_opposite]
  | straight s =>
      rw [opposite, opposite, Straight.opposite, Straight.opposite, s.code.opposite_opposite]
  | hop h => rw [opposite, opposite, Hop.opposite, Hop.opposite, h.code.opposite_opposite]
  | shift s =>
      have hcode : (s.code.map Code.opposite).map Code.opposite = s.code := by
        cases s.code with
        | none => rfl
        | some c => exact congrArg some c.opposite_opposite
      rw [opposite, opposite, Shift.opposite, Shift.opposite, hcode, Int.neg_neg, Int.neg_neg]
  | label l => rw [opposite, opposite, Label.opposite, Label.opposite, Int.neg_neg]

/-- What is written of a part in a mirror differs in labels and signs. -/
theorem Part.Mirrors.isWritable_eq {p q : Part} (h : p.Mirrors q) {entry : Code} {sign : Int}
    (hsign : sign = 1 ∨ sign = -1)
    (hlabels : Option.Rel (Label.Reflects entry sign) p.label? q.label?) :
    q.isWritable = p.isWritable := by
  have hneg : ∀ n, (Value.number (-n)).isWritable = (Value.number n).isWritable :=
    Text.isWritable_neg
  cases h with
  | shift s =>
      simp only [isWritable, params, Shift.params, Shift.opposite, Param.areWritable,
        List.all_cons, hneg]
      rfl
  | label l l' =>
      cases hlabels with
      | some hl =>
          have hside : (Value.number l'.side).isWritable = (Value.number l.side).isWritable := by
            rcases hsign with rfl | rfl
            · rw [hl.side, Int.one_mul]
            · rw [hl.side, Int.neg_one_mul, hneg]
          simp only [isWritable, params, Label.params, Param.areWritable, List.all_cons, hl.forward,
            hl.fontSize, hl.rotation, hside]
          rfl
  | _ => rfl

theorem Part.isWritable_opposite (p : Part) : p.opposite.isWritable = p.isWritable := by
  have hlabels : Option.Rel (Label.Reflects .start (-1)) p.label? p.opposite.label? := by
    cases p with
    | label l => exact .some (l.reflects_opposite .start)
    | _ => exact .none
  exact p.mirrors_opposite.isWritable_eq (.inr rfl) hlabels

-- By induction on the parts and their mirror images, with their labels.
theorem all_isWritable_of_mirrors {ps qs : List Part} {entry : Code} {sign : Int}
    (hsign : sign = 1 ∨ sign = -1) (h : List.Forall₂ Part.Mirrors ps qs)
    (hlabels : List.Forall₂
      (fun p q => Option.Rel (Label.Reflects entry sign) p.label? q.label?) ps qs) :
    qs.all Part.isWritable = ps.all Part.isWritable := by
  induction h with
  | nil => rfl
  | cons hpq _ ih =>
      rcases List.forall₂_cons.1 hlabels with ⟨hlabel, hrest⟩
      rw [List.all_cons, List.all_cons, hpq.isWritable_eq hsign hlabel, ih hrest]

-- By induction on the parts and their mirror images, which have the same angles.
theorem all_isFinite_of_mirrors {ps qs : List Part} (h : List.Forall₂ Part.Mirrors ps qs) :
    qs.all Part.isFinite = ps.all Part.isFinite := by
  induction h with
  | nil => rfl
  | @cons p q _ _ hpq _ ih =>
      have hend : q.isFinite = p.isFinite := by cases hpq <;> rfl
      rw [List.all_cons, List.all_cons, hend, ih]

namespace Move

variable {m : Move}

/-- A move is the mirror image of its mirror image. -/
theorem opposite_opposite (h : ∀ w, m ≠ .warp w) : m.opposite.opposite = m := by
  cases m with
  | part p => exact congrArg part p.opposite_opposite
  | figure f =>
      rw [opposite, opposite, Figure.opposite, Figure.opposite, f.entry.opposite_opposite]
  | warp w => exact absurd rfl (h w)
  | _ => rfl

/-- The mirror image of a sound move is sound. -/
theorem fault?_opposite (h : m.fault? = none) : m.opposite.fault? = none := by
  cases m with
  | part p => exact p.mirrors_opposite.fault?_eq_none h
  | figure f => exact f.fault?_opposite h
  | repeatEnd e => exact h
  | _ => rfl

/-- The mirror image of a move has an end if the move has one. -/
theorem isFinite_opposite (h : m.fault? = none) : m.opposite.isFinite = m.isFinite := by
  cases m with
  | part p => cases p <;> rfl
  | figure f =>
      exact all_isFinite_of_mirrors
        (Figure.mirrors_parts ((Figure.fault?_eq_none_iff f).1 h).2.2.1)
  | _ => rfl

/-- The mirror image of a move can be written if the move can. -/
theorem isWritable_opposite (h : m.fault? = none) (hwarp : ∀ w, m ≠ .warp w) :
    m.opposite.isWritable = m.isWritable := by
  cases m with
  | part p => exact p.isWritable_opposite
  | figure f =>
      have hparts := all_isWritable_of_mirrors f.kind.labelSign_cases
        (Figure.mirrors_parts ((Figure.fault?_eq_none_iff f).1 h).2.2.1)
        (Figure.reflectsLabels_of_sound h)
      change f.opposite.isWritable = f.isWritable
      rw [Figure.isWritable, Figure.isWritable, hparts]
      rfl
  | warp w => exact absurd rfl (hwarp w)
  | _ => rfl

/-- The mirror image of a sound move passes its check whenever the move does. -/
theorem checked_opposite (h : m.fault? = none) (hwarp : ∀ w, m ≠ .warp w) :
    m.opposite.checked = m.checked.map opposite := by
  simp only [checked, h, fault?_opposite h, isFinite_opposite h, isWritable_opposite h hwarp]
  cases m.isFinite <;> cases m.isWritable <;> rfl

theorem isSkated_opposite (m : Move) : m.opposite.isSkated = m.isSkated := by
  cases m with
  | part p => cases p <;> rfl
  | _ => rfl

theorem named?_opposite (m : Move) : m.opposite.named? = m.named?.map Code.opposite := by
  cases m with
  | part p => cases p <;> rfl
  | _ => rfl

/-- A sound move is skated as mirror images of the parts in the mirror. -/
theorem mirrors_parts (h : m.fault? = none) :
    List.Forall₂ Part.Mirrors m.parts m.opposite.parts := by
  cases m with
  | part p => exact .cons p.mirrors_opposite .nil
  | figure f => exact Figure.mirrors_parts ((Figure.fault?_eq_none_iff f).1 h).2.2.1
  | _ => exact .nil

/-- A skated move starts on the code of its first part. -/
theorem start?_eq (m : Move) : m.start? = (m.parts.map Part.code?).head?.join := by
  cases m with
  | figure f =>
      rw [start?, Figure.start?, parts, List.head?_map]
      cases f.parts.head? <;> rfl
  | _ => rfl

/-- A skated move ends on the code of its last part. -/
theorem exit?_eq (m : Move) : m.exit? = (m.parts.map Part.code?).getLast?.join := by
  cases m with
  | figure f =>
      rw [exit?, Figure.exit?, parts, List.getLast?_map]
      cases f.parts.getLast? <;> rfl
  | _ => rfl

end Move

-- Both by induction on the parts and their mirror images.
theorem codes_of_mirrors {ps qs : List Part} (h : List.Forall₂ Part.Mirrors ps qs) :
    qs.map Part.code? = (ps.map Part.code?).map (Option.map Code.opposite) := by
  induction h with
  | nil => rfl
  | cons hpart _ ih => rw [List.map_cons, List.map_cons, List.map_cons, hpart.code?_eq, ih]

theorem rotation_of_mirrors {ps qs : List Part} (h : List.Forall₂ Part.Mirrors ps qs) :
    (qs.map Part.rotation).sum = -(ps.map Part.rotation).sum := by
  induction h with
  | nil => rfl
  | cons hpart _ ih =>
      rw [List.map_cons, List.map_cons, List.sum_cons, List.sum_cons, hpart.rotation_eq, ih,
        Int.neg_add]

namespace Move

variable {m : Move}

theorem start?_opposite (h : m.fault? = none) :
    m.opposite.start? = m.start?.map Code.opposite := by
  rw [start?_eq, start?_eq, codes_of_mirrors (mirrors_parts h), List.head?_map]
  cases (m.parts.map Part.code?).head? <;> rfl

theorem exit?_opposite (h : m.fault? = none) :
    m.opposite.exit? = m.exit?.map Code.opposite := by
  rw [exit?_eq, exit?_eq, codes_of_mirrors (mirrors_parts h), List.getLast?_map]
  cases (m.parts.map Part.code?).getLast? <;> rfl

theorem rotation_opposite (h : m.fault? = none) : m.opposite.rotation = -m.rotation :=
  rotation_of_mirrors (mirrors_parts h)

end Move

/-! ### Skaters -/

/-- A skater and a skater in the mirror, wherever they are: on the other foot, and
    turned the other way. -/
structure Skater.Mirrors (s t : Skater) : Prop where
  code : t.code = s.code.opposite
  heading : t.heading.degrees = -s.heading.degrees % 360

/-- A stage and the stage of the mirrored step in the mirror. -/
structure Stage.Mirrors (g h : Stage) : Prop where
  step : h.step = g.step.opposite
  before : g.before.Mirrors h.before
  after : g.after.Mirrors h.after

section Steps

variable {s t : Skater} {m : Move}

/-- Footwork onto a move, and footwork in the mirror. -/
theorem Skater.Mirrors.entering (h : s.Mirrors t) (hm : m.fault? = none) :
    (s.after (m.entering s.code)).Mirrors (t.after (m.opposite.entering t.code)) := by
  constructor
  case heading =>
    rw [Move.heading_after_entering, Move.heading_after_entering]
    exact h.heading
  case code =>
    have hkind := m.isSkated_opposite
    cases hskated : m.isSkated with
    | true =>
        have hstart := Move.code_after_entering hskated s s.code
        have hmirror := Move.code_after_entering (hkind.trans hskated) t t.code
        rw [Move.start?_opposite hm, hstart] at hmirror
        exact (Option.some.inj hmirror).symm
    | false =>
        rw [Move.entering_of_directive hskated, Move.entering_of_directive (hkind.trans hskated),
          Skater.after_nothing, Skater.after_nothing]
        exact h.code

/-- A move, and the move in the mirror. -/
theorem Skater.Mirrors.effect (h : s.Mirrors t) (hm : m.fault? = none)
    (hwarp : ∀ w, m ≠ .warp w) : (s.after m.effect).Mirrors (t.after m.opposite.effect) := by
  constructor
  case heading =>
    have hwarp' : ∀ w, m.opposite ≠ .warp w := by
      cases m with
      | warp w => exact absurd rfl (hwarp w)
      | _ => exact fun w hw => Move.noConfusion hw
    rw [Move.heading_after_effect hwarp, Move.heading_after_effect hwarp',
      Move.rotation_opposite hm, h.heading]
    omega
  case code =>
    have hkind := m.isSkated_opposite
    cases hskated : m.isSkated with
    | true =>
        have hexit := Move.code_after_effect hskated s
        have hmirror := Move.code_after_effect (hkind.trans hskated) t
        rw [Move.exit?_opposite hm, hexit] at hmirror
        exact (Option.some.inj hmirror).symm
    | false =>
        rw [Move.code_after_directive hskated, Move.code_after_directive (hkind.trans hskated),
          Move.named?_opposite, h.code]
        cases m.named? <;> rfl

/-- The skaters at the beginning of a walk and of the walk in the mirror. -/
theorem mirrors_firstSkater (hm : m.fault? = none) :
    (firstSkater m).Mirrors (firstSkater m.opposite) := by
  constructor
  case heading => rfl
  case code =>
    rw [firstSkater, firstSkater, Move.start?_opposite hm]
    cases m.start? <;> rfl

end Steps

/-! ### Walks -/

/-- One step, taken by a skater and in the mirror. -/
theorem Stage.mirrors_ofStep {before before' : Skater} (h : before.Mirrors before') {s : Step}
    (hm : s.move.fault? = none) (hwarp : ∀ w, s.move ≠ .warp w) :
    (Stage.ofStep before s).Mirrors (Stage.ofStep before' s.opposite) where
  step := rfl
  before := h
  after := h.effect hm hwarp

-- By induction on the steps: what the first stages leave behind are mirror images again.
theorem mirrors_walkFrom {steps : List Step} {skater skater' : Skater}
    (h : skater.Mirrors skater') (hsound : ∀ s ∈ steps, s.move.fault? = none)
    (hwarp : ∀ s ∈ steps, ∀ w, s.move ≠ .warp w) :
    List.Forall₂ Stage.Mirrors (walkFrom skater steps)
      (walkFrom skater' (steps.map Step.opposite)) := by
  induction steps generalizing skater skater' with
  | nil => exact .nil
  | cons s rest ih =>
      rw [List.forall_mem_cons] at hsound hwarp
      have hstage := Stage.mirrors_ofStep (h.entering hsound.1) hsound.1 hwarp.1
      exact .cons hstage (ih hstage.after hsound.2 hwarp.2)

/-- What becomes of a sequence in the mirror. -/
structure MirrorsWalk (steps : List Step) : Prop where
  /-- Every move has a mirror image that can be skated, and written if the move can, and is
      that of its own. -/
  moves : ∀ s ∈ steps, s.move.opposite.fault? = none ∧
    s.move.opposite.checked = s.move.checked.map Move.opposite ∧
    s.move.opposite.opposite = s.move
  /-- Walking the mirror images mirrors the walk, stage by stage. -/
  stages : List.Forall₂ Stage.Mirrors (walk steps) (walk (steps.map Step.opposite))
  /-- Figures are laid out as the mirror images of their parts. -/
  figures : ∀ s ∈ steps, ∀ f, s.move = .figure f →
    s.move.opposite = .figure f.opposite ∧ List.Forall₂ Part.Mirrors f.parts f.opposite.parts

/-- A sequence of sound moves without warps is skated on the other foot as if seen in a
    mirror. -/
theorem mirrors_walk {steps : List Step} (hsound : ∀ s ∈ steps, s.move.fault? = none)
    (hwarp : ∀ s ∈ steps, ∀ w, s.move ≠ .warp w) : MirrorsWalk steps := by
  constructor
  case moves =>
    intro s hs
    exact ⟨Move.fault?_opposite (hsound s hs), Move.checked_opposite (hsound s hs) (hwarp s hs),
      Move.opposite_opposite (hwarp s hs)⟩
  case stages =>
    cases steps with
    | nil => exact .nil
    | cons s rest =>
        rw [List.forall_mem_cons] at hsound hwarp
        have hstage := Stage.mirrors_ofStep (mirrors_firstSkater hsound.1) hsound.1 hwarp.1
        exact .cons hstage (mirrors_walkFrom hstage.after hsound.2 hwarp.2)
  case figures =>
    intro s hs f hf
    have hmirrors := Move.mirrors_parts (hsound s hs)
    rw [hf] at hmirrors ⊢
    exact ⟨rfl, hmirrors⟩

/-- An open mohawk onto the right foot, a step to the left and one and a half turns. -/
def mohawkTwizzle : List Step :=
  [{ move := .figure (.ofValues (.footChange .openMohawk) ⟨.left, .forward, .inside⟩ []) },
   { move := .part (.shift { side := 50, rotation := 90 }) },
   { move := .figure (.ofValues (.twizzle 3) ⟨.right, .backward, .outside⟩ []) }]

theorem mirrors_walk_mohawkTwizzle :
    (∀ s ∈ mohawkTwizzle, s.move.fault? = none) ∧
      (∀ s ∈ mohawkTwizzle, ∀ w, s.move ≠ .warp w) ∧ MirrorsWalk mohawkTwizzle := by
  have hsound : ∀ s ∈ mohawkTwizzle, s.move.fault? = none := by decide +kernel
  have hwarp : ∀ s ∈ mohawkTwizzle, ∀ w, s.move ≠ .warp w := by
    simp only [mohawkTwizzle, List.forall_mem_cons, ne_eq, reduceCtorEq, not_false_eq_true,
      implies_true, List.not_mem_nil, false_implies, and_self]
  exact ⟨hsound, hwarp, mirrors_walk hsound hwarp⟩

end IceFigures
