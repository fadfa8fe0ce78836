import IceFigures.Proofs.MoveText
import Mathlib.Data.List.Forall2

/-!
# Mirrored Layouts

A figure on the other foot is laid out anew from the mirrored entry code. Every
layout has a sign that depends on the entry: the way the code curves, the side of a
step or the sense of a jump. In a mirror this sign changes and nothing else does,
so the parts come out as the mirror images of the parts that there were: arcs,
glides and hops of the same size on the other foot, and shifts to the other side
that turn the other way (`Figure.mirrors_parts`).

Labels are left out of this. Some of them show the entry code or the suffix, and
some stand on the same side of the skater on either foot.

Whatever is wrong with a part is wrong with its mirror image, so a figure has a
mirror image that can be skated if it can be skated itself.

## Main definitions

* `Part.Mirrors`: A part and its mirror image, whatever their labels are.

## Theorems

* `FigureKind.hand?_opposite`: In a mirror the sign of a layout changes.
* `Turn.mirrors_parts`, `FootChange.mirrors_parts`, `mirrors_changeOfEdgeParts`,
  `mirrors_loopParts`, `mirrors_twizzleParts`, `Jump.mirrors_parts`: The layouts.
* `Figure.mirrors_parts`: The parts of a figure.
* `Figure.fault?_opposite`: The mirror image of a sound figure is sound.
-/

namespace IceFigures

/-- A part and its mirror image. Whatever they are labelled with, they are of one kind
    and size, on opposite feet, and shift the skater to opposite sides. -/
inductive Part.Mirrors : Part → Part → Prop
  | curve (c : Curve) (label : String) :
      Mirrors (.curve c) (.curve { c.opposite with label := label })
  | straight (s : Straight) : Mirrors (.straight s) (.straight s.opposite)
  | hop (h : Hop) : Mirrors (.hop h) (.hop h.opposite)
  | shift (s : Shift) : Mirrors (.shift s) (.shift s.opposite)
  | label (l l' : Label) : Mirrors (.label l) (.label l')

/-! ### Signs -/

theorem Foot.opposite_opposite (f : Foot) : f.opposite.opposite = f := by
  cases f <;> rfl

theorem FootChange.side?_opposite (f : FootChange) (c : Code) :
    f.side? c.opposite = (f.side? c).map (- ·) := by
  rcases c with ⟨foot, travel, edge⟩
  cases f <;> cases foot <;> cases travel <;> cases edge <;> rfl

theorem Jump.sense?_opposite (j : Jump) (c : Code) :
    j.sense? c.opposite = (j.sense? c).map (- ·) := by
  rcases c with ⟨foot, travel, edge⟩
  cases j <;> cases foot <;> cases travel <;> cases edge <;> rfl

/-- In a mirror the sign of a layout changes, and legal entries stay legal. -/
theorem FigureKind.hand?_opposite (kind : FigureKind) (c : Code) :
    kind.hand? c.opposite = (kind.hand? c).map (- ·) := by
  have hcurving : (if c.opposite.turn = 0 then none else some c.opposite.turn) =
      (if c.turn = 0 then none else some c.turn).map (- ·) := by
    rw [c.turn_opposite]
    by_cases h : c.turn = 0
    · rw [h]
      rfl
    · rw [if_neg h, if_neg (Int.neg_ne_zero.2 h)]
      rfl
  cases kind with
  | footChange f => exact f.side?_opposite c
  | jump j n => exact j.sense?_opposite c
  | _ => exact hcurving

theorem Jump.footFor_neg {sense : Int} (h : sense = 1 ∨ sense = -1) (foot : Foot) :
    footFor (-sense) foot = (footFor sense foot).opposite := by
  rcases h with rfl | rfl
  · rfl
  · exact foot.opposite_opposite.symm

/-! ### Parts -/

namespace Part

/-- A shift is mirrored by one to the other side that turns the other way. -/
theorem mirrors_shift {s t : Shift} (hside : t.side = -s.side) (hforward : t.forward = s.forward)
    (hrotation : t.rotation = -s.rotation) (hcode : t.code = s.code.map Code.opposite) :
    (shift s).Mirrors (shift t) := by
  have ht : t = s.opposite := by
    rcases t with ⟨side, forward, rotation, code⟩
    simp only at hside hforward hrotation hcode
    rw [hside, hforward, hrotation, hcode]
    rfl
  rw [ht]
  exact .shift s

/-- The mirror image of a cusp is the cusp that turns the other way. -/
theorem mirrors_cusp {r r' : Int} (h : r' = -r) (c : Code) :
    (cusp r c).Mirrors (cusp r' c.opposite) :=
  mirrors_shift rfl rfl h rfl

/-- Nothing is wrong with the mirror image of a part if nothing is with the part. -/
theorem Mirrors.fault?_eq_none {p q : Part} (h : p.Mirrors q) (hp : p.fault? = none) :
    q.fault? = none := by
  cases h with
  | curve c label =>
      have hturn : c.code.opposite.turn = 0 ↔ c.code.turn = 0 := by
        rw [Code.turn_opposite, Int.neg_eq_zero]
      simp only [fault?, Curve.fault?, Curve.opposite, hturn] at hp ⊢
      split at hp
      · cases hp
      · rw [if_neg ‹_›]
        exact hp
  | straight s =>
      have hflat : s.code.edge = .flat := Straight.edge_eq_flat hp
      have hmirror : s.opposite.code.edge = .flat := hflat
      change s.fault? = none at hp
      change s.opposite.fault? = none
      rw [Straight.fault?, if_neg (not_not_intro hflat)] at hp
      rw [Straight.fault?, if_neg (not_not_intro hmirror)]
      exact hp
  | hop j =>
      have hflat : j.opposite.code.edge = .flat := Hop.edge_eq_flat (h := j) hp
      exact if_neg (not_not_intro hflat)
  | shift s => rfl
  | label l l' => rfl

/-- A part is mirrored by the same part on the other foot. -/
theorem mirrors_opposite (p : Part) : p.Mirrors p.opposite := by
  cases p with
  | curve c => exact .curve c c.label
  | straight s => exact .straight s
  | hop j => exact .hop j
  | shift s => exact .shift s
  | label l => exact .label l l.opposite

theorem Mirrors.code?_eq {p q : Part} (h : p.Mirrors q) : q.code? = p.code?.map Code.opposite := by
  cases h <;> rfl

theorem Mirrors.rotation_eq {p q : Part} (h : p.Mirrors q) : q.rotation = -p.rotation := by
  cases h with
  | curve c label =>
      rw [rotation, Curve.rotation, Curve.opposite, Code.turn_opposite, Int.mul_neg]
      rfl
  | shift s => rfl
  | _ => exact Int.neg_zero.symm

end Part

/-! ### Layouts -/

section Layouts

open IceFigures.Part (Mirrors mirrors_cusp mirrors_shift)

variable (footwork : Footwork) (c : Code)

theorem Turn.mirrors_parts (t : Turn) (v : TwoPart) :
    List.Forall₂ Mirrors (t.parts v footwork c) (t.parts v footwork c.opposite) := by
  have houter : c.opposite.turn * cuspRotation = -(c.turn * cuspRotation) := by
    rw [c.turn_opposite, Int.neg_mul]
  have hinner : -c.opposite.turn * cuspRotation = -(-c.turn * cuspRotation) := by
    rw [c.turn_opposite, Int.neg_mul (-c.turn)]
  cases t with
  | three =>
      exact .cons (.curve _ _) (.cons (.curve _ _) (.cons (mirrors_cusp hinner _)
        (.cons (.curve _ _) (.cons (.curve _ _) .nil))))
  | bracket =>
      exact .cons (.curve _ _) (.cons (.straight _) (.cons (.curve _ _) (.cons (.label _ _)
        (.cons (mirrors_cusp houter _) (.cons (.curve _ _) (.cons (.straight _)
          (.cons (.curve _ _) .nil)))))))
  | rocker =>
      exact .cons (.curve _ _) (.cons (.curve _ _) (.cons (.label _ _)
        (.cons (mirrors_cusp hinner _) (.cons (.curve _ _) (.cons (.straight _)
          (.cons (.curve _ _) .nil))))))
  | counter =>
      exact .cons (.curve _ _) (.cons (.straight _) (.cons (.curve _ _) (.cons (.label _ _)
        (.cons (mirrors_cusp houter _) (.cons (.curve _ _) (.cons (.curve _ _) .nil))))))

/-- A step to one side is mirrored by the step to the other. -/
theorem FootChange.mirrors_step (f : FootChange) (side : Int) :
    List.Forall₂ Mirrors (f.step side c) (f.step (-side) c.opposite) := by
  have hneg : ∀ n : Int, n * -side = -(n * side) := fun n => Int.mul_neg n side
  cases f with
  | openMohawk => exact .cons (.label _ _) (.cons (mirrors_shift (hneg 80) rfl (hneg 90) rfl) .nil)
  | closedMohawk => exact .cons (.label _ _) (.cons (mirrors_shift (hneg 30) rfl rfl rfl) .nil)
  | openChoctaw => exact .cons (.label _ _) (.cons (mirrors_shift (hneg 40) rfl rfl rfl) .nil)
  | closedChoctaw => exact .cons (.label _ _) (.cons (mirrors_shift (hneg 30) rfl rfl rfl) .nil)

theorem FootChange.mirrors_parts (f : FootChange) (v : TwoPart) (side : Int) :
    List.Forall₂ Mirrors (f.parts v footwork side c) (f.parts v footwork (-side) c.opposite) := by
  have hout : f.out c.opposite = (f.out c).opposite := by cases f <;> rfl
  rw [parts_eq, parts_eq, hout]
  exact .cons (.curve _ _) (List.rel_append (f.mirrors_step _ side) (.cons (.curve _ _) .nil))

theorem mirrors_changeOfEdgeParts (v : TwoPart) (flatLen : Int) :
    List.Forall₂ Mirrors (changeOfEdgeParts v flatLen footwork c)
      (changeOfEdgeParts v flatLen footwork c.opposite) :=
  .cons (.curve _ _) (.cons (.straight _) (.cons (.curve _ _) .nil))

theorem mirrors_loopParts (v : TwoPart) :
    List.Forall₂ Mirrors (loopParts v footwork c) (loopParts v footwork c.opposite) :=
  .cons (.curve _ _) (.cons (.curve _ _) (.cons (.curve _ _) (.cons (.curve _ _)
    (.cons (.curve _ _) .nil))))

/-- One half-turn. The labels in its middle may differ. -/
theorem Twist.mirrors_halfTurn (v : Twist) (label label' : String) (total index : Nat) :
    List.Forall₂ Mirrors (v.halfTurn label total index c)
      (v.halfTurn label' total index c.opposite) := by
  have hturn : -c.opposite.turn * 2 * v.angle = -(-c.turn * 2 * v.angle) := by
    rw [c.turn_opposite, Int.neg_mul (-c.turn), Int.neg_mul]
  have hlabel : ∀ (shown : Prop) [Decidable shown] (l l' : Label),
      List.Forall₂ Mirrors ((if shown then [⟨.label l, none⟩] else []).map PlacedPart.part)
        ((if shown then [⟨.label l', none⟩] else []).map PlacedPart.part) := by
    intro shown _ l l'
    split
    · exact .cons (.label l l') .nil
    · exact .nil
  simp only [halfTurn, halfTurnLayout, List.map_append]
  refine List.rel_append (List.rel_append (List.rel_append (List.rel_append ?_ ?_) ?_) ?_) ?_
  · exact .cons (.curve _ _) (.cons (.curve _ _) .nil)
  · exact hlabel _ _ _
  · exact .cons (mirrors_cusp hturn _) .nil
  · exact .cons (.curve _ _) (.cons (.curve _ _) .nil)
  · exact hlabel _ _ _

-- By induction on the half-turns left: the mirror image of the reverse code is the
-- reverse of the mirror image.
theorem Twist.mirrors_halfTurns (v : Twist) (label label' : String) (total rest index : Nat) :
    List.Forall₂ Mirrors (v.halfTurns label total rest index c)
      (v.halfTurns label' total rest index c.opposite) := by
  induction rest generalizing index c with
  | zero => exact .nil
  | succ rest ih =>
      rw [halfTurns_succ, halfTurns_succ]
      exact List.rel_append (v.mirrors_halfTurn c label label' total index)
        (ih c.reversed (index + 1))

theorem mirrors_twizzleParts (v : Twist) (halfTurns : Int) :
    List.Forall₂ Mirrors (twizzleParts v halfTurns footwork c)
      (twizzleParts v halfTurns footwork c.opposite) := by
  have hafter : afterHalfTurns halfTurns.toNat c.opposite =
      (afterHalfTurns halfTurns.toNat c).opposite := by
    unfold afterHalfTurns
    split <;> rfl
  have hlast : Mirrors (v.arc (afterHalfTurns halfTurns.toNat c) v.postAngle v.postLen)
      (v.arc (afterHalfTurns halfTurns.toNat c.opposite) v.postAngle v.postLen) := by
    rw [hafter]
    exact .curve _ _
  rw [twizzleParts_eq, twizzleParts_eq]
  exact List.rel_append (.cons (.curve _ _) (v.mirrors_halfTurns c _ _ _ _ _))
    (.cons hlast .nil)

theorem Leap.mirrors_tightening (v : Leap) (arcs : List (Int × Int)) :
    List.Forall₂ Mirrors (v.tightening footwork c arcs)
      (v.tightening footwork c.opposite arcs) := by
  cases arcs with
  | nil => exact .nil
  | cons arc rest =>
      rw [tightening_cons, tightening_cons]
      refine .cons (.curve _ _) ?_
      rw [List.forall₂_map_left_iff, List.forall₂_map_right_iff, List.forall₂_same]
      exact fun _ _ => .curve _ _

theorem Jump.mirrors_parts (j : Jump) (v : Leap) (rotations : Int) {sense : Int}
    (h : sense = 1 ∨ sense = -1) :
    List.Forall₂ Mirrors (j.parts v rotations footwork sense c)
      (j.parts v rotations footwork (-sense) c.opposite) := by
  have hleft : ∀ n : Int, -sense * n = -(sense * n) := fun n => Int.neg_mul sense n
  have hright : ∀ n : Int, n * -sense = -(n * sense) := fun n => Int.mul_neg n sense
  rw [parts, parts, layout, layout, footFor_neg h, footFor_neg h]
  split
  · exact .cons (.curve _ _) (.cons (mirrors_shift (hleft _) rfl rfl rfl) (.cons (.hop _)
      (.cons (mirrors_shift (hleft _) rfl rfl rfl) (.cons (.curve _ _) .nil))))
  · rw [List.map_append, List.map_append]
    exact List.rel_append (v.mirrors_tightening footwork c j.arcs) (.cons (.hop _)
      (.cons (mirrors_shift (hright _) rfl (hright _) rfl) (.cons (.curve _ _) .nil)))

end Layouts

/-! ### Figures -/

namespace Figure

theorem hand_opposite (f : Figure) : f.opposite.hand = -f.hand := by
  rw [hand, hand, opposite, FigureKind.hand?_opposite]
  cases f.kind.hand? f.entry with
  | none => rfl
  | some hand => rfl

/-- The parts of a figure on a legal entry are mirrored by those of the figure on the
    other foot. -/
theorem mirrors_parts {f : Figure} (h : (f.kind.hand? f.entry).isNone = false) :
    List.Forall₂ Part.Mirrors f.parts f.opposite.parts := by
  have hhand := f.hand_opposite
  rcases f with ⟨kind, entry, values, footwork⟩
  cases kind with
  | turn t => exact t.mirrors_parts footwork entry _
  | footChange g =>
      rw [parts_eq, parts_eq, hhand]
      exact g.mirrors_parts footwork entry _ _
  | changeOfEdge => exact mirrors_changeOfEdgeParts footwork entry _ _
  | loop => exact mirrors_loopParts footwork entry _
  | twizzle n => exact mirrors_twizzleParts footwork entry _ n
  | jump j n =>
      have hsense := hand_of_legal h
      rw [parts_eq, parts_eq, hhand]
      exact j.mirrors_parts footwork entry _ n hsense

theorem numericFault?_append_eq_none_iff {values : List Param} {names names' : List String} :
    numericFault? values (names ++ names') = none ↔
      numericFault? values names = none ∧ numericFault? values names' = none := by
  rw [numericFault?, List.findSome?_append, Option.or_eq_none_iff, numericFault?, numericFault?]

theorem piecesFault?_eq_none_iff (f : Figure) :
    f.piecesFault? = none ↔ numericFault? f.values (numbersLast f.kind) = none ∧
      ∀ p ∈ f.parts, p.fault? = none := by
  have hparts : ∀ n, (∀ p ∈ f.parts, p.fault? = none) ↔
      (∀ p ∈ f.parts.take n, p.fault? = none) ∧ ∀ p ∈ f.parts.drop n, p.fault? = none := by
    intro n
    rw [← List.forall_mem_append, List.take_append_drop]
  rw [piecesFault?, hparts (f.parts.length - partsLast f.kind)]
  simp only [List.splitAt_eq, Option.orElse_eq_none, List.findSome?_eq_none_iff]
  tauto

/-- Nothing is wrong with a layout if its parameters are numbers, it can be labelled, and
    nothing is wrong with any part. -/
theorem layoutFault?_eq_none_iff (f : Figure) :
    f.layoutFault? = none ↔
      numericFault? f.values (numbersFirst f.kind ++ numbersNext f.kind ++ numbersLast f.kind) =
          none ∧
        f.kind.labelFault? = none ∧ ∀ p ∈ f.parts, p.fault? = none := by
  rw [layoutFault?, numericFault?_append_eq_none_iff, numericFault?_append_eq_none_iff]
  simp only [Option.orElse_eq_none, piecesFault?_eq_none_iff]
  tauto

/-- The mirror image of a sound figure is sound. -/
theorem fault?_opposite {f : Figure} (h : f.fault? = none) : f.opposite.fault? = none := by
  rcases (fault?_eq_none_iff f).1 h with ⟨hfits, hkind, hhand, hlayout⟩
  rcases (layoutFault?_eq_none_iff f).1 hlayout with ⟨hnumbers, hlabel, hparts⟩
  have hhand' : (f.opposite.kind.hand? f.opposite.entry).isNone = false := by
    rw [opposite, FigureKind.hand?_opposite, Option.isNone_map, hhand]
  have hparts' : ∀ q ∈ f.opposite.parts, q.fault? = none := by
    intro q hq
    rcases List.mem_iff_getElem.1 hq with ⟨i, hi, rfl⟩
    have hmirrors := mirrors_parts hhand
    have hi' : i < f.parts.length := hmirrors.length_eq ▸ hi
    exact (hmirrors.get hi' hi).fault?_eq_none (hparts _ (List.getElem_mem hi'))
  exact (fault?_eq_none_iff f.opposite).2
    ⟨hfits, hkind, hhand', (layoutFault?_eq_none_iff f.opposite).2 ⟨hnumbers, hlabel, hparts'⟩⟩

end Figure

end IceFigures
