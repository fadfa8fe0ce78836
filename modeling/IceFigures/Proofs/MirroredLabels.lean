import IceFigures.Proofs.MirroredLayouts
import IceFigures.Proofs.Twizzles

/-!
# Labels of Mirrored Figures

A label inside of a figure stands at a distance to the skater's left, and a mirror puts
it at the same distance to the right. The labels of turns stand straight ahead, where a
mirror leaves them, and those of steps are laid out with the sign of the step. Both come
out mirrored.

The label of a twizzle has a fixed side, whatever the entry code is. The figure on the other
foot is laid out with its label on the same side as before, and no label of a twizzle is ever
mirrored. The text of this label names the entry code, so in a mirror it names the other one.

Parts and their mirror images are of one kind (`Figure.mirrors_parts`), so labels stand at
the same places of both layouts, and it is enough to compare the labels one after another
(`Figure.reflectsLabels_iff`).

## Main definitions

* `Part.label?`, `labelsOf`: The labels among parts.
* `Label.Reflects`: A label and its mirror image, or the same label on the same side.
* `Figure.ReflectsLabels`: Figures whose labels are mirrored in place.
* `twizzleLabel`: The label of a twizzle.

## Theorems

* `Figure.labelsOf_opposite`: A mirror puts the labels of all other figures on the other side.
* `labelsOf_twizzleParts`: A twizzle has a single label, with its side fixed.
* `Figure.reflectsLabels_labelSign`: Where the mirror leaves the labels of a figure.
-/

namespace IceFigures

/-! ### Labels among parts -/

/-- The label that a part is, if it is one. -/
def Part.label? : Part → Option Label
  | label l => some l
  | _ => none

/-- The labels among parts, in their order. -/
def labelsOf (ps : List Part) : List Label :=
  ps.filterMap Part.label?

theorem labelsOf_append (ps qs : List Part) : labelsOf (ps ++ qs) = labelsOf ps ++ labelsOf qs :=
  List.filterMap_append

/-- Among parts and their mirror images, labels stand at the same places. -/
theorem forall₂_label?_iff {R : Label → Label → Prop} {ps qs : List Part}
    (hmirrors : List.Forall₂ Part.Mirrors ps qs) :
    List.Forall₂ (fun p q => Option.Rel R p.label? q.label?) ps qs ↔
      List.Forall₂ R (labelsOf ps) (labelsOf qs) := by
  constructor
  · exact fun h => List.rel_filterMap (fun _ _ hpq => hpq) h
  · intro h
    -- By induction on the layouts, since only they tell how the labels are spread over them.
    induction hmirrors with
    | nil => exact .nil
    | cons hpq _ ih =>
        cases hpq with
        | label l l' =>
            rcases List.forall₂_cons.1 h with ⟨hl, hrest⟩
            exact .cons (.some hl) (ih hrest)
        | curve c label => exact .cons .none (ih h)
        | straight s => exact .cons .none (ih h)
        | hop j => exact .cons .none (ih h)
        | shift s => exact .cons .none (ih h)

/-! ### Labels in a mirror -/

/-- Labels inside of a figure and its mirror image: they differ in their side by a sign, and in
    nothing else but that the one may name the entry code and the other the code on the other
    foot. -/
structure Label.Reflects (entry : Code) (sign : Int) (l l' : Label) : Prop where
  side : l'.side = sign * l.side
  forward : l'.forward = l.forward
  fontSize : l'.fontSize = l.fontSize
  rotation : l'.rotation = l.rotation
  text : l'.text = l.text ∨ ∃ suffix,
    l.text = codeWithSuffix entry suffix ∧ l'.text = codeWithSuffix entry.opposite suffix

theorem Label.reflects_opposite (entry : Code) (l : Label) : l.Reflects entry (-1) l.opposite :=
  ⟨Int.neg_eq_neg_one_mul l.side, rfl, rfl, rfl, .inl rfl⟩

/-- The label of a step to the other side, onto whatever code. -/
theorem FootChange.labelsOf_step (f : FootChange) (side : Int) (out out' : Code) :
    labelsOf (f.step (-side) out') = (labelsOf (f.step side out)).map Label.opposite := by
  have hname : ∀ (text : String) (forward n : Int),
      [Label.mk text forward (n * -side) 0 0] =
        [(Label.mk text forward (n * side) 0 0).opposite] := by
    intro text forward n
    rw [Int.mul_neg]
    rfl
  cases f with
  | openMohawk => exact hname "OpMo" 30 70
  | closedMohawk => exact hname "ClMo" 0 60
  | openChoctaw => exact hname "OpCho" 10 80
  | closedChoctaw => exact hname "ClCho" 0 60

theorem FootChange.labelsOf_parts (f : FootChange) (v : TwoPart) (footwork : Footwork)
    (side : Int) (c c' : Code) :
    labelsOf (f.parts v footwork (-side) c') =
      (labelsOf (f.parts v footwork side c)).map Label.opposite := by
  have hstep : ∀ s d, labelsOf (f.parts v footwork s d) = labelsOf (f.step s (f.out d)) := by
    intro s d
    rw [f.parts_eq]
    change labelsOf (f.step s (f.out d) ++ [v.exit (f.out d) v.angle2 v.len2 v.label2]) = _
    rw [labelsOf_append]
    exact List.append_nil _
  rw [hstep, hstep, f.labelsOf_step]

namespace Figure

/-- Figures whose labels stand at the same places of the mirrored layout, on sides that differ
    by a sign. -/
def ReflectsLabels (sign : Int) (f : Figure) : Prop :=
  List.Forall₂ (fun p q => Option.Rel (Label.Reflects f.entry sign) p.label? q.label?)
    f.parts f.opposite.parts

theorem reflectsLabels_iff {f : Figure} (h : f.fault? = none) (sign : Int) :
    f.ReflectsLabels sign ↔
      List.Forall₂ (Label.Reflects f.entry sign) (labelsOf f.parts)
        (labelsOf f.opposite.parts) :=
  forall₂_label?_iff (mirrors_parts ((fault?_eq_none_iff f).1 h).2.2.1)

/-- A mirror puts the labels of all figures but twizzles on the other side. -/
theorem labelsOf_opposite {f : Figure} (h : ∀ n, f.kind ≠ .twizzle n) :
    labelsOf f.opposite.parts = (labelsOf f.parts).map Label.opposite := by
  have hhand := f.hand_opposite
  rcases f with ⟨kind, entry, values, footwork⟩
  cases kind with
  | turn t => cases t <;> rfl
  | footChange g =>
      rw [parts_eq, parts_eq, hhand]
      exact g.labelsOf_parts _ footwork _ entry _
  | changeOfEdge => rfl
  | loop => rfl
  | twizzle n => exact absurd rfl (h n)
  | jump j n => cases j <;> rfl

end Figure

/-! ### The label of a twizzle -/

/-- The label of a twizzle of `n` half-turns: left of the skater between the half-turns, or
    ahead of the cusp in the middle. -/
def twizzleLabel (n : Nat) (c : Code) : Label :=
  let text := codeWithSuffix c (twizzleMark ++ turnsText n)
  if n % 2 = 0 then { text := text, side := 100 } else { text := text, forward := 100, side := 30 }

-- By induction on the half-turns, each of which has arcs and a cusp alone.
theorem Twist.labelsOf_spins (v : Twist) (n : Nat) (c : Code) : labelsOf (v.spins n c) = [] := by
  induction n generalizing c with
  | zero => rfl
  | succ n ih => rw [spins, labelsOf_append, ih, List.append_nil]; rfl

/-- A twizzle has a single label, and the entry code shows in its text alone. -/
theorem labelsOf_twizzleParts (v : Twist) (footwork : Footwork) (c : Code) {n : Nat}
    (hpos : 0 < n) : labelsOf (twizzleParts v n footwork c) = [twizzleLabel n c] := by
  -- The label is found in the half-turn in the middle.
  have hturns : ∀ label, labelsOf (v.halfTurns label n n 0 c) =
      labelsOf (v.halfTurn label n ((n - 1) / 2) (afterHalfTurns ((n - 1) / 2) c)) := by
    intro label
    rw [v.halfTurns_eq_around c label hpos, labelsOf_append, labelsOf_append, v.labelsOf_spins,
      v.labelsOf_spins, List.nil_append, List.append_nil]
  have hlayout : labelsOf (twizzleParts v n footwork c) =
      labelsOf (v.halfTurns (codeWithSuffix c (twizzleMark ++ turnsText n)) n n 0 c) := by
    rw [twizzleParts_eq, labelsOf_append]
    exact List.append_nil _
  rw [hlayout, hturns, twizzleLabel]
  rcases Nat.mod_two_eq_zero_or_one n with hn | hn
  · rw [v.halfTurn_even _ _ _ hn, if_pos hn]
    rfl
  · rw [v.halfTurn_odd _ _ _ hn, if_neg (by omega)]
    rfl

theorem twizzleLabel_reflects (n : Nat) (c : Code) :
    (twizzleLabel n c).Reflects c 1 (twizzleLabel n c.opposite) := by
  unfold twizzleLabel
  split <;> exact ⟨rfl, rfl, rfl, rfl, .inr ⟨_, rfl, rfl⟩⟩

/-- Its side is the same on either foot. -/
theorem twizzleLabel_not_reflects (n : Nat) (c c' : Code) :
    ¬(twizzleLabel n c).Reflects c (-1) (twizzleLabel n c') := by
  have hleft : ∀ d, (twizzleLabel n d).side = if n % 2 = 0 then 100 else 30 := by
    intro d
    unfold twizzleLabel
    split <;> rfl
  intro h
  have hside := h.side
  rw [hleft, hleft] at hside
  split at hside <;> omega

/-! ### Figures -/

/-- The sign that a mirror gives to the sides of the labels in a figure. -/
def FigureKind.labelSign : FigureKind → Int
  | twizzle _ => 1
  | _ => -1

theorem FigureKind.labelSign_cases (kind : FigureKind) :
    kind.labelSign = 1 ∨ kind.labelSign = -1 := by
  cases kind with
  | twizzle n => exact .inl rfl
  | _ => exact .inr rfl

namespace Figure

/-- The labels of a sound twizzle and of its mirror image. -/
theorem labelsOf_of_twizzle {f : Figure} {n : Int} (h : f.fault? = none)
    (hkind : f.kind = .twizzle n) :
    labelsOf f.parts = [twizzleLabel n.toNat f.entry] ∧
      labelsOf f.opposite.parts = [twizzleLabel n.toNat f.entry.opposite] := by
  have hcount := ((fault?_eq_none_iff f).1 h).2.1
  rw [hkind, FigureKind.fault?_twizzle_eq_none_iff] at hcount
  have hnat : f.kind = .twizzle (n.toNat : Int) := by rw [hkind, Int.toNat_of_nonneg (by omega)]
  have hpos : 0 < n.toNat := by omega
  constructor
  · rw [(parts_of_twizzle h hnat).2, labelsOf_twizzleParts _ _ _ hpos]
  · rw [(parts_of_twizzle (fault?_opposite h) hnat).2, labelsOf_twizzleParts _ _ _ hpos]
    rfl

/-- No label of a twizzle is mirrored. -/
theorem not_reflectsLabels_of_twizzle {f : Figure} {n : Int} (h : f.fault? = none)
    (hkind : f.kind = .twizzle n) : ¬f.ReflectsLabels (-1) := by
  rcases labelsOf_of_twizzle h hkind with ⟨hlabel, hlabel'⟩
  rw [reflectsLabels_iff h, hlabel, hlabel', List.forall₂_cons]
  exact fun hreflects => twizzleLabel_not_reflects _ _ _ hreflects.1

theorem reflectsLabels_of_ne_twizzle {f : Figure} (h : f.fault? = none)
    (hkind : ∀ n, f.kind ≠ .twizzle n) : f.ReflectsLabels (-1) := by
  rw [reflectsLabels_iff h, labelsOf_opposite hkind, List.forall₂_map_right_iff, List.forall₂_same]
  exact fun l _ => l.reflects_opposite f.entry

/-- The sides of all labels of a figure change by one sign. -/
theorem reflectsLabels_of_sound {f : Figure} (h : f.fault? = none) :
    f.ReflectsLabels f.kind.labelSign := by
  cases hkind : f.kind with
  | twizzle n =>
      rcases labelsOf_of_twizzle h hkind with ⟨hlabel, hlabel'⟩
      rw [reflectsLabels_iff h, hlabel, hlabel']
      exact .cons (twizzleLabel_reflects _ _) .nil
  | _ => exact reflectsLabels_of_ne_twizzle h fun n => by rw [hkind]; exact FigureKind.noConfusion

/-- The labels inside of a sound figure stand at the same places of the figure on the other
    foot, as far ahead, of the same size and at the same angle. Those of twizzles stay on the
    side they were on, and all others change to the other side. -/
theorem reflectsLabels_labelSign {f : Figure} (h : f.fault? = none) :
    f.opposite.fault? = none ∧ f.ReflectsLabels f.kind.labelSign ∧
      (f.ReflectsLabels (-1) ↔ ∀ n, f.kind ≠ .twizzle n) := by
  refine ⟨fault?_opposite h, reflectsLabels_of_sound h, ?_, reflectsLabels_of_ne_twizzle h⟩
  exact fun hreflects n hkind => not_reflectsLabels_of_twizzle h hkind hreflects

end Figure

/-- An open mohawk, named to the right of the left foot. -/
def openMohawk : Figure :=
  .ofValues (.footChange .openMohawk) ⟨.left, .forward, .inside⟩ []

theorem reflectsLabels_openMohawk :
    openMohawk.fault? = none ∧ openMohawk.opposite.fault? = none ∧
      openMohawk.ReflectsLabels (-1) := by
  have hsound : openMohawk.fault? = none := by decide +kernel
  rcases Figure.reflectsLabels_labelSign hsound with ⟨hmirror, hlabels, -⟩
  exact ⟨hsound, hmirror, hlabels⟩

/-- A twizzle of one turn. -/
def oneTurn : Figure :=
  .ofValues (.twizzle 2) ⟨.left, .forward, .inside⟩ []

/-- Its label is to the left of the skater on either foot. -/
theorem not_reflectsLabels_oneTurn :
    oneTurn.fault? = none ∧ ¬oneTurn.ReflectsLabels (-1) := by
  have hsound : oneTurn.fault? = none := by decide +kernel
  exact ⟨hsound, Figure.not_reflectsLabels_of_twizzle hsound rfl⟩

end IceFigures
