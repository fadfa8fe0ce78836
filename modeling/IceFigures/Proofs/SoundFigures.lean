import IceFigures.Proofs.MirroredLayouts
import IceFigures.Proofs.WalkState

/-!
# Which Figures Can Be Skated

The ranges of a schema ask no more of a length or an angle than to be positive, and of a
difference not even that. What a figure really takes is settled when it is laid out.
Lengths and angles are split by shares that are rounded down, flats of a fixed length are
taken off what is left of a length at a cusp, and the exit is the entry plus a
difference that may be negative. Every part has to come out positive.

For each kind of figure that comes to a few lower bounds on the entry and the exit
(`FigureKind.Fits`), and nothing else can be wrong with values in range: numbers are
numbers, and parts are on edges where arcs need them and on flats where glides do, if
the entry code is legal (`FigureKind.entries`).

A twizzle is asked for one thing more. Its label shows the number of whole turns and is
written before any part is made, so there must not be more of them than can be written
(`FigureKind.labelFault?_twizzle_eq_none_iff`).

The ranges themselves have no upper end, and past some size no number will do. An arc that
turns by more than `Curve.maxAngle` has no end for the next part to follow on, so a figure
of numbers that fit is refused for it. Figures whose parameters have 300 digits at most are
far from that (`Move.checked_of_holds`), and lists hold ten.

The bounds are those of the layouts, so each is derived from its layout alone:
arc by arc, and for twizzles by induction on the half-turns.

## Main definitions

* `FigureKind.entries`: The codes that a figure may be entered on.
* `Turn.Fits`, `Twist.Fits`, `Jump.Fits`: Bounds on the parameters of one layout.
* `FigureKind.Fits`: What is asked of the numbers of a figure.
* `SoundParts`: Parts with which nothing is wrong.

## Theorems

* `FigureKind.mem_entries_iff`: The legal entries are those with a layout.
* `Turn.sound_parts_iff`, `FootChange.sound_parts_iff`, `sound_changeOfEdgeParts_iff`,
  `sound_loopParts_iff`, `sound_twizzleParts_iff`, `Jump.sound_parts_iff`: When the parts
  of a layout can be skated.
* `Figure.fault?_eq_none_iff_fits`: When nothing is wrong with a figure.
* `Figure.partsFault?_parts`: The parts of a figure may follow one another.
* `checked_ofValues_iff`: Which figures can be put together.
* `checked_twizzle_of_tooLong`, `checked_ofValues_of_maxAngle_lt`: Figures of numbers that
  are too large are refused although they fit.
-/

namespace IceFigures

/-! ### The domain -/

/-- A direction and an edge on the left foot and on the right. -/
def onEitherFoot (travel : Travel) (edge : Edge) : List Code :=
  [⟨.left, travel, edge⟩, ⟨.right, travel, edge⟩]

/-- The codes that curve. -/
def curvingCodes : List Code :=
  onEitherFoot .forward .outside ++ onEitherFoot .forward .inside ++
    onEitherFoot .backward .outside ++ onEitherFoot .backward .inside

/-- The codes that a change of foot may be entered on. -/
def FootChange.entries : FootChange → List Code
  | openMohawk | openChoctaw => onEitherFoot .forward .inside
  | closedChoctaw => onEitherFoot .backward .outside
  | closedMohawk => onEitherFoot .backward .outside ++ onEitherFoot .forward .outside

/-- The codes that a jump may be entered on. -/
def Jump.entries : Jump → List Code
  | salchow | flip => onEitherFoot .backward .inside
  | toeLoop | loop | lutz => onEitherFoot .backward .outside
  | axel => onEitherFoot .forward .outside

/-- The codes that a figure may be entered on. -/
def FigureKind.entries : FigureKind → List Code
  | footChange f => f.entries
  | jump j _ => j.entries
  | _ => curvingCodes

/-- What a turn needs of its entry and its exit. -/
def Turn.Fits : Turn → TwoPart → Prop
  | three, v => 2 ≤ v.angle1 ∧ 2 ≤ v.angle2 ∧ 2 ≤ v.len1 ∧ 2 ≤ v.len2
  | bracket, v => 1 ≤ v.angle2 ∧ 161 ≤ v.len1 ∧ 161 ≤ v.len2
  | rocker, v => 1 ≤ v.angle2 ∧ 2 ≤ v.len1 ∧ 81 ≤ v.len2
  | counter, v => 1 ≤ v.angle2 ∧ 81 ≤ v.len1 ∧ 2 ≤ v.len2

/-- What a twizzle needs of its half-turns. -/
def Twist.Fits (v : Twist) : Prop :=
  2 ≤ v.angle ∧ 2 ≤ v.len

/-- What a jump needs of its entry and its exit. -/
def Jump.Fits (j : Jump) (v : Leap) : Prop :=
  1 ≤ v.exitAngle ∧ 1 ≤ v.exitLen ∧
    match j with
    | salchow | loop => 2 ≤ v.entryAngle ∧ 12 ≤ v.entryLen
    | axel => 2 ≤ v.entryAngle ∧ 6 ≤ v.entryLen
    | toeLoop | flip | lutz => True

/-- What is asked of the numbers of a figure, beside that they are in range. -/
def FigureKind.Fits : FigureKind → List Param → Prop
  | turn t, ps => t.Fits (.ofParams ps)
  | footChange _, ps | changeOfEdge, ps | loop, ps =>
    1 ≤ (TwoPart.ofParams ps).angle2 ∧ 1 ≤ (TwoPart.ofParams ps).len2
  | twizzle halfTurns, ps =>
    2 ≤ halfTurns ∧ halfTurns / 2 < 10 ^ Text.maxDigits ∧ (Twist.ofParams ps).Fits
  | jump j rotations, ps => (1 ≤ rotations ∧ rotations ≤ 4) ∧ j.Fits (.ofParams ps)

/-! ### Entries -/

theorem mem_curvingCodes_iff (c : Code) : c ∈ curvingCodes ↔ c.turn ≠ 0 := by
  rcases c with ⟨foot, travel, edge⟩
  cases foot <;> cases travel <;> cases edge <;> decide

theorem FootChange.mem_entries_iff (f : FootChange) (c : Code) :
    c ∈ f.entries ↔ (f.side? c).isNone = false := by
  rcases c with ⟨foot, travel, edge⟩
  cases f <;> cases foot <;> cases travel <;> cases edge <;> decide

theorem Jump.mem_entries_iff (j : Jump) (c : Code) :
    c ∈ j.entries ↔ (j.sense? c).isNone = false := by
  rcases c with ⟨foot, travel, edge⟩
  cases j <;> cases foot <;> cases travel <;> cases edge <;> decide

/-- The legal entries are the codes that a figure is laid out on. -/
theorem FigureKind.mem_entries_iff (kind : FigureKind) (entry : Code) :
    entry ∈ kind.entries ↔ (kind.hand? entry).isNone = false := by
  have hcurving : entry ∈ curvingCodes ↔
      (if entry.turn = 0 then none else some entry.turn).isNone = false := by
    rw [mem_curvingCodes_iff]
    split
    · simp only [ne_eq, not_true_eq_false, Option.isNone_none, reduceCtorEq, *]
    · simp only [ne_eq, not_false_eq_true, Option.isNone_some, *]
  cases kind with
  | footChange f => exact f.mem_entries_iff entry
  | jump j n => exact j.mem_entries_iff entry
  | _ => exact hcurving

/-- Figures are entered on codes that curve. -/
theorem FigureKind.turn_ne_zero {kind : FigureKind} {entry : Code} (h : entry ∈ kind.entries) :
    entry.turn ≠ 0 := by
  rw [← mem_curvingCodes_iff]
  cases kind with
  | footChange f => exact (by cases f <;> decide : f.entries ⊆ curvingCodes) h
  | jump j n => exact (by cases j <;> decide : j.entries ⊆ curvingCodes) h
  | _ => exact h

/-! ### Parts -/

theorem Curve.fault?_eq_none_iff (c : Curve) :
    c.fault? = none ↔ c.code.turn ≠ 0 ∧ 0 < c.angle ∧ 0 < c.length := by
  rw [fault?, ← Int.not_le, ← Int.not_le]
  split
  · simp only [reduceCtorEq, ne_eq, not_true_eq_false, false_and, *]
  split
  · simp only [reduceCtorEq, not_true_eq_false, false_and, and_false, *]
  split
  · simp only [reduceCtorEq, not_true_eq_false, and_false, *]
  · simp only [ne_eq, not_false_eq_true, and_self, *]

theorem Straight.fault?_eq_none_iff (s : Straight) :
    s.fault? = none ↔ s.code.edge = .flat ∧ 0 < s.length := by
  rw [fault?, ← Int.not_le]
  split
  · simp only [reduceCtorEq, false_and, *]
  split
  · simp only [reduceCtorEq, not_true_eq_false, and_false, *]
  · rename_i hedge _
    simp only [not_not.1 hedge, not_false_eq_true, and_self, *]

/-- The other edge of the same foot curves the other way. -/
@[simp]
theorem Code.turn_otherEdge (c : Code) :
    Code.turn { c with edge := c.edge.opposite } = -c.turn := by
  rcases c with ⟨_ | _ | _, _ | _, _ | _ | _⟩ <;> rfl

@[simp]
theorem Code.turn_otherTravel (c : Code) :
    Code.turn { c with travel := c.travel.opposite } = -c.turn := by
  rcases c with ⟨_ | _ | _, _ | _, _ | _ | _⟩ <;> rfl

@[simp]
theorem FootChange.turn_out_eq_zero_iff (f : FootChange) (c : Code) :
    (f.out c).turn = 0 ↔ c.turn = 0 := by
  rcases c with ⟨foot, travel, edge⟩
  cases f <;> cases foot <;> cases travel <;> cases edge <;> decide

namespace TwoPart

variable (v : TwoPart) (c : Code) (angle length : Int) (label : String)

@[simp]
theorem fault?_entry (footwork : Footwork) :
    (v.entry footwork c angle length label).fault? = none ↔
      c.turn ≠ 0 ∧ 0 < angle ∧ 0 < length :=
  Curve.fault?_eq_none_iff _

@[simp]
theorem fault?_plain :
    (v.plain c angle length).fault? = none ↔ c.turn ≠ 0 ∧ 0 < angle ∧ 0 < length :=
  Curve.fault?_eq_none_iff _

@[simp]
theorem fault?_exit :
    (v.exit c angle length label).fault? = none ↔ c.turn ≠ 0 ∧ 0 < angle ∧ 0 < length :=
  Curve.fault?_eq_none_iff _

@[simp]
theorem fault?_flat : (v.flat c length label).fault? = none ↔ 0 < length :=
  (Straight.fault?_eq_none_iff _).trans (and_iff_right rfl)

end TwoPart

namespace Twist

@[simp]
theorem fault?_arc (v : Twist) (c : Code) (angle length : Int) :
    (v.arc c angle length).fault? = none ↔ c.turn ≠ 0 ∧ 0 < angle ∧ 0 < length :=
  Curve.fault?_eq_none_iff _

end Twist

namespace Leap

variable (v : Leap) (c : Code) (angle length : Int)

@[simp]
theorem fault?_entry (footwork : Footwork) :
    (v.entry footwork c angle length).fault? = none ↔ c.turn ≠ 0 ∧ 0 < angle ∧ 0 < length :=
  Curve.fault?_eq_none_iff _

@[simp]
theorem fault?_plain :
    (v.plain c angle length).fault? = none ↔ c.turn ≠ 0 ∧ 0 < angle ∧ 0 < length :=
  Curve.fault?_eq_none_iff _

@[simp]
theorem fault?_takeOff (foot : Foot) (text : String) : (v.takeOff foot text).fault? = none := rfl

/-- Jumps are landed on one foot. -/
@[simp]
theorem fault?_landing {foot : Foot} (hfoot : foot ≠ .both) :
    (v.landing foot).fault? = none ↔ 0 < v.exitAngle ∧ 0 < v.exitLen := by
  have hturn : Code.turn { foot := foot, travel := .backward, edge := .outside } ≠ 0 := by
    cases foot <;> first | decide | exact absurd rfl hfoot
  exact (Curve.fault?_eq_none_iff _).trans (and_iff_right hturn)

end Leap

@[simp]
theorem fault?_cusp (rotation : Int) (c : Code) : (cusp rotation c).fault? = none := rfl

@[simp]
theorem fault?_cuspLabel (text : String) : (cuspLabel text).fault? = none := rfl

@[simp]
theorem fault?_label (l : Label) : (Part.label l).fault? = none := rfl

@[simp]
theorem fault?_shift (s : Shift) : (Part.shift s).fault? = none := rfl

/-- Parts with which nothing is wrong. -/
def SoundParts (ps : List Part) : Prop :=
  ∀ p ∈ ps, p.fault? = none

@[simp]
theorem soundParts_nil : SoundParts [] :=
  fun _ hp => absurd hp List.not_mem_nil

@[simp]
theorem soundParts_cons (p : Part) (ps : List Part) :
    SoundParts (p :: ps) ↔ p.fault? = none ∧ SoundParts ps :=
  List.forall_mem_cons

@[simp]
theorem soundParts_append (ps qs : List Part) :
    SoundParts (ps ++ qs) ↔ SoundParts ps ∧ SoundParts qs :=
  List.forall_mem_append

/-! ### Layouts -/

section Layouts

variable {c : Code} (hturn : c.turn ≠ 0) (footwork : Footwork)

include hturn

/-- A turn whose entry is of positive angle and length. -/
theorem Turn.sound_parts_iff (t : Turn) {v : TwoPart} (hangle : 0 < v.angle1)
    (hlen : 0 < v.len1) : SoundParts (t.parts v footwork c) ↔ t.Fits v := by
  cases t with
  | three =>
      simp only [parts, layout, threeLayout, List.map_cons, List.map_nil, soundParts_cons,
        soundParts_nil, TwoPart.fault?_entry,
        TwoPart.fault?_plain, TwoPart.fault?_exit, fault?_cusp, Code.turn_reversed, ne_eq, hturn,
        not_false_eq_true, true_and, and_true]
      simp only [Fits, cuspShare, threeQuarters]
      omega
  | bracket =>
      simp only [parts, layout, bracketLayout, List.map_cons, List.map_nil, soundParts_cons,
        soundParts_nil, TwoPart.fault?_entry,
        TwoPart.fault?_plain, TwoPart.fault?_flat, TwoPart.fault?_exit, fault?_cusp,
        fault?_cuspLabel, Code.turn_otherEdge, Code.turn_otherTravel, Code.turn_reversed, ne_eq,
        neg_eq_zero, hturn, not_false_eq_true, true_and, and_true]
      simp only [Fits, threeQuarters, bracketFlat, lobeAngle]
      omega
  | rocker =>
      simp only [parts, layout, rockerLayout, List.map_cons, List.map_nil, soundParts_cons,
        soundParts_nil, TwoPart.fault?_entry,
        TwoPart.fault?_plain, TwoPart.fault?_flat, TwoPart.fault?_exit, fault?_cusp,
        fault?_cuspLabel, Code.turn_otherTravel, Code.turn_reversed, ne_eq, neg_eq_zero, hturn,
        not_false_eq_true, true_and, and_true]
      simp only [Fits, threeQuarters, longShare, rockerFlat, lobeAngle]
      omega
  | counter =>
      simp only [parts, layout, counterLayout, List.map_cons, List.map_nil, soundParts_cons,
        soundParts_nil, TwoPart.fault?_entry,
        TwoPart.fault?_plain, TwoPart.fault?_flat, TwoPart.fault?_exit, fault?_cusp,
        fault?_cuspLabel, Code.turn_otherEdge, Code.turn_otherTravel, ne_eq, neg_eq_zero, hturn,
        not_false_eq_true, true_and, and_true]
      simp only [Fits, threeQuarters, longShare, rockerFlat, lobeAngle]
      omega

theorem FootChange.sound_parts_iff (f : FootChange) {v : TwoPart} (hangle : 0 < v.angle1)
    (hlen : 0 < v.len1) (side : Int) :
    SoundParts (f.parts v footwork side c) ↔ 1 ≤ v.angle2 ∧ 1 ≤ v.len2 := by
  have hstep : SoundParts (f.step side (f.out c)) := by
    cases f <;>
      simp only [step, stepLayout, List.map_cons, List.map_nil, soundParts_cons, soundParts_nil,
        fault?_label, fault?_shift, and_self]
  simp only [parts_eq, soundParts_cons, soundParts_append, soundParts_nil, hstep,
    TwoPart.fault?_entry, TwoPart.fault?_exit, turn_out_eq_zero_iff, ne_eq, hturn,
    not_false_eq_true, true_and, and_true]
  omega

theorem sound_changeOfEdgeParts_iff {v : TwoPart} (hangle : 0 < v.angle1) (hlen : 0 < v.len1)
    {flatLen : Int} (hflat : 0 < flatLen) :
    SoundParts (changeOfEdgeParts v flatLen footwork c) ↔ 1 ≤ v.angle2 ∧ 1 ≤ v.len2 := by
  simp only [changeOfEdgeParts, changeOfEdgeLayout, List.map_cons, List.map_nil, soundParts_cons,
    soundParts_nil, TwoPart.fault?_entry, TwoPart.fault?_flat, TwoPart.fault?_exit,
    Code.turn_otherEdge, neg_eq_zero, ne_eq, hturn, not_false_eq_true, true_and, and_true]
  omega

/-- The arcs of the loop itself have lengths and angles of their own. -/
theorem sound_loopParts_iff {v : TwoPart} (hangle : 0 < v.angle1) (hlen : 0 < v.len1) :
    SoundParts (loopParts v footwork c) ↔ 1 ≤ v.angle2 ∧ 1 ≤ v.len2 := by
  simp only [loopParts, loopLayout, loopArcs, List.map_cons, List.map_nil, List.cons_append,
    List.nil_append, soundParts_cons, soundParts_nil, TwoPart.fault?_entry, TwoPart.fault?_plain,
    TwoPart.fault?_exit, ne_eq, hturn, not_false_eq_true, true_and, and_true]
  omega

theorem Twist.sound_halfTurn_iff (v : Twist) (label : String) (total index : Nat) :
    SoundParts (v.halfTurn label total index c) ↔ v.Fits := by
  have hlabel : ∀ (shown : Prop) [Decidable shown] (l : Label),
      SoundParts ((if shown then [⟨Part.label l, none⟩] else []).map PlacedPart.part) := by
    intro shown _ l
    split
    · exact (soundParts_cons _ _).2 ⟨rfl, soundParts_nil⟩
    · exact soundParts_nil
  simp only [halfTurn, halfTurnLayout, List.map_append, List.map_cons, List.map_nil, far, near,
    soundParts_cons, soundParts_append, soundParts_nil, hlabel, fault?_arc, fault?_cusp,
    Code.turn_reversed, ne_eq, hturn, not_false_eq_true, true_and, and_true]
  simp only [Fits, cuspShare, threeQuarters]
  omega

end Layouts

-- By induction on the half-turns left, all of which are alike.
theorem Twist.sound_halfTurns_iff (v : Twist) (label : String) (total rest index : Nat) {c : Code}
    (hturn : c.turn ≠ 0) :
    SoundParts (v.halfTurns label total rest index c) ↔ (0 < rest → v.Fits) := by
  induction rest generalizing index c with
  | zero => simp only [halfTurns_zero, soundParts_nil, Nat.lt_irrefl, false_imp_iff]
  | succ rest ih =>
      have hrest := ih (index + 1) (c.turn_reversed ▸ hturn)
      rw [halfTurns_succ, soundParts_append, v.sound_halfTurn_iff hturn, hrest]
      exact ⟨fun h _ => h.1, fun h => ⟨h (Nat.succ_pos rest), fun _ => h (Nat.succ_pos rest)⟩⟩

/-- A twizzle whose entry and exit are of positive angle and length. -/
theorem sound_twizzleParts_iff {c : Code} (hturn : c.turn ≠ 0) (footwork : Footwork) {v : Twist}
    (hpre : 0 < v.preAngle ∧ 0 < v.preLen) (hpost : 0 < v.postAngle ∧ 0 < v.postLen)
    {halfTurns : Int} (hcount : 2 ≤ halfTurns) :
    SoundParts (twizzleParts v halfTurns footwork c) ↔ v.Fits := by
  have hafter : (afterHalfTurns halfTurns.toNat c).turn ≠ 0 := by
    unfold afterHalfTurns
    split
    · exact hturn
    · rwa [c.turn_reversed]
  have hsome : 0 < halfTurns.toNat := by omega
  have hfirst : (v.entry footwork c).fault? = none :=
    (Curve.fault?_eq_none_iff _).2 ⟨hturn, hpre⟩
  simp only [twizzleParts_eq, soundParts_cons, soundParts_append, soundParts_nil, hfirst,
    v.sound_halfTurns_iff _ _ _ _ hturn, hsome, true_imp_iff, Twist.fault?_arc, ne_eq, hafter,
    not_false_eq_true, hpost, and_true, true_and, and_self, List.cons_append]

/-- A jump in either sense whose entry is of positive angle and length. -/
theorem Jump.sound_parts_iff {c : Code} (hturn : c.turn ≠ 0) (footwork : Footwork) (j : Jump)
    {v : Leap} (hangle : 0 < v.entryAngle) (hlen : 0 < v.entryLen) (rotations : Int) {sense : Int}
    (hsense : sense = 1 ∨ sense = -1) :
    SoundParts (j.parts v rotations footwork sense c) ↔ j.Fits v := by
  have hfoot : footFor sense .right ≠ .both := by
    rcases hsense with rfl | rfl <;> decide
  cases j
  all_goals
    simp only [parts, layout, isToeJump, Bool.false_eq_true, if_true, if_false,
      Leap.tighteningLayout, arcs, List.map_cons, List.map_nil, List.cons_append, List.nil_append,
      soundParts_cons, soundParts_nil, Leap.fault?_entry, Leap.fault?_plain, Leap.fault?_takeOff,
      Leap.fault?_landing v hfoot, fault?_shift, ne_eq, hturn, not_false_eq_true, true_and,
      and_true]
    simp only [Fits, and_true]
    omega

/-! ### Values in range -/

namespace Schema

variable {schema : Schema} {values : List Param}

/-- Defaults are in range if each of them is. -/
theorem admits_defaults (h : ∀ f ∈ schema, f.Allows f.default) :
    List.Forall₂ Field.Admits schema schema.defaults := by
  rw [defaults, List.forall₂_map_right_iff, List.forall₂_same]
  exact fun f hf => ⟨rfl, h f hf⟩

/-- A field of positive numbers has one. -/
theorem number_pos_of_takes (hnames : schema.names.Nodup)
    (h : List.Forall₂ Field.Takes schema values) {name : String}
    (hname : ∃ f ∈ schema, f.name = name ∧ f.range = .positive) :
    0 < Param.number values name := by
  rcases hname with ⟨f, hf, rfl, hrange⟩
  rcases value?_of_forall₂ hnames (R := fun f v => f.range.accepts v = true) h hf with
    ⟨v, hv, haccepts⟩
  rw [hrange] at haccepts
  cases v with
  | number n =>
      rw [Param.number, hv]
      exact of_decide_eq_true haccepts
  | _ => exact absurd haccepts Bool.false_ne_true

end Schema

/-- Fields that hold no texts are read as numbers. -/
theorem Figure.numericFault?_eq_none {schema : Schema} {values : List Param}
    (hnames : schema.names.Nodup) (h : List.Forall₂ Field.Takes schema values)
    {names : List String}
    (hrange : ∀ name ∈ names, ∃ f ∈ schema, f.name = name ∧ f.range ≠ .text) :
    numericFault? values names = none := by
  rw [numericFault?, List.findSome?_eq_none_iff]
  intro name hname
  rcases hrange name hname with ⟨f, hf, rfl, hnoText⟩
  rcases Schema.value?_of_forall₂ hnames (R := fun f v => f.range.accepts v = true) h hf with
    ⟨v, hv, haccepts⟩
  rw [hv]
  cases v with
  | text s => exact absurd (Range.eq_text_of_accepts haccepts) hnoText
  | _ => rfl

/-! ### Figures -/

theorem FigureKind.fault?_twizzle_eq_none_iff (n : Int) : fault? (.twizzle n) = none ↔ 2 ≤ n := by
  rw [fault?, ← Int.not_lt]
  split
  · simp only [reduceCtorEq, not_true_eq_false, *]
  · simp only [not_false_eq_true, *]

theorem FigureKind.fault?_jump_eq_none_iff (j : Jump) (n : Int) :
    fault? (.jump j n) = none ↔ 1 ≤ n ∧ n ≤ 4 := by
  rw [fault?]
  split
  · simp only [*, and_self]
  · simp only [reduceCtorEq, *]

/-- A twizzle can be labelled if its whole turns do not have too many digits. -/
theorem FigureKind.labelFault?_twizzle {n : Int} (h : 0 ≤ n) :
    labelFault? (.twizzle n) =
      if n / 2 < 10 ^ Text.maxDigits then none else some .unwritable := by
  have hwritable : Text.isWritable (n / 2) = true ↔ n / 2 < 10 ^ Text.maxDigits := by
    have hwhole : ((n / 2).toNat : Int) = n / 2 := Int.toNat_of_nonneg (by omega)
    rw [← hwhole, Text.isWritable_natCast_iff_lt, ← Int.ofNat_lt, Int.natCast_pow]
    rfl
  simp only [labelFault?, hwritable]

theorem FigureKind.labelFault?_twizzle_eq_none_iff {n : Int} (h : 0 ≤ n) :
    labelFault? (.twizzle n) = none ↔ n / 2 < 10 ^ Text.maxDigits := by
  rw [labelFault?_twizzle h]
  split
  · simp only [*]
  · simp only [reduceCtorEq, *]

/-- Numbers that fit are right for the suffix and for the label. -/
theorem FigureKind.fault?_of_fits {kind : FigureKind} {values : List Param}
    (h : kind.Fits values) : kind.fault? = none ∧ kind.labelFault? = none := by
  cases kind with
  | twizzle n =>
      exact ⟨(fault?_twizzle_eq_none_iff n).2 h.1,
        (labelFault?_twizzle_eq_none_iff (Int.le_trans (by decide) h.1)).2 h.2.1⟩
  | jump j n => exact ⟨(fault?_jump_eq_none_iff j n).2 h.1, rfl⟩
  | _ => exact ⟨rfl, rfl⟩

namespace Figure

/-- The parts of a figure on a legal entry can be skated exactly if its numbers fit. -/
theorem soundParts_parts_iff {f : Figure}
    (h : List.Forall₂ Field.Takes f.kind.profile.schema f.values)
    (hentry : f.entry ∈ f.kind.entries) (hkind : f.kind.fault? = none)
    (hlabel : f.kind.labelFault? = none) :
    SoundParts f.parts ↔ f.kind.Fits f.values := by
  have hturn := FigureKind.turn_ne_zero hentry
  have hhand := (f.kind.mem_entries_iff f.entry).1 hentry
  have hpos : ∀ name, (∃ g ∈ f.kind.profile.schema, g.name = name ∧ g.range = .positive) →
      0 < Param.number f.values name := fun _ hname =>
    Schema.number_pos_of_takes (wellFormed_figureKind f.kind).names_nodup h hname
  rcases f with ⟨kind, entry, values, footwork⟩
  simp only at hturn hhand hpos hkind hlabel
  cases kind with
  | turn t =>
      rw [FigureKind.profile, t.profile_schema] at hpos
      exact t.sound_parts_iff hturn footwork (hpos "angle" (by decide)) (hpos "len" (by decide))
  | footChange g =>
      rw [FigureKind.profile, g.profile_schema] at hpos
      exact g.sound_parts_iff hturn footwork (hpos "angle" (by decide)) (hpos "len" (by decide)) _
  | changeOfEdge =>
      exact sound_changeOfEdgeParts_iff hturn footwork (hpos "angle" (by decide))
        (hpos "len" (by decide)) (hpos "flat-len" (by decide))
  | loop =>
      exact sound_loopParts_iff hturn footwork (hpos "angle" (by decide)) (hpos "len" (by decide))
  | twizzle n =>
      have hcount := (FigureKind.fault?_twizzle_eq_none_iff n).1 hkind
      have hwhole := (FigureKind.labelFault?_twizzle_eq_none_iff (by omega)).1 hlabel
      rw [FigureKind.profile] at hpos
      have hparts := sound_twizzleParts_iff hturn footwork (v := .ofParams values)
        ⟨hpos "pre-angle" (by decide), hpos "pre-len" (by decide)⟩
        ⟨hpos "post-angle" (by decide), hpos "post-len" (by decide)⟩ hcount
      exact hparts.trans ((and_iff_right hcount).trans (and_iff_right hwhole)).symm
  | jump j n =>
      have hcount := (FigureKind.fault?_jump_eq_none_iff j n).1 hkind
      have hsense := hand_of_legal (f := ⟨.jump j n, entry, values, footwork⟩) hhand
      rw [FigureKind.profile, j.profile_schema] at hpos
      have hparts := j.sound_parts_iff hturn footwork (v := .ofParams values)
        (hpos "entry-angle" (by decide)) (hpos "entry-len" (by decide)) n hsense
      exact hparts.trans (and_iff_right hcount).symm

/-- No text is read as a number from values in range. -/
theorem numericFault?_of_takes {kind : FigureKind} {values : List Param}
    (h : List.Forall₂ Field.Takes kind.profile.schema values) :
    numericFault? values (numbersFirst kind ++ numbersNext kind ++ numbersLast kind) = none :=
  numericFault?_eq_none (wellFormed_figureKind kind).names_nodup h (range_of_mem_numbers kind)

/-- Nothing is wrong with a figure of values in range exactly if its entry is legal and its
    numbers fit. -/
theorem fault?_eq_none_iff_fits {f : Figure}
    (h : List.Forall₂ Field.Takes f.kind.profile.schema f.values) :
    f.fault? = none ↔ f.entry ∈ f.kind.entries ∧ f.kind.Fits f.values := by
  have hfits := Schema.fits_of_takes h
  rw [fault?_eq_none_iff, layoutFault?_eq_none_iff, ← FigureKind.mem_entries_iff]
  constructor
  · rintro ⟨-, hkind, hentry, -, hlabel, hparts⟩
    exact ⟨hentry, (soundParts_parts_iff h hentry hkind hlabel).1 hparts⟩
  · rintro ⟨hentry, hvalues⟩
    rcases FigureKind.fault?_of_fits hvalues with ⟨hkind, hlabel⟩
    exact ⟨hfits, hkind, hentry, numericFault?_of_takes h, hlabel,
      (soundParts_parts_iff h hentry hkind hlabel).2 hvalues⟩

/-- A figure that cannot be labelled with its suffix is refused before its parts are looked at. -/
theorem fault?_of_labelFault? {f : Figure}
    (h : List.Forall₂ Field.Takes f.kind.profile.schema f.values)
    (hentry : f.entry ∈ f.kind.entries) (hkind : f.kind.fault? = none) {fault : Fault}
    (hlabel : f.kind.labelFault? = some fault) : f.fault? = some fault := by
  have hfits := Schema.fits_of_takes h
  have hhand := (f.kind.mem_entries_iff f.entry).1 hentry
  have hnumbers := numericFault?_of_takes h
  rw [numericFault?_append_eq_none_iff, numericFault?_append_eq_none_iff] at hnumbers
  rw [fault?, layoutFault?, hfits, hkind, hhand, hnumbers.1.1, hlabel]
  rfl

/-- Every figure is put together from parts that may follow one another. -/
theorem partsFault?_parts (f : Figure) : partsFault? (f.parts.map .part) = none := by
  have hcons : ∃ c p ps, f.parts = .curve c :: p :: ps := by
    rcases f with ⟨kind, entry, values, footwork⟩
    cases kind with
    | turn t => cases t <;> exact ⟨_, _, _, rfl⟩
    | footChange g => cases g <;> exact ⟨_, _, _, rfl⟩
    | jump j n => cases j <;> exact ⟨_, _, _, rfl⟩
    | twizzle n =>
        have hlast : ∀ (ps : List Part) (p : Part), ps ++ [p] ≠ [] := fun ps p =>
          List.append_ne_nil_of_right_ne_nil ps (List.cons_ne_nil p [])
        simp only [parts_eq, twizzleParts_eq, List.cons_append]
        rcases List.exists_cons_of_ne_nil (hlast _ _) with ⟨p, ps, hps⟩
        exact ⟨_, p, ps, congrArg _ hps⟩
    | _ => exact ⟨_, _, _, rfl⟩
  rcases hcons with ⟨c, p, ps, hparts⟩
  have hrelative : ∀ m ∈ (p :: ps).map Move.part, ¬ m.effect.isAbsolute = true := by
    intro m hm
    rcases List.mem_map.1 hm with ⟨q, -, rfl⟩
    cases q <;> exact Bool.false_ne_true
  rw [hparts]
  change ((((p :: ps).map Move.part).find? fun m => m.effect.isAbsolute).map fun m => _) = none
  rw [List.find?_eq_none.2 hrelative]
  rfl

end Figure

/-- Values in range make a figure exactly if the entry is legal for its kind and the numbers
    fit. Otherwise they are refused. The numbers may have up to 300 digits. -/
theorem checked_ofValues_iff (kind : FigureKind) {values : List Param}
    (h : List.Forall₂ (Field.Holds 300) kind.profile.schema values) (entry : Code)
    (footwork : Footwork) :
    ((Move.figure (.ofValues kind entry values footwork)).checked =
        .ok (.figure { kind := kind, entry := entry, values := values, footwork := footwork }) ↔
      entry ∈ kind.entries ∧ kind.Fits values) ∧
    (¬(entry ∈ kind.entries ∧ kind.Fits values) → ∃ fault,
      (Move.figure (.ofValues kind entry values footwork)).checked = .error fault) := by
  rw [ofValues_eq h, ← Figure.fault?_eq_none_iff_fits
    (f := { kind := kind, entry := entry, values := values, footwork := footwork })
    (h.imp fun _ _ hp => hp.takes)]
  exact ⟨⟨fun hok => (checked_cases hok).2,
      fun hsound => Move.checked_of_holds (by decide) (Nat.le_refl 300) h hsound⟩,
    fun hfault => Move.exists_checked_eq_error hfault⟩

/-! ### Numbers without bounds -/

/-- Twizzles of more whole turns than can be written are refused for this alone. -/
theorem checked_twizzle_of_tooLong {n : Int} (hcount : 2 ≤ n)
    (hlong : 10 ^ Text.maxDigits ≤ n / 2) {values : List Param}
    (h : List.Forall₂ Field.Takes twizzleSchema values) {entry : Code}
    (hentry : entry ∈ curvingCodes) (footwork : Footwork) :
    (Move.figure (.ofValues (.twizzle n) entry values footwork)).checked =
      .error .unwritable := by
  have htakes : List.Forall₂ Field.Takes (FigureKind.profile (.twizzle n)).schema values := h
  let f : Figure := { kind := .twizzle n, entry := entry, values := values, footwork := footwork }
  have hlabel : f.kind.labelFault? = some .unwritable := by
    rw [FigureKind.labelFault?_twizzle (by omega), if_neg (by omega)]
  have hkind : f.kind.fault? = none := (FigureKind.fault?_twizzle_eq_none_iff n).2 hcount
  have hfault : f.fault? = some .unwritable :=
    Figure.fault?_of_labelFault? htakes hentry hkind hlabel
  rw [ofValues_eq htakes, Move.checked, Move.fault?, hfault]

/-- Figures of numbers that fit are refused all the same if one of the arcs has no end. -/
theorem checked_ofValues_of_maxAngle_lt {kind : FigureKind} {values : List Param}
    (h : List.Forall₂ Field.Takes kind.profile.schema values) {entry : Code}
    (hentry : entry ∈ kind.entries) (hfits : kind.Fits values) (footwork : Footwork) {c : Curve}
    (hc : .curve c ∈ Figure.parts ⟨kind, entry, values, footwork⟩)
    (hangle : Curve.maxAngle < c.angle) :
    (Move.figure (.ofValues kind entry values footwork)).checked = .error .unboundedAngle := by
  have hsound : Figure.fault? ⟨kind, entry, values, footwork⟩ = none :=
    (Figure.fault?_eq_none_iff_fits (f := ⟨kind, entry, values, footwork⟩) h).2 ⟨hentry, hfits⟩
  have hendless : Figure.isFinite ⟨kind, entry, values, footwork⟩ = false := by
    rw [Figure.isFinite, List.all_eq_false]
    exact ⟨.curve c, hc, fun hend => Int.not_le.2 hangle (of_decide_eq_true hend)⟩
  rw [ofValues_eq h, Move.checked, Move.fault?, hsound, Move.isFinite, hendless]
  rfl

/-- Values of a step with everything but the difference in angle at the default. -/
def stepOfDelta (delta : Int) : List Param :=
  Schema.defaults (footChangeSchema.take 2) ++
    ⟨"delta-angle", .number delta⟩ :: Schema.defaults (footChangeSchema.drop 3)

theorem takes_stepOfDelta (delta : Int) :
    List.Forall₂ Field.Takes footChangeSchema (stepOfDelta delta) := by
  have hfront : List.Forall₂ Field.Admits (footChangeSchema.take 2)
      (Schema.defaults (footChangeSchema.take 2)) :=
    Schema.admits_defaults (by decide)
  have hback : List.Forall₂ Field.Admits (footChangeSchema.drop 3)
      (Schema.defaults (footChangeSchema.drop 3)) :=
    Schema.admits_defaults (by decide)
  exact List.rel_append (hfront.imp fun _ _ hp => hp.takes)
    (.cons ⟨rfl, rfl⟩ (hback.imp fun _ _ hp => hp.takes))

/-- An open mohawk is refused if its exit has no end. -/
theorem checked_openMohawk_of_maxAngle_lt {delta : Int} (h : Curve.maxAngle < 90 + delta) :
    (Move.figure (.ofValues (.footChange .openMohawk) ⟨.left, .forward, .inside⟩
      (stepOfDelta delta))).checked = .error .unboundedAngle := by
  have htakes : List.Forall₂ Field.Takes (FigureKind.profile (.footChange .openMohawk)).schema
      (stepOfDelta delta) := takes_stepOfDelta delta
  have hfits : FigureKind.Fits (.footChange .openMohawk) (stepOfDelta delta) ↔
      1 ≤ 90 + delta ∧ (1 : Int) ≤ 450 := Iff.rfl
  have hangle : 1 ≤ 90 + delta := Int.le_trans (by decide) (Int.le_of_lt h)
  let exit : Curve :=
    { code := ⟨.right, .backward, .inside⟩, angle := 90 + delta, length := 450 }
  have hexit : .curve exit ∈ Figure.parts
      ⟨.footChange .openMohawk, ⟨.left, .forward, .inside⟩, stepOfDelta delta, .normal⟩ :=
    List.mem_cons_of_mem _ (List.mem_cons_of_mem _ (List.mem_cons_of_mem _ List.mem_cons_self))
  exact checked_ofValues_of_maxAngle_lt htakes (by decide) (hfits.2 ⟨hangle, by decide⟩) .normal
    hexit h

/-- Numbers may be too large although they are in range and fit: as many whole turns as the
    first number of 4301 digits, and a difference in angle as large as any arc may have. -/
theorem checked_ofValues_tooLarge :
    (List.Forall₂ Field.Takes twizzleSchema (Schema.defaults twizzleSchema) ∧
      ⟨.left, .forward, .inside⟩ ∈ curvingCodes ∧ (2 : Int) ≤ 2 * 10 ^ 4300 ∧
      2 ≤ Param.number (Schema.defaults twizzleSchema) "angle" ∧
      2 ≤ Param.number (Schema.defaults twizzleSchema) "len" ∧
      (Move.figure (.ofValues (.twizzle (2 * 10 ^ 4300)) ⟨.left, .forward, .inside⟩
        (Schema.defaults twizzleSchema))).checked = .error .unwritable) ∧
    List.Forall₂ Field.Takes footChangeSchema (stepOfDelta Curve.maxAngle) ∧
      ⟨.left, .forward, .inside⟩ ∈ FootChange.openMohawk.entries ∧
      1 ≤ (TwoPart.ofParams (stepOfDelta Curve.maxAngle)).angle2 ∧
      1 ≤ (TwoPart.ofParams (stepOfDelta Curve.maxAngle)).len2 ∧
      (Move.figure (.ofValues (.footChange .openMohawk) ⟨.left, .forward, .inside⟩
        (stepOfDelta Curve.maxAngle))).checked = .error .unboundedAngle := by
  have htakes : List.Forall₂ Field.Takes twizzleSchema (Schema.defaults twizzleSchema) :=
    (Schema.admits_defaults (by decide)).imp fun _ _ hp => Field.Admits.takes hp
  have hentry : ⟨.left, .forward, .inside⟩ ∈ curvingCodes := by decide
  have htwice : ∀ n : Int, 0 < n → 2 ≤ 2 * n := fun n hn => by omega
  have hcount : (2 : Int) ≤ 2 * 10 ^ 4300 := htwice _ (Int.pow_pos (by decide))
  have hwhole : (2 * 10 ^ 4300 : Int) / 2 = 10 ^ Text.maxDigits :=
    Int.mul_ediv_cancel_left _ (by decide)
  exact ⟨⟨htakes, hentry, hcount, by decide, by decide,
      checked_twizzle_of_tooLong hcount (Int.le_of_eq hwhole.symm) htakes hentry .normal⟩,
    takes_stepOfDelta _, by decide, by decide, by decide,
    checked_openMohawk_of_maxAngle_lt (by omega)⟩

/-- Values of a turn with everything but its length at the default. -/
def turnOfLength (length : Int) : List Param :=
  ⟨"angle", .number 90⟩ :: ⟨"len", .number length⟩ :: Schema.defaults (turnSchema.drop 2)

theorem holds_turnOfLength {length : Int} (hpos : 0 < length) (hmax : length ≤ maxNumber) :
    List.Forall₂ (Field.Holds 300) turnSchema (turnOfLength length) := by
  have hmin : minNumber ≤ length := by
    unfold minNumber
    omega
  have hrest : List.Forall₂ Field.Admits (turnSchema.drop 2)
      (Schema.defaults (turnSchema.drop 2)) :=
    Schema.admits_defaults (by decide)
  have hadmits : List.Forall₂ Field.Admits turnSchema (turnOfLength length) :=
    .cons ⟨rfl, by decide⟩ (.cons ⟨rfl, decide_eq_true hpos, hmin, hmax⟩ hrest)
  exact hadmits.imp fun _ _ hp => hp.holds (by decide)

/-- A bracket of 161 centimetres can be skated, and one of 160 cannot. -/
theorem checked_ofValues_bracketOfLength :
    List.Forall₂ (Field.Holds 300) turnSchema (turnOfLength 161) ∧
    List.Forall₂ (Field.Holds 300) turnSchema (turnOfLength 160) ∧
    (Move.figure (.ofValues (.turn .bracket) ⟨.left, .forward, .outside⟩
        (turnOfLength 161))).checked =
      .ok (.figure
        { kind := .turn .bracket, entry := ⟨.left, .forward, .outside⟩,
          values := turnOfLength 161 }) ∧
    ∃ fault, (Move.figure (.ofValues (.turn .bracket) ⟨.left, .forward, .outside⟩
      (turnOfLength 160))).checked = .error fault := by
  have hlong := holds_turnOfLength (show 0 < 161 by decide) (by decide)
  have hshort := holds_turnOfLength (show 0 < 160 by decide) (by decide)
  have hfits : FigureKind.Fits (.turn .bracket) (turnOfLength 161) :=
    ⟨by decide, by decide, by decide⟩
  have hnot : ¬ FigureKind.Fits (.turn .bracket) (turnOfLength 160) :=
    fun h => absurd h.2.1 (by decide)
  exact ⟨hlong, hshort,
    (checked_ofValues_iff (.turn .bracket) hlong _ _).1.2 ⟨by decide, hfits⟩,
    (checked_ofValues_iff (.turn .bracket) hshort _ _).2 fun h => hnot h.2⟩

end IceFigures
