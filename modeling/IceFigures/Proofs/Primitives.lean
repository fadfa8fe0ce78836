import IceFigures.Proofs.DistinctText
import IceFigures.Proofs.MoveText

/-!
# Primitives

What is drawn as a definition in use: arcs, straight glides, hops and rinks. The
definition of a primitive is named by its canonical text, so two primitives
share a definition exactly if their texts agree.

Texts tell primitives apart, but for one thing: an arc and a straight glide are
written alike, and only their codes say which of them is meant. No arc of a
move without fault is on the flat, and no glide or hop is on an edge
(`Move.OnOwnEdge`). The parts of a figure keep to this because the figure is
entered on an edge, whatever the numbers of its parameters are; so does a
figure that was mirrored, since a mirror leaves the edge as it is.

## Main definitions

* `Primitive`: Something that is drawn as a definition in use.
* `Primitive.OnOwnEdge`: Primitives whose code goes with their kind.
* `Move.primitives`: The primitives of a move, in the order of its parts.
* `Move.marks`: The definitions that a move supplies for marks.

## Theorems

* `Primitive.name_injective`: Names tell primitives apart.
* `Figure.onOwnEdge_of_mem_parts`: Parts keep to their own edges.
* `Move.onOwnEdge_of_mem_primitives`: So do all primitives of a move.
* `Move.definitions_eq`: The definitions of a move are those of its primitives.
-/

namespace IceFigures

open Text (Stops)

/-- Something that is drawn as a definition in use. -/
inductive Primitive
  | curve (c : Curve)
  | straight (s : Straight)
  | hop (h : Hop)
  | rink (r : Rink)
deriving DecidableEq

/-! ### Texts of primitives -/

/-- Footwork and code are told apart from what follows them. -/
theorem mark_letters_append_inj {w w' : Footwork} {c c' : Code} {x y : List Char}
    (hx : Stops (fun d => (Edge.ofLetter? d).isSome) x)
    (hy : Stops (fun d => (Edge.ofLetter? d).isSome) y)
    (h : w.mark ++ c.letters ++ x = w'.mark ++ c'.letters ++ y) : w = w' ∧ c = c' ∧ x = y := by
  have hread : ∀ {d : Code} {z : List Char}, Stops (fun d => (Edge.ofLetter? d).isSome) z →
      Code.read? (d.letters ++ z) = some (d, z) := by
    intro d z hz
    refine Code.read?_letters_append d z fun _ e he => ?_
    have := hz e he
    rwa [Option.isSome_eq_false_iff, Option.isNone_iff_eq_none] at this
  rw [List.append_assoc, List.append_assoc] at h
  have hmarks := congrArg Footwork.read h
  rw [Footwork.read_mark_append, Footwork.read_mark_append, Prod.mk.injEq] at hmarks
  have hcodes := congrArg Code.read? hmarks.2
  rw [hread hx, hread hy, Option.some.injEq, Prod.mk.injEq] at hcodes
  exact ⟨hmarks.1, hcodes⟩

/-- The texts of parts of one kind tell codes and parameters apart. -/
theorem mark_letters_write_inj {schema : Schema} (hs : schema.Unambiguous) {w w' : Footwork}
    {c c' : Code} {ps qs : List Param} (hps : ps.map Param.name = schema.names)
    (hqs : qs.map Param.name = schema.names)
    (h : w.mark ++ c.letters ++ Schema.write schema ps =
      w'.mark ++ c'.letters ++ Schema.write schema qs) : w = w' ∧ c = c' ∧ ps = qs := by
  rcases mark_letters_append_inj (parameterText_write schema ps).stops_edge
    (parameterText_write schema qs).stops_edge h with ⟨hw, hc, hwrite⟩
  have hparams := Schema.write_injective hs (Schema.names_iff.2 hps) (Schema.names_iff.2 hqs) hwrite
  exact ⟨hw, hc, hparams⟩

/-! ### Different primitives -/

theorem Curve.chars_injective : Function.Injective Curve.chars := by
  intro c c' h
  rcases mark_letters_write_inj (wellFormed_part (.curve c)).toUnambiguous rfl rfl h with
    ⟨hfootwork, hcode, hparams⟩
  calc c = .ofParams c.footwork c.code c.params := rfl
    _ = .ofParams c'.footwork c'.code c'.params := by rw [hfootwork, hcode, hparams]
    _ = c' := rfl

theorem Straight.chars_injective : Function.Injective Straight.chars := by
  intro s s' h
  rcases mark_letters_write_inj (wellFormed_part (.straight s)).toUnambiguous rfl rfl h with
    ⟨hfootwork, hcode, hparams⟩
  calc s = .ofParams s.footwork s.code s.params := rfl
    _ = .ofParams s'.footwork s'.code s'.params := by rw [hfootwork, hcode, hparams]
    _ = s' := rfl

theorem stops_hop (h : Hop) : Stops (fun d => (Edge.ofLetter? d).isSome)
    (Hop.suffix ++ Schema.write Hop.profile.schema h.params) :=
  Text.stops_cons.2 (by decide)

theorem Hop.chars_injective : Function.Injective Hop.chars := by
  intro h h' heq
  rw [Hop.chars_eq, Hop.chars_eq] at heq
  rcases mark_letters_append_inj (stops_hop h) (stops_hop h') heq with ⟨hfootwork, hcode, hrest⟩
  have hparams := Schema.write_injective (wellFormed_part (.hop h)).toUnambiguous
    (Schema.names_iff.2 rfl) (Schema.names_iff.2 rfl) (List.append_cancel_left hrest)
  calc h = .ofParams h.footwork h.code h.params := rfl
    _ = .ofParams h'.footwork h'.code h'.params := by rw [hfootwork, hcode, hparams]
    _ = h' := rfl

theorem Rink.chars_injective : Function.Injective Rink.chars := by
  intro r r' h
  have hparams := Schema.write_injective (wellFormed_profile (.rink r)).toUnambiguous
    (Schema.names_iff.2 rfl) (Schema.names_iff.2 rfl) (List.append_cancel_left h)
  calc r = .ofParams r.params := rfl
    _ = .ofParams r'.params := by rw [hparams]
    _ = r' := rfl

/-- A glide is no hop, since no suffix follows its code. -/
theorem Straight.chars_ne_hop (s : Straight) (h : Hop) : s.chars ≠ h.chars := by
  intro heq
  have htext := parameterText_write Straight.profile.schema s.params
  rw [Hop.chars_eq] at heq
  rcases mark_letters_append_inj htext.stops_edge (stops_hop h) heq with ⟨-, -, hrest⟩
  have hsuffix :
      List.isPrefixOf? Hop.suffix (Schema.write Straight.profile.schema s.params) = none :=
    htext.isPrefixOf?_hyphen_eq_none (by decide) _
  rw [hrest, List.isPrefixOf?_eq_some_iff_append_eq.2 rfl] at hsuffix
  exact absurd hsuffix (by simp only [reduceCtorEq, not_false_eq_true])

/-- An arc on an edge is neither a glide nor a hop, which are on the flat. -/
theorem Curve.chars_ne_flat {c : Curve} (hedge : c.code.edge ≠ .flat) {code : Code}
    (hflat : code.edge = .flat) (footwork : Footwork) {rest : List Char}
    (hrest : Stops (fun d => (Edge.ofLetter? d).isSome) rest) :
    c.chars ≠ footwork.mark ++ code.letters ++ rest := by
  intro h
  have hstop := (parameterText_write Curve.profile.schema c.params).stops_edge
  rcases mark_letters_append_inj hstop hrest h with ⟨-, hcode, -⟩
  exact hedge (hcode ▸ hflat)

/-- What is written for a rink has no code. -/
theorem Rink.chars_ne_skated (r : Rink) (footwork : Footwork) (code : Code) (rest : List Char) :
    r.chars ≠ footwork.mark ++ code.letters ++ rest := by
  intro h
  have htravel : ∀ travel : Travel, 'i' ≠ travel.letter := by
    intro travel
    cases travel <;> decide
  have hread := congrArg Footwork.read h
  rw [List.append_assoc, Footwork.read_mark_append,
    show Footwork.read r.chars = (.normal, r.chars) from rfl, Prod.mk.injEq] at hread
  exact htravel code.travel (List.cons.inj (List.cons.inj hread.2).2).1

namespace Primitive

/-- The primitive as a move of its own. -/
def move : Primitive → Move
  | curve c => .part (.curve c)
  | straight s => .part (.straight s)
  | hop h => .part (.hop h)
  | rink r => .rink r

/-- The canonical text of a primitive. -/
def chars (p : Primitive) : List Char :=
  p.move.chars

/-- What a primitive is drawn from. -/
def definition : Primitive → Svg.Definition
  | curve c => c.definition
  | straight s => s.definition
  | hop h => h.definition
  | rink r => r.definition

/-- The name that a primitive is drawn by. -/
def name (p : Primitive) : String :=
  p.definition.name

/-- Primitives whose code goes with their kind: an arc is on an edge, a glide or
    a hop on the flat. -/
def OnOwnEdge : Primitive → Prop
  | curve c => c.code.edge ≠ .flat
  | straight s => s.code.edge = .flat
  | hop h => h.code.edge = .flat
  | rink _ => True

/-- A primitive on its own is drawn from one definition. -/
theorem definitions_move (p : Primitive) : p.move.definitions = [p.definition] := by
  cases p <;> rfl

theorem name_eq (p : Primitive) : p.name = String.ofList (Svg.identChars p.chars) := by
  cases p <;> rfl

/-- Texts tell primitives on their own edges apart. -/
theorem chars_injective {p q : Primitive} (hp : p.OnOwnEdge) (hq : q.OnOwnEdge)
    (h : p.chars = q.chars) : p = q := by
  have hglide : ∀ s : Straight, Stops (fun d => (Edge.ofLetter? d).isSome)
      (Schema.write Straight.profile.schema s.params) :=
    fun s => (parameterText_write Straight.profile.schema s.params).stops_edge
  cases p with
  | curve c =>
      cases q with
      | curve c' => rw [Curve.chars_injective h]
      | straight s => exact absurd h (Curve.chars_ne_flat hp hq _ (hglide s))
      | hop j => exact absurd (h.trans j.chars_eq) (Curve.chars_ne_flat hp hq _ (stops_hop j))
      | rink r => exact absurd h.symm (r.chars_ne_skated _ _ _)
  | straight s =>
      cases q with
      | curve c => exact absurd h.symm (Curve.chars_ne_flat hq hp _ (hglide s))
      | straight s' => rw [Straight.chars_injective h]
      | hop j => exact absurd h (s.chars_ne_hop j)
      | rink r => exact absurd h.symm (r.chars_ne_skated _ _ _)
  | hop j =>
      cases q with
      | curve c =>
          exact absurd (h.symm.trans j.chars_eq) (Curve.chars_ne_flat hq hp _ (stops_hop j))
      | straight s => exact absurd h.symm (s.chars_ne_hop j)
      | hop j' => rw [Hop.chars_injective h]
      | rink r => exact absurd (h.symm.trans j.chars_eq) (r.chars_ne_skated _ _ _)
  | rink r =>
      cases q with
      | curve c => exact absurd h (r.chars_ne_skated _ _ _)
      | straight s => exact absurd h (r.chars_ne_skated _ _ _)
      | hop j => exact absurd (h.trans j.chars_eq) (r.chars_ne_skated _ _ _)
      | rink r' => rw [Rink.chars_injective h]

/-- Names tell primitives on their own edges apart. -/
theorem name_injective {p q : Primitive} (hp : p.OnOwnEdge) (hq : q.OnOwnEdge)
    (h : p.name = q.name) : p = q := by
  rw [name_eq, name_eq] at h
  exact chars_injective hp hq (Svg.identChars_injective (String.ofList_injective h))

/-- The text of a primitive starts like one that is skated; a rink happens to share its
    first letter with the right foot. -/
theorem chars_eq_cons (p : Primitive) : ∃ c cs, p.chars = c :: cs ∧ c ∈ skatedOpenings := by
  cases p with
  | curve c => exact skated_eq_cons c.footwork c.code _
  | straight s => exact skated_eq_cons s.footwork s.code _
  | hop h =>
      rcases skated_eq_cons h.footwork h.code (Hop.suffix ++
        Schema.write Hop.profile.schema h.params) with ⟨c, cs, hcs, hc⟩
      exact ⟨c, cs, h.chars_eq.trans hcs, hc⟩
  | rink r => exact ⟨_, _, rfl, by decide⟩

/-- The name of a primitive starts like its text, since no letter is spelled out. -/
theorem name_eq_cons (p : Primitive) :
    ∃ c cs, p.name.toList = c :: cs ∧ c ∈ skatedOpenings := by
  have hplain : ∀ c ∈ skatedOpenings, Svg.spell c = [c] := by decide
  rcases p.chars_eq_cons with ⟨c, cs, hchars, hc⟩
  refine ⟨c, Svg.identChars cs, ?_, hc⟩
  rw [name_eq, String.toList_ofList, hchars, Svg.identChars, List.flatMap_cons, hplain c hc]
  rfl

end Primitive

/-! ### Primitives of a move -/

/-- The primitives of a part. -/
def Part.primitives : Part → List Primitive
  | curve c => [.curve c]
  | straight s => [.straight s]
  | hop h => [.hop h]
  | shift _ => []
  | label _ => []

namespace Move

/-- The primitives of a move, in the order of its parts. -/
def primitives : Move → List Primitive
  | rink r => [.rink r]
  | m => m.parts.flatMap Part.primitives

/-- The definitions that a move supplies for marks. -/
def marks : Move → List Svg.Definition
  | info i => i.definitions
  | _ => []

end Move

theorem Part.definitions_eq (p : Part) : p.definitions = p.primitives.map Primitive.definition := by
  cases p <;> rfl

theorem Figure.definitions_eq (f : Figure) :
    f.definitions = (f.parts.flatMap Part.primitives).map Primitive.definition := by
  rw [definitions, List.map_flatMap]
  exact congrArg f.parts.flatMap (funext Part.definitions_eq)

@[simp]
theorem Move.primitives_part (p : Part) : (part p).primitives = p.primitives :=
  List.append_nil _

/-- The definitions of a move are those of its primitives, and those of marks. -/
theorem Move.definitions_eq (m : Move) :
    m.definitions = m.primitives.map Primitive.definition ++ m.marks := by
  cases m with
  | part p =>
      rw [primitives_part]
      exact p.definitions_eq.trans (List.append_nil _).symm
  | figure f => exact f.definitions_eq.trans (List.append_nil _).symm
  | _ => rfl

/-! ### Parts on their own edges -/

/-- Parts whose code goes with their kind. -/
def Part.OnOwnEdge (p : Part) : Prop :=
  ∀ q ∈ p.primitives, q.OnOwnEdge

section Layouts

@[simp]
theorem Edge.opposite_eq_flat_iff (e : Edge) : e.opposite = .flat ↔ e = .flat := by
  cases e <;> decide

@[simp]
theorem Code.edge_reversed_eq_flat_iff (c : Code) : c.reversed.edge = .flat ↔ c.edge = .flat :=
  c.edge.opposite_eq_flat_iff

namespace Part

@[simp]
theorem onOwnEdge_curve (c : Curve) : (curve c).OnOwnEdge ↔ c.code.edge ≠ .flat :=
  List.forall_mem_singleton

@[simp]
theorem onOwnEdge_straight (s : Straight) : (straight s).OnOwnEdge ↔ s.code.edge = .flat :=
  List.forall_mem_singleton

@[simp]
theorem onOwnEdge_hop (h : Hop) : (hop h).OnOwnEdge ↔ h.code.edge = .flat :=
  List.forall_mem_singleton

@[simp]
theorem onOwnEdge_shift (s : Shift) : (shift s).OnOwnEdge :=
  List.forall_mem_nil _

@[simp]
theorem onOwnEdge_label (l : Label) : (label l).OnOwnEdge :=
  List.forall_mem_nil _

end Part

variable (footwork : Footwork) {c : Code} (hc : c.edge ≠ .flat)
include hc

theorem Turn.onOwnEdge_parts (t : Turn) (v : TwoPart) :
    ∀ p ∈ t.parts v footwork c, p.OnOwnEdge := by
  cases t <;>
    simp [Turn.parts, layout, threeLayout, bracketLayout, rockerLayout, counterLayout,
      TwoPart.entry, TwoPart.plain, TwoPart.flat, TwoPart.exit, cusp, cuspLabel, hc]

theorem FootChange.onOwnEdge_parts (f : FootChange) (v : TwoPart) (side : Int) :
    ∀ p ∈ f.parts v footwork side c, p.OnOwnEdge := by
  cases f <;>
    simp [FootChange.parts, layout, stepLayout, FootChange.out, TwoPart.entry, TwoPart.exit, hc]

theorem onOwnEdge_changeOfEdgeParts (v : TwoPart) (flatLen : Int) :
    ∀ p ∈ changeOfEdgeParts v flatLen footwork c, p.OnOwnEdge := by
  simp [changeOfEdgeParts, changeOfEdgeLayout, TwoPart.entry, TwoPart.flat, TwoPart.exit, hc]

theorem onOwnEdge_loopParts (v : TwoPart) : ∀ p ∈ loopParts v footwork c, p.OnOwnEdge := by
  simp [loopParts, loopLayout, loopArcs, TwoPart.entry, TwoPart.plain, TwoPart.exit, hc]

-- Each half-turn is entered on the reverse of the code before it, which is on an
-- edge if that one is.
omit footwork in
theorem Twist.onOwnEdge_halfTurns (v : Twist) (label : String) (total rest index : Nat) :
    ∀ p ∈ v.halfTurns label total rest index c, p.OnOwnEdge := by
  induction rest generalizing index c with
  | zero => exact List.forall_mem_nil _
  | succ rest ih =>
      have hreversed : c.reversed.edge ≠ .flat := c.edge_reversed_eq_flat_iff.not.2 hc
      have hturn : ∀ p ∈ v.halfTurn label total index c, p.OnOwnEdge := by
        rw [halfTurn, halfTurnLayout]
        simp only [List.map_append, List.forall_mem_append]
        refine ⟨⟨⟨⟨?_, ?_⟩, ?_⟩, ?_⟩, ?_⟩
        · simp [far, near, arc, hc]
        · split <;> simp
        · simp [cusp]
        · simp [far, near, arc, hc]
        · split <;> simp
      rw [halfTurns_succ, List.forall_mem_append]
      exact ⟨hturn, ih hreversed (index + 1)⟩

theorem onOwnEdge_twizzleParts (v : Twist) (halfTurns : Int) :
    ∀ p ∈ twizzleParts v halfTurns footwork c, p.OnOwnEdge := by
  have hafter : (afterHalfTurns halfTurns.toNat c).edge ≠ .flat := by
    unfold afterHalfTurns
    split <;> simpa using hc
  have hturns := v.onOwnEdge_halfTurns hc (codeWithSuffix c (twizzleMark ++ turnsText halfTurns))
    halfTurns.toNat halfTurns.toNat 0
  simp only [twizzleParts_eq, List.forall_mem_append, List.forall_mem_cons]
  refine ⟨⟨?_, hturns⟩, ?_, List.forall_mem_nil _⟩
  · simpa [Twist.entry] using hc
  · simpa [Twist.arc] using hafter

theorem Jump.onOwnEdge_parts (j : Jump) (v : Leap) (rotations sense : Int) :
    ∀ p ∈ j.parts v rotations footwork sense c, p.OnOwnEdge := by
  cases j <;>
    simp [Jump.parts, layout, Jump.isToeJump, Jump.arcs, Leap.tighteningLayout, Leap.entry,
      Leap.plain, Leap.takeOff, Leap.landing, hc]

end Layouts

/-- The parts of a figure entered on an edge keep to their own edges. -/
theorem Figure.onOwnEdge_of_mem_parts {f : Figure} (h : f.entry.edge ≠ .flat) :
    ∀ p ∈ f.parts, p.OnOwnEdge := by
  rcases f with ⟨kind, entry, values, footwork⟩
  cases kind with
  | turn t => exact t.onOwnEdge_parts footwork h _
  | footChange g => exact g.onOwnEdge_parts footwork h _ _
  | changeOfEdge => exact onOwnEdge_changeOfEdgeParts footwork h _ _
  | loop => exact onOwnEdge_loopParts footwork h _
  | twizzle n => exact onOwnEdge_twizzleParts footwork h _ n
  | jump j n => exact j.onOwnEdge_parts footwork h _ n _

namespace Move

/-- Moves that keep to their own edges. -/
def OnOwnEdge : Move → Prop
  | part p => p.OnOwnEdge
  | figure f => f.entry.edge ≠ .flat
  | _ => True

/-- A move without fault keeps to its own edge. -/
theorem onOwnEdge_of_fault? {m : Move} (h : m.fault? = none) : m.OnOwnEdge := by
  cases m with
  | part p =>
      cases p with
      | curve c =>
          rw [OnOwnEdge, Part.onOwnEdge_curve]
          exact Curve.edge_ne_flat h
      | straight s =>
          rw [OnOwnEdge, Part.onOwnEdge_straight]
          exact Straight.edge_eq_flat h
      | hop j =>
          rw [OnOwnEdge, Part.onOwnEdge_hop]
          exact Hop.edge_eq_flat h
      | shift s => exact Part.onOwnEdge_shift s
      | label l => exact Part.onOwnEdge_label l
  | figure f => exact Figure.edge_ne_flat h
  | _ => trivial

/-- A mirror leaves the edge as it is. -/
theorem onOwnEdge_opposite {m : Move} (h : m.OnOwnEdge) : m.opposite.OnOwnEdge := by
  cases m with
  | part p =>
      cases p with
      | curve c => exact (Part.onOwnEdge_curve _).2 ((Part.onOwnEdge_curve c).1 h)
      | straight s => exact (Part.onOwnEdge_straight _).2 ((Part.onOwnEdge_straight s).1 h)
      | hop j => exact (Part.onOwnEdge_hop _).2 ((Part.onOwnEdge_hop j).1 h)
      | shift s => exact Part.onOwnEdge_shift _
      | label l => exact Part.onOwnEdge_label _
  | figure f => exact h
  | _ => trivial

/-- All primitives of a move that keeps to its own edges are on theirs. -/
theorem onOwnEdge_of_mem_primitives {m : Move} (h : m.OnOwnEdge) :
    ∀ p ∈ m.primitives, p.OnOwnEdge := by
  cases m with
  | rink r => exact List.forall_mem_singleton.2 trivial
  | part p =>
      rw [primitives_part]
      exact h
  | figure f =>
      intro q hq
      rcases List.mem_flatMap.1 hq with ⟨p, hp, hmem⟩
      exact Figure.onOwnEdge_of_mem_parts h p hp q hmem
  | _ => exact List.forall_mem_nil _

end Move

end IceFigures
