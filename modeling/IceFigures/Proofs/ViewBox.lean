import IceFigures.Proofs.DrawnShapes
import IceFigures.Proofs.Hull

/-!
# View Boxes

A diagram shows the hull of the boxes of its moves, with a margin on every side. The
boxes are those that the walk gives, wherever it leads. Nearly all of them begin at a
point and grow, so they are the right way round; the box of a rink is so because a
text only has rinks whose sides are positive. In the same way a text has no negative
margins, so no view box is turned inside out (`Move.Measured`).

The margins are found in a pass of their own before anything is placed, which leaves
those of the last settings directive. A title takes part in that pass too, but it has
no margins.

## Main definitions

* `Move.Measured`: A move whose sides and margins are not negative.
* `boxesOf`: The boxes of a walk, or the origin if there are none.
* `marginsOf`: The margins of a sequence.
* `viewOf`: The part of the page that a sequence is shown on.
* `Svg.Document.Frames`: How a document is framed for a sequence.

## Theorems

* `Move.ordered_of_bounds?`: The box of a move is the right way round.
* `isHull_boundsOf`: The box of a walk is the hull of its boxes.
* `exists_walk_append`: A walk goes on as it began.
* `get_preparedSettings_of_info`: What settings directives prepare.
* `margins_preparedSettings`: The margins are those of the last directive.
* `frames_ofText`: The diagram of a text is framed for its unrolled steps.
-/

namespace IceFigures

/-! ### The boxes of moves -/

/-- A move whose sides and margins, if it has any, are not negative. -/
def Move.Measured : Move → Prop
  | rink r => 0 ≤ r.width ∧ 0 ≤ r.length
  | info i => 0 ≤ i.marginX ∧ 0 ≤ i.marginY
  | _ => True

theorem Move.measured_of_inRange {m : Move} (h : m.InRange) : m.Measured := by
  cases m with
  | rink r =>
      have hrink : List.Forall₂ Field.Admits Rink.profile.schema r.params := h
      rw [Rink.profile, Rink.params, List.forall₂_cons, List.forall₂_cons] at hrink
      rcases hrink with ⟨⟨-, hwidth, -⟩, ⟨-, hlength, -⟩, -⟩
      exact ⟨Int.le_of_lt (of_decide_eq_true hwidth), Int.le_of_lt (of_decide_eq_true hlength)⟩
  | info i =>
      have hinfo : List.Forall₂ Field.Admits Info.profile.schema i.params := h
      rw [Info.profile, Info.params] at hinfo
      iterate 5 rw [List.forall₂_cons] at hinfo
      rcases hinfo with ⟨-, -, -, ⟨-, hx, -⟩, ⟨-, hy, -⟩, -⟩
      exact ⟨of_decide_eq_true hx, of_decide_eq_true hy⟩
  | _ => trivial

theorem Move.measured_opposite {m : Move} (h : m.Measured) : m.opposite.Measured := by
  cases m <;> exact h

/-- Whatever is drawn for a text is measured. -/
theorem measured_of_expand {text : String} {steps : List Step} (h : expand text = .ok steps) :
    ∀ s ∈ steps, s.move.Measured := by
  intro t ht
  rcases exists_written_of_expand h with ⟨written, htext, hcopies⟩
  rcases hcopies t ht with ⟨s, hs, pass, hcopy⟩
  have hmeasured : s.move.Measured :=
    Move.measured_of_inRange (ofText_cases htext s hs).1.move.inRange
  rcases hcopy.move with hmove | hmove
  · rw [hmove]
    exact hmeasured
  · rw [hmove]
    exact Move.measured_opposite hmeasured

theorem Part.ordered_of_bounds? {p : Part} {s : Skater} {b : Box} (h : p.bounds? s = some b) :
    b.Ordered := by
  cases p with
  | curve c =>
      rw [← Option.some.inj h]
      exact (Box.ordered_ofPoint _).foldl_cover _ _
  | straight g =>
      rw [← Option.some.inj h]
      exact (Box.ordered_ofPoint _).cover _
  | hop j =>
      rw [← Option.some.inj h]
      exact (Box.ordered_ofPoint _).cover _
  | shift g =>
      rw [← Option.some.inj h]
      exact Box.ordered_ofPoint _
  | label l => cases h

theorem Figure.ordered_of_bounds? {f : Figure} {s : Skater} {b : Box}
    (h : f.bounds? s = some b) : b.Ordered := by
  have hparts : ∀ c ∈ ((f.walk s).map fun sp => sp.2.bounds? sp.1).filterMap id, c.Ordered := by
    intro c hc
    rw [List.filterMap_map] at hc
    rcases List.mem_filterMap.1 hc with ⟨⟨t, p⟩, -, hbounds⟩
    exact p.ordered_of_bounds? hbounds
  exact (Box.isHull_unionAll hparts h).ordered hparts

/-- The box of a measured move is the right way round. -/
theorem Move.ordered_of_bounds? {m : Move} (hm : m.Measured) {s : Skater} {b : Box}
    (h : m.bounds? s = some b) : b.Ordered := by
  cases m with
  | part p => exact p.ordered_of_bounds? h
  | figure f => exact f.ordered_of_bounds? h
  | warp w =>
      rw [← Option.some.inj h]
      exact Box.ordered_ofPoint _
  | rink r =>
      rw [← Option.some.inj h]
      exact ⟨hm.1, hm.2⟩
  | text t =>
      rw [← Option.some.inj h]
      exact Box.ordered_ofPoint _
  | info _ | title _ | repeatStart | repeatEnd _ => cases h

/-! ### The boxes of a walk -/

/-- The boxes of the stages that have one; the origin if none has. -/
def boxesOf (stages : List Stage) : List Box :=
  if stages.filterMap Stage.bounds? = [] then [.ofPoint .origin]
  else stages.filterMap Stage.bounds?

theorem filterMap_bounds? (stages : List Stage) :
    (stages.map Stage.bounds?).filterMap id = stages.filterMap Stage.bounds? := by
  rw [List.filterMap_map]
  rfl

theorem ordered_boxesOf {steps : List Step} (h : ∀ s ∈ steps, s.move.Measured) :
    ∀ b ∈ boxesOf (walk steps), b.Ordered := by
  intro b hb
  rw [boxesOf] at hb
  split at hb
  · rw [List.mem_singleton.1 hb]
    exact Box.ordered_ofPoint _
  · rcases List.mem_filterMap.1 hb with ⟨stage, hstage, hbounds⟩
    have hstep := List.mem_map_of_mem (f := Stage.step) hstage
    rw [map_step_walk] at hstep
    exact Move.ordered_of_bounds? (h stage.step hstep) hbounds

/-- The box of a walk is the hull of its boxes. -/
theorem isHull_boundsOf {stages : List Stage} (h : ∀ b ∈ boxesOf stages, b.Ordered) :
    Box.IsHull (boxesOf stages) (boundsOf stages) := by
  rw [boxesOf] at h ⊢
  rw [boundsOf]
  cases hunion : Box.unionAll (stages.map Stage.bounds?) with
  | none =>
      have hnone := Box.filterMap_eq_nil_of_unionAll hunion
      rw [filterMap_bounds?] at hnone
      rw [if_pos hnone]
      exact Box.isHull_singleton _
  | some hull =>
      by_cases hnone : stages.filterMap Stage.bounds? = []
      · have hhull := Box.isHull_unionAll (by
          rw [filterMap_bounds?, hnone]
          exact List.forall_mem_nil _) hunion
        rcases hhull.left.1 with ⟨b, hb, -⟩
        rw [filterMap_bounds?, hnone] at hb
        exact absurd hb List.not_mem_nil
      · rw [if_neg hnone, ← filterMap_bounds?] at h ⊢
        exact Box.isHull_unionAll h hunion

-- By induction on the steps in front.
theorem exists_walkFrom_append (skater : Skater) (steps more : List Step) :
    ∃ later, walkFrom skater (steps ++ more) = walkFrom skater steps ++ later := by
  induction steps generalizing skater with
  | nil => exact ⟨_, rfl⟩
  | cons s rest ih =>
      rw [List.cons_append, walkFrom, walkFrom]
      rcases ih (Stage.ofStep (skater.after (s.move.entering skater.code)) s).after with
        ⟨later, hlater⟩
      exact ⟨later, congrArg _ hlater⟩

/-- A walk goes on as it began. -/
theorem exists_walk_append (steps more : List Step) :
    ∃ later, walk (steps ++ more) = walk steps ++ later := by
  cases steps with
  | nil => exact ⟨_, rfl⟩
  | cons s rest =>
      rcases exists_walkFrom_append (Stage.ofStep (firstSkater s.move) s).after rest more with
        ⟨later, hlater⟩
      exact ⟨later, congrArg _ hlater⟩

/-- Once a move has a box, more steps make the box of the walk no smaller. -/
theorem encloses_boundsOf_append {steps : List Step}
    (h : (walk steps).filterMap Stage.bounds? ≠ []) (more : List Step) :
    (boundsOf (walk (steps ++ more))).Encloses (boundsOf (walk steps)) := by
  rcases exists_walk_append steps more with ⟨later, hlater⟩
  cases hunion : Box.unionAll ((walk steps).map Stage.bounds?) with
  | none =>
      have hnone := Box.filterMap_eq_nil_of_unionAll hunion
      rw [filterMap_bounds?] at hnone
      exact absurd hnone h
  | some hull =>
      rcases Box.encloses_unionAll_append hunion (later.map Stage.bounds?) with
        ⟨hull', hunion', hencloses⟩
      rw [boundsOf, boundsOf, hlater, List.map_append, hunion, hunion']
      exact hencloses

/-! ### Margins -/

/-- The settings directive that a move is. -/
def Move.info? : Move → Option Info
  | info i => some i
  | _ => none

/-- The margins of a sequence: those of its last settings directive, to the side and up
    and down, and 50 if it has none. -/
def marginsOf (steps : List Step) : Int × Int :=
  match (steps.filterMap fun s => s.move.info?).getLast? with
  | none => (50, 50)
  | some i => (i.marginX, i.marginY)

-- By induction on the steps from the last one on, which settles the matter if it is a
-- settings directive.
/-- What settings directives prepare, and titles do not, is as the last directive has it. -/
theorem get_preparedSettings_of_info {α : Type} (get : Settings → α) (value : Info → α)
    (hinfo : ∀ (i : Info) (settings : Settings), get (i.prepare settings) = value i)
    (htitle : ∀ (t : Title) (settings : Settings), get (t.prepare settings) = get settings)
    (steps : List Step) :
    get (preparedSettings steps) =
      ((steps.filterMap fun s => s.move.info?).getLast?.map value).getD (get {}) := by
  have hother : ∀ (m : Move) (settings : Settings), m.info? = none →
      get (m.prepare settings) = get settings := by
    intro m settings h
    cases m with
    | info i => cases h
    | title t => exact htitle t settings
    | _ => rfl
  induction steps using List.reverseRecOn with
  | nil => rfl
  | append_singleton steps s ih =>
      have hprepared :
          preparedSettings (steps ++ [s]) = s.move.prepare (preparedSettings steps) := by
        rw [preparedSettings, List.foldl_append, ← preparedSettings]
        rfl
      rw [hprepared, List.filterMap_append]
      cases hmove : s.move with
      | info i =>
          rw [List.filterMap_cons_some (by rw [hmove]; rfl), List.filterMap_nil,
            List.getLast?_concat]
          exact hinfo i _
      | _ =>
          rw [List.filterMap_cons_none (by rw [hmove]; rfl), List.filterMap_nil,
            List.append_nil, hother _ _ rfl]
          exact ih

theorem margins_preparedSettings (steps : List Step) :
    ((preparedSettings steps).marginX, (preparedSettings steps).marginY) = marginsOf steps := by
  rw [get_preparedSettings_of_info (fun settings => (settings.marginX, settings.marginY))
    (fun i => (i.marginX, i.marginY)) (fun _ _ => rfl) (fun _ _ => rfl), marginsOf]
  cases (steps.filterMap fun s => s.move.info?).getLast? <;> rfl

theorem nonneg_marginsOf {steps : List Step} (h : ∀ s ∈ steps, s.move.Measured) :
    0 ≤ (marginsOf steps).1 ∧ 0 ≤ (marginsOf steps).2 := by
  rw [marginsOf]
  cases hlast : (steps.filterMap fun s => s.move.info?).getLast? with
  | none => decide
  | some i =>
      rcases List.mem_filterMap.1 (List.mem_of_getLast? hlast) with ⟨s, hs, hinfo⟩
      have hmeasured := h s hs
      cases hmove : s.move with
      | info j =>
          rw [hmove] at hinfo hmeasured
          rw [← Option.some.inj hinfo]
          exact hmeasured
      | _ =>
          rw [hmove] at hinfo
          cases hinfo

/-! ### Views -/

/-- A part of the page: its left and its upper side, and how large it is. -/
structure View where
  left : Int
  top : Int
  width : Int
  height : Int

/-- The part of the page that a sequence is shown on: the hull of its boxes, with the
    margins on either side. -/
def viewOf (steps : List Step) : View :=
  let hull := boundsOf (walk steps)
  let margins := marginsOf steps
  { left := hull.topLeft.x - margins.1
    top := hull.topLeft.y - margins.2
    width := hull.bottomRight.x - hull.topLeft.x + 2 * margins.1
    height := hull.bottomRight.y - hull.topLeft.y + 2 * margins.2 }

/-- The numbers of a view as an attribute. -/
def View.text (v : View) : String :=
  " ".intercalate [Svg.int v.left, Svg.int v.top, Svg.int v.width, Svg.int v.height]

/-- The values of an attribute of the root of markup. -/
def Svg.Xml.rootValues (key : String) : Svg.Xml → List String
  | element _ attributes _ _ => valuesIn key attributes
  | literal _ attributes _ => valuesIn key attributes

/-- How a document is framed for a sequence. -/
structure Svg.Document.Frames (d : Svg.Document) (steps : List Step) : Prop where
  /-- Every box is the right way round. -/
  ordered : ∀ b ∈ boxesOf (walk steps), b.Ordered
  /-- The box of the sequence is the hull of the boxes. -/
  hull : Box.IsHull (boxesOf (walk steps)) (boundsOf (walk steps))
  /-- It is the same in whatever order the boxes are taken together. -/
  anyOrder : ∀ boxes : List Box, boxes.Perm (boxesOf (walk steps)) →
    Box.unionAll (boxes.map some) = some (boundsOf (walk steps))
  /-- Once a move has a box, further steps make it no smaller. -/
  grows : (walk steps).filterMap Stage.bounds? ≠ [] → ∀ more,
    (boundsOf (walk (steps ++ more))).Encloses (boundsOf (walk steps))
  /-- The view box is that of the sequence, and so are width and height. -/
  viewBox : d.xml.rootValues "viewBox" = [(viewOf steps).text]
  width : d.xml.rootValues "width" = [Svg.int (viewOf steps).width]
  height : d.xml.rootValues "height" = [Svg.int (viewOf steps).height]
  /-- Nothing is turned inside out. -/
  nonneg : 0 ≤ (viewOf steps).width ∧ 0 ≤ (viewOf steps).height

/-! ### Diagrams -/

theorem Svg.int_ne_empty (n : Int) : Svg.int n ≠ "" := by
  intro h
  rcases decimal_eq_cons n with ⟨c, cs, hcs, -⟩
  rw [Svg.int, hcs] at h
  exact absurd (String.ofList_injective h) (List.cons_ne_nil c cs)

theorem View.text_ne_empty (v : View) : v.text ≠ "" := by
  intro h
  have hchars := congrArg String.toList h
  rw [View.text, String.toList_intercalate, List.map_cons, List.map_cons,
    List.intercalate_cons_cons] at hchars
  exact absurd hchars (by simp)

/-- The root of a diagram shows the numbers of a view, if these are those of its box. -/
theorem rootValues_xml {d : Svg.Document} {v : View} (hleft : d.view.topLeft.x = v.left)
    (htop : d.view.topLeft.y = v.top) (hwidth : d.view.width = v.width)
    (hheight : d.view.height = v.height) :
    d.xml.rootValues "viewBox" = [v.text] ∧ d.xml.rootValues "width" = [Svg.int v.width] ∧
      d.xml.rootValues "height" = [Svg.int v.height] := by
  have htext : " ".intercalate [Svg.int v.left, Svg.int v.top, Svg.int v.width,
      Svg.int v.height] = v.text := rfl
  simp [Svg.Xml.rootValues, Svg.Document.xml, Svg.Document.rootAttributes, Svg.Xml.valuesIn,
    hleft, htop, hwidth, hheight, htext, Svg.int_ne_empty, v.text_ne_empty]

/-- The diagram of measured steps is framed for them. -/
theorem frames_ofSteps {steps : List Step} (h : ∀ s ∈ steps, s.move.Measured) :
    (Diagram.ofSteps steps).document.Frames steps := by
  have hordered := ordered_boxesOf h
  have hhull := isHull_boundsOf hordered
  have hview := view_ofSteps steps
  have hx : (preparedSettings steps).marginX = (marginsOf steps).1 :=
    congrArg Prod.fst (margins_preparedSettings steps)
  have hy : (preparedSettings steps).marginY = (marginsOf steps).2 :=
    congrArg Prod.snd (margins_preparedSettings steps)
  rw [hx, hy] at hview
  have hroot := rootValues_xml (d := (Diagram.ofSteps steps).document) (v := viewOf steps)
    (by rw [hview]; rfl) (by rw [hview]; rfl)
    (by rw [hview]; simp only [Box.width, Box.withMargin, viewOf]; omega)
    (by rw [hview]; simp only [Box.height, Box.withMargin, viewOf]; omega)
  constructor
  case ordered => exact hordered
  case hull => exact hhull
  case anyOrder => exact fun boxes hperm => Box.unionAll_of_perm hhull hordered hperm
  case grows => exact fun hsome more => encloses_boundsOf_append hsome more
  case viewBox => exact hroot.1
  case width => exact hroot.2.1
  case height => exact hroot.2.2
  case nonneg =>
    have hbox := hhull.ordered hordered
    have hmargins := nonneg_marginsOf h
    have hhorizontal := hbox.horizontal
    have hvertical := hbox.vertical
    simp only [viewOf]
    omega

/-- The diagram of a text is framed for its unrolled steps. -/
theorem frames_ofText {text : String} {d : Diagram} (h : Diagram.ofText text = .ok d) :
    ∃ steps, expand text = .ok steps ∧ d.document.Frames steps := by
  rcases ofText_eq_ok h with ⟨steps, hexpand, rfl⟩
  exact ⟨steps, hexpand, frames_ofSteps (measured_of_expand hexpand)⟩

theorem frames_ofText_markedText :
    Diagram.ofText markedText = .ok (Diagram.ofSteps markedSteps) ∧
      ∃ steps, expand markedText = .ok steps ∧
        (Diagram.ofSteps markedSteps).document.Frames steps :=
  ⟨ofText_markedText.2, frames_ofText ofText_markedText.2⟩

end IceFigures
