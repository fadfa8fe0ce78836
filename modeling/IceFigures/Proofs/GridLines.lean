import IceFigures.Proofs.AutomaticCounts
import IceFigures.Proofs.CopyPlaces

/-!
# Grid Lines

A settings directive can ask for a grid, which is a line at every multiple of a spacing.
The lines run through the box around all moves, without its margin, from one side of the
box to the other, and those through the origin are darker.

The first line is found by a division that rounds up, and how many follow it by another
one. Both have to come out right for limits on either side of zero, and for limits that
are multiples themselves. Each division is told as a comparison of multiples
(`neg_ediv_neg_le_iff`, `lt_ediv_iff_mul_lt`), and from these two follows which lines there
are (`mem_gridLines_iff`).

The spacing is that of the last settings directive, wherever it stands. It makes no
difference whether this is looked for among the steps that are written or among those that
they are unrolled to: all passes of a repeat end with the same directive
(`lastInfo?_unrollAll`).

Nothing else on a page is a path of its own. Moves are drawn as uses of definitions and as
captions, and boxes as rectangles, so the paths right below the root of a document are those
of its grid (`paths_ofSteps`).

## Main definitions

* `ListsMultiples`: The multiples between two limits, in order.
* `Line`: A straight line on the page.
* `Line.upright`, `Line.level`: The lines of a grid across a box.
* `Svg.Xml.children`: The elements of a tag right below an element.
* `Svg.shapesOf`: The shapes among items.
* `Svg.Document.DrawsGrid`: Documents whose paths are the lines of a grid.

## Theorems

* `mem_gridLines_iff`: Which multiples grid lines stand at.
* `listsMultiples_gridLines`: Grid lines are the multiples between their limits.
* `lastInfo?_unrollAll`: Unrolling keeps the last settings directive.
* `grid_placed`: The grid in force at the end is that of the last directive.
* `shapesOf_placeStages`: Nothing that is drawn for a move is a shape.
* `paths_ofSteps`: The paths of a diagram are its grid.
* `drawsGrid_ofText`: The grid of the diagram of a text.
-/

namespace IceFigures

/-! ### Multiples between limits -/

/-- Whole numbers in strictly increasing order, namely all multiples of a spacing from one
    limit up to another, which is left out. -/
structure ListsMultiples (spacing low high : Int) (ns : List Int) : Prop where
  increasing : ns.Pairwise (· < ·)
  mem_iff : ∀ n, n ∈ ns ↔ spacing ∣ n ∧ low ≤ n ∧ n < high

section Multiples

variable {spacing : Int} (h : 0 < spacing)

include h

/-- Rounding up gives the first multiple that is not below a limit. -/
theorem neg_ediv_neg_le_iff {low q : Int} : -(-low / spacing) ≤ q ↔ low ≤ q * spacing := by
  have hdiv : -q ≤ -low / spacing ↔ -q * spacing ≤ -low := Int.le_ediv_iff_mul_le h
  rw [Int.neg_mul] at hdiv
  omega

/-- As many multiples, counted from zero, lie below an extent. -/
theorem lt_ediv_iff_mul_lt {extent k : Int} :
    k < (extent + spacing - 1) / spacing ↔ k * spacing < extent := by
  rw [← Int.add_one_le_iff, Int.le_ediv_iff_mul_le h, Int.add_mul, Int.one_mul]
  omega

theorem gridLines_of_pos (low high : Int) :
    gridLines low high spacing =
      (List.range ((high - -(-low / spacing) * spacing + spacing - 1) / spacing).toNat).map
        fun (k : Nat) => (-(-low / spacing) + k) * spacing := by
  rw [gridLines, if_neg (Int.not_le.2 h)]
  simp only [Int.add_mul]

/-- Each line stands before those behind it. -/
theorem pairwise_gridLines (low high : Int) : (gridLines low high spacing).Pairwise (· < ·) := by
  rw [gridLines_of_pos h, List.pairwise_map]
  refine List.pairwise_lt_range.imp fun {j k} hjk => ?_
  exact Int.mul_lt_mul_of_pos_right (by omega) h

theorem mem_gridLines_iff {low high n : Int} :
    n ∈ gridLines low high spacing ↔ spacing ∣ n ∧ low ≤ n ∧ n < high := by
  have hlow : ∀ q, -(-low / spacing) ≤ q ↔ low ≤ q * spacing := fun q => neg_ediv_neg_le_iff h
  rw [gridLines_of_pos h, List.mem_map]
  -- Nothing else about the first line matters than which multiples are behind it.
  generalize -(-low / spacing) = first at hlow ⊢
  constructor
  · rintro ⟨k, hk, rfl⟩
    have hextent := (lt_ediv_iff_mul_lt h).1 (Int.lt_toNat.1 (List.mem_range.1 hk))
    refine ⟨Int.dvd_mul_left _ _, (hlow _).1 (by omega), ?_⟩
    rw [Int.add_mul]
    omega
  · rintro ⟨⟨q, rfl⟩, hlower, hupper⟩
    rw [Int.mul_comm] at hlower hupper
    have hfirst := (hlow q).2 hlower
    -- A multiple is as many lines behind the first one as its factor is larger.
    have hk : ((q - first).toNat : Int) = q - first := by omega
    have hq : first + (q - first) = q := by omega
    refine ⟨(q - first).toNat, List.mem_range.2 (Int.lt_toNat.2 ?_), ?_⟩
    · rw [hk, lt_ediv_iff_mul_lt h, Int.sub_mul]
      omega
    · rw [hk, hq, Int.mul_comm]

/-- Grid lines are the multiples of their spacing between their limits. -/
theorem listsMultiples_gridLines (low high : Int) :
    ListsMultiples spacing low high (gridLines low high spacing) :=
  ⟨pairwise_gridLines h low high, fun _ => mem_gridLines_iff h⟩

end Multiples

/-! ### Lines -/

/-- A straight line on the page, which is an axis if it goes through the origin. -/
structure Line where
  start : Point
  stop : Point
  isAxis : Bool
deriving DecidableEq

namespace Line

/-- The upright line across a box at a distance from the origin. -/
def upright (b : Box) (x : Int) : Line where
  start := { x := x, y := b.topLeft.y }
  stop := { x := x, y := b.bottomRight.y }
  isAxis := x = 0

/-- The level line across a box at a distance from the origin. -/
def level (b : Box) (y : Int) : Line where
  start := { x := b.topLeft.x, y := y }
  stop := { x := b.bottomRight.x, y := y }
  isAxis := y = 0

/-- The style of a line; an axis is darker than other lines. -/
def style (l : Line) : String :=
  if l.isAxis then "stroke:gray; stroke-width:2;" else "stroke:lightgray;"

/-- The path from one end of a line to the other. -/
def shape (l : Line) : Svg.Shape :=
  .path ("M " ++ Svg.int l.start.x ++ "," ++ Svg.int l.start.y ++ " L " ++ Svg.int l.stop.x ++
    "," ++ Svg.int l.stop.y) l.style ""

/-- The element of a line, which has no name. -/
def xml (l : Line) : Svg.Xml :=
  l.shape.xml ""

end Line

/-- The lines of a grid across a box: upright ones, then level ones. -/
theorem gridItems_eq (b : Box) (spacing : Int) :
    gridItems b spacing =
      ((gridLines b.topLeft.x b.bottomRight.x spacing).map (Line.upright b) ++
        (gridLines b.topLeft.y b.bottomRight.y spacing).map (Line.level b)).map
          fun l => .shape l.shape := by
  simp only [gridItems, List.map_append, List.map_map, Function.comp_def, Line.shape, Line.style,
    Line.upright, Line.level, gridStyle, decide_eq_true_eq]

/-! ### Paths of a document -/

namespace Svg

/-- The tag of an element. -/
def Xml.tag : Xml → String
  | element tag _ _ _ => tag
  | literal tag _ _ => tag

/-- The elements of a tag right below an element. -/
def Xml.children (tag : String) : Xml → List Xml
  | element _ _ _ children => children.filter fun x => x.tag = tag
  | literal _ _ _ => []

/-- The shape that an item is, if it is one. -/
def Item.shape? (i : Item) : Option Shape :=
  match i.content with
  | .shape s => some s
  | _ => none

/-- The shapes among items, in order. -/
def shapesOf (items : List Item) : List Shape :=
  items.filterMap Item.shape?

/-- Whether a shape is a path. -/
def Shape.isPath : Shape → Bool
  | path _ _ _ => true
  | _ => false

/-- Whether an item is a path. -/
def Item.isPath (i : Item) : Bool :=
  i.shape?.any Shape.isPath

theorem Item.tag_xml_eq_path_iff (i : Item) : i.xml.tag = "path" ↔ i.isPath = true := by
  rcases i with ⟨content, name⟩
  cases content with
  | use target pos heading strokeWidth => simp [Item.xml, Xml.tag, isPath, shape?]
  | caption c =>
      rcases c with ⟨pos, fontSize, rotation, _ | _⟩ <;>
        simp [Item.xml, Caption.xml, Xml.tag, isPath, shape?]
  | shape s => cases s <;> simp [Item.xml, Shape.xml, Xml.tag, isPath, shape?, Shape.isPath]

/-- The paths right below the root of a document are those among its items. -/
theorem Document.paths_xml (d : Document) :
    d.xml.children "path" = (d.items.filter Item.isPath).map Item.xml := by
  have htag : ((fun x => decide (x.tag = "path")) ∘ Item.xml : Item → Bool) = Item.isPath := by
    funext i
    rw [Function.comp_apply, Bool.eq_iff_iff, decide_eq_true_eq, i.tag_xml_eq_path_iff]
  -- In front of the items there are a title, a description and definitions.
  have hitems : d.xml.children "path" =
      (d.items.map Item.xml).filter fun x => x.tag = "path" := rfl
  rw [hitems, List.filter_map, htag]

/-- A document whose paths are the lines of a grid across a box: the upright ones from left
    to right, each at a multiple of the spacing, then the level ones from top to bottom. -/
def Document.DrawsGrid (d : Document) (b : Box) (spacing : Int) : Prop :=
  ∃ xs ys, ListsMultiples spacing b.topLeft.x b.bottomRight.x xs ∧
    ListsMultiples spacing b.topLeft.y b.bottomRight.y ys ∧
    d.xml.children "path" = (xs.map (Line.upright b) ++ ys.map (Line.level b)).map Line.xml

end Svg

/-! ### What moves are drawn with -/

open Svg (shapesOf)

theorem shapesOf_append (items items' : List Svg.Item) :
    shapesOf (items ++ items') = shapesOf items ++ shapesOf items' :=
  List.filterMap_append

theorem shapesOf_drawShape (before : Skater) (settings : Settings) (name : String)
    (labels : List PartLabel) : shapesOf (Part.drawShape before settings name labels) = [] := by
  refine List.filterMap_eq_nil_iff.2 fun i hi => ?_
  rcases List.mem_cons.1 hi with rfl | hi
  · rfl
  · rcases List.mem_map.1 hi with ⟨l, -, rfl⟩
    rfl

theorem Part.shapesOf_draw (before : Skater) (settings : Settings) (p : Part) :
    shapesOf (p.draw before settings) = [] := by
  cases p with
  | curve c => exact shapesOf_drawShape ..
  | straight s => exact shapesOf_drawShape ..
  | hop h => exact shapesOf_drawShape ..
  | shift s => rfl
  | label l => rfl

theorem Figure.shapesOf_draw (before : Skater) (settings : Settings) (f : Figure) :
    shapesOf (f.draw before settings) = [] := by
  rcases f.draw_eq before settings with ⟨p, rest, -, hdraw⟩
  rw [hdraw, shapesOf_append, Part.shapesOf_draw, List.nil_append, Figure.drawUntimed, shapesOf,
    List.filterMap_flatMap, List.flatMap_eq_nil_iff]
  exact fun sp _ => Part.shapesOf_draw ..

theorem Move.shapesOf_draw (before : Skater) (settings : Settings) (m : Move) :
    shapesOf (m.draw before settings) = [] := by
  cases m with
  | part p => exact p.shapesOf_draw before settings
  | figure f => exact f.shapesOf_draw before settings
  | _ => rfl

theorem shapesOf_markAt (shown : Bool) (s : Skater) (mark : String) (settings : Settings) :
    shapesOf (markAt shown s mark settings) = [] := by
  cases shown <;> rfl

/-- Nothing that is drawn for a move is a shape. -/
theorem shapesOf_placeStages (settings : Settings) (names : Names) (stages : List Stage) :
    shapesOf (placeStages settings names stages).1 = [] := by
  induction stages generalizing settings names with
  | nil => rfl
  | cons stage rest ih =>
      -- Marks are uses, and naming what a move draws makes no shapes of it.
      have hdrawn : shapesOf (drawStep stage.before (drawnSettings settings stage.step) names
          stage.step).1 = [] :=
        (filterMap_nameItems (fun _ _ => rfl) _ names _).trans (Move.shapesOf_draw ..)
      rw [placeStages_cons, shapesOf_append, shapesOf_append, shapesOf_append, shapesOf_markAt,
        hdrawn, shapesOf_markAt, ih]
      rfl

/-! ### The last directive -/

theorem lastInfo?_append (steps more : List Step) :
    lastInfo? (steps ++ more) = (lastInfo? more).or (lastInfo? steps) := by
  rw [lastInfo?, List.filterMap_append, List.getLast?_append, ← lastInfo?, ← lastInfo?]

theorem lastInfo?_cons (s : Step) (steps : List Step) :
    lastInfo? (s :: steps) = (lastInfo? steps).or s.move.info? := by
  have hsingle : lastInfo? [s] = s.move.info? :=
    (getLast?_filterMap_concat _ [] s).trans Option.or_none
  rw [← List.singleton_append, lastInfo?_append, hsingle]

namespace Passage

/-- A settings directive is the same on either foot and in every pass. -/
theorem info?_copy (s : Step) (pass : Option Nat) (flag : Bool) :
    (copy s pass flag).move.info? = s.move.info? := by
  rcases (isCopy_copy s pass flag).move with hmove | hmove
  · rw [hmove]
  · rw [hmove]
    cases s.move <;> rfl

/-- If all passes end with the same directive, so does the whole block. -/
theorem lastInfo?_passes {body : Option Nat → Bool → List Step × Bool} {last : Option Info}
    (hbody : ∀ pass flag, lastInfo? (body (some pass) flag).1 = last) (alternate : Bool)
    (more pass : Nat) (flag : Bool) :
    lastInfo? (passes body alternate more pass flag).1 = last := by
  induction more generalizing pass flag with
  | zero => exact hbody pass flag
  | succ more ih => rw [passes_succ, lastInfo?_append, ih, hbody, Option.or_self]

/-- Unrolling keeps the last settings directive. -/
theorem lastInfo?_unrollAll {ps : List Passage} {written : List Step} (h : Spells ps written)
    (pass : Option Nat) (flag : Bool) :
    lastInfo? (unrollAll ps pass flag).1 = lastInfo? written := by
  induction h generalizing pass flag with
  | nil => rfl
  | step hs _ ih =>
      rw [unrollAll_cons, unroll_step, List.singleton_append, lastInfo?_cons, lastInfo?_cons, ih,
        info?_copy]
  | @block start stop mark body ps inner rest hstart _ hstop _ hbody ih =>
      have hblock : lastInfo? (unroll (block body mark) pass flag).1 = lastInfo? inner :=
        lastInfo?_passes (fun _ _ => hbody _ _) _ _ _ _
      rw [unrollAll_cons, lastInfo?_append, ih, hblock, lastInfo?_cons, lastInfo?_append,
        lastInfo?_cons, hstart, hstop]
      -- The marks around the block are no directives.
      simp only [Move.info?, Option.or_none]

end Passage

/-! ### Settings -/

theorem grid_laterSettings (settings : Settings) (s : Step) :
    (laterSettings settings s).grid = settings.grid := by
  rw [get_laterSettings Settings.grid fun _ _ => rfl]
  cases s.move <;> rfl

theorem grid_preparedSettings (steps : List Step) :
    (preparedSettings steps).grid = (lastInfo? steps).bind fun i => nonzero? i.grid := by
  rw [get_preparedSettings_of_info Settings.grid (fun i => nonzero? i.grid) (fun _ _ => rfl)
    (fun _ _ => rfl), ← lastInfo?]
  cases lastInfo? steps <;> rfl

/-- Placing moves leaves the grid as the last directive has it. -/
theorem grid_placed (steps : List Step) :
    (placed steps).2.2.grid = (lastInfo? steps).bind fun i => nonzero? i.grid := by
  have hfold : ∀ settings : Settings,
      (steps.foldl laterSettings settings).grid = settings.grid := by
    induction steps with
    | nil => exact fun _ => rfl
    | cons s rest ih => exact fun settings => (ih _).trans (grid_laterSettings settings s)
  rw [placed, settings_placeStages, map_step_walk, hfold]
  exact grid_preparedSettings steps

/-! ### Diagrams -/

theorem filter_isPath_gridOf (settings : Settings) (b : Box) :
    (gridOf settings b).filter Svg.Item.isPath = gridOf settings b := by
  rw [List.filter_eq_self, gridOf]
  intro i hi
  split at hi
  · exact absurd hi List.not_mem_nil
  · rw [gridItems_eq] at hi
    rcases List.mem_map.1 hi with ⟨l, -, rfl⟩
    rfl

/-- The paths of a diagram are its grid. -/
theorem paths_ofSteps (steps : List Step) :
    (Diagram.ofSteps steps).document.xml.children "path" =
      (gridOf (placed steps).2.2 (boundsOf (walk steps))).map Svg.Item.xml := by
  have hmoveBoxes : (moveBoxItems (preparedSettings steps) (walk steps)).filter
      Svg.Item.isPath = [] := by
    rw [List.filter_eq_nil_iff, moveBoxItems]
    intro i hi
    split at hi
    · rcases List.mem_map.1 hi with ⟨b, -, rfl⟩
      exact Bool.false_ne_true
    · exact absurd hi List.not_mem_nil
  have hplaced : (placed steps).1.filter Svg.Item.isPath = [] := by
    rw [List.filter_eq_nil_iff]
    intro i hi
    have hshape := List.filterMap_eq_nil_iff.1 (shapesOf_placeStages ..) i hi
    rw [Svg.Item.isPath, hshape]
    exact Bool.false_ne_true
  have hboxes : ∀ (settings : Settings) (outer inner : Box),
      (boxItems settings outer inner).filter Svg.Item.isPath = [] := by
    intro settings outer inner
    rw [boxItems]
    split <;> rfl
  rw [Svg.Document.paths_xml, items_ofSteps, List.filter_append, List.filter_append,
    List.filter_append, hmoveBoxes, hplaced, hboxes, filter_isPath_gridOf, List.nil_append,
    List.nil_append, List.append_nil]

/-- The grid that the last directive asks for is drawn. -/
theorem drawsGrid_ofSteps {steps : List Step} {i : Info} (hlast : lastInfo? steps = some i)
    (hgrid : 0 < i.grid) :
    (Diagram.ofSteps steps).document.DrawsGrid (boundsOf (walk steps)) i.grid := by
  refine ⟨_, _, listsMultiples_gridLines hgrid _ _, listsMultiples_gridLines hgrid _ _, ?_⟩
  have hspacing : (placed steps).2.2.grid = some i.grid := by
    rw [grid_placed, hlast, Option.bind_some, nonzero?, if_neg (Int.ne_of_gt hgrid)]
  rw [paths_ofSteps, gridOf, hspacing]
  simp only [gridItems_eq, List.map_map]
  rfl

/-- Without a spacing, no grid is drawn. -/
theorem paths_eq_nil {steps : List Step} (h : ∀ i, lastInfo? steps = some i → i.grid ≤ 0) :
    (Diagram.ofSteps steps).document.xml.children "path" = [] := by
  rw [paths_ofSteps, List.map_eq_nil_iff, gridOf, grid_placed]
  cases hlast : lastInfo? steps with
  | none => rfl
  | some i =>
      have hgrid := h i hlast
      rw [Option.bind_some, nonzero?]
      split
      · rfl
      · rename_i spacing hspacing
        split at hspacing
        · cases hspacing
        · rw [gridItems_eq, ← Option.some.inj hspacing, gridLines, gridLines, if_pos hgrid,
            if_pos hgrid]
          rfl

/-! ### Texts -/

/-- Grid lines are the multiples between their limits. If the last settings directive of a
    text asks for a grid, the paths of its diagram are the lines across the box that the page
    shows without its margin, and if it does not, there are none. -/
theorem drawsGrid_ofText :
    (∀ spacing low high : Int, 0 < spacing →
      ListsMultiples spacing low high (gridLines low high spacing)) ∧
    ∀ (text : String) (d : Diagram), Diagram.ofText text = .ok d →
      ∃ written steps, Step.ofText text = .ok written ∧ expand text = .ok steps ∧
        lastInfo? steps = lastInfo? written ∧
        d.document.view =
          (boundsOf (walk steps)).withMargin (marginsOf steps).1 (marginsOf steps).2 ∧
        (∀ i, lastInfo? written = some i → 0 < i.grid →
          d.document.DrawsGrid (boundsOf (walk steps)) i.grid) ∧
        ((∀ i, lastInfo? written = some i → i.grid ≤ 0) → d.document.xml.children "path" = []) := by
  constructor
  · intro spacing low high h
    exact listsMultiples_gridLines h low high
  · intro text d h
    rcases ofText_eq_ok h with ⟨steps, hexpand, rfl⟩
    rcases exists_passages_of_expand hexpand with ⟨written, ps, htext, hspells, hsteps⟩
    have hlast : lastInfo? steps = lastInfo? written := by
      rw [hsteps]
      exact Passage.lastInfo?_unrollAll hspells none false
    refine ⟨written, steps, htext, hexpand, hlast, ?_, ?_, ?_⟩
    · rw [view_ofSteps, ← margins_preparedSettings]
    · intro i hi hgrid
      exact drawsGrid_ofSteps (hlast.trans hi) hgrid
    · intro hnone
      exact paths_eq_nil fun i hi => hnone i (hlast.symm.trans hi)

/-- Texts at two corners of a box, with a directive in a repeat behind another one. -/
def griddedText : String :=
  "Info[grid=7];|:;Text[x=-70,y=-100];Info[grid=50];:|;Text[x=50,y=120]"

/-- A step at a column of the first line. -/
def stepAt (col : Nat) (move : Move) : Step where
  move := move
  place := some { row := 0, col := col }

/-- The steps of the gridded text as they are written. -/
def griddedWritten : List Step :=
  [stepAt 0 (.info { grid := 7 }), stepAt 13 .repeatStart,
   stepAt 16 (.text { x := -70, y := -100 }), stepAt 35 (.info { grid := 50 }),
   stepAt 49 (.repeatEnd {}), stepAt 52 (.text { x := 50, y := 120 })]

/-- The steps that the gridded text is drawn as. -/
def griddedSteps : List Step :=
  let passed (pass : Nat) : List Step :=
    [(stepAt 16 (.text { x := -70, y := -100 })).inPass pass,
     (stepAt 35 (.info { grid := 50 })).inPass pass]
  [stepAt 0 (.info { grid := 7 })] ++ passed 1 ++ passed 2 ++
    [stepAt 52 (.text { x := 50, y := 120 })]

theorem ofText_griddedText :
    Step.ofText griddedText = .ok griddedWritten ∧ expand griddedText = .ok griddedSteps ∧
      Diagram.ofText griddedText = .ok (Diagram.ofSteps griddedSteps) := by
  have hwritten : Step.ofText griddedText = .ok griddedWritten := by decide +kernel
  have hexpand : expand griddedText = .ok griddedSteps := by
    rw [expand, hwritten]
    rfl
  have hwritable :
      (Diagram.ofSteps griddedSteps).document.items.all Svg.Item.isWritable = true := rfl
  refine ⟨hwritten, hexpand, ?_⟩
  rw [Diagram.ofText, hexpand]
  exact if_pos hwritable

/-- The box reaches from -70 to 50 and from -100 to 120. A side that is itself a multiple is
    ruled on the left and on top, but not on the right. -/
theorem drawsGrid_griddedText :
    Diagram.ofText griddedText = .ok (Diagram.ofSteps griddedSteps) ∧
      (0 : Int) < 50 ∧ ListsMultiples 50 (-70) 50 [-50, 0] ∧
      ListsMultiples 50 (-100) 120 [-100, -50, 0, 50, 100] ∧
      (Diagram.ofSteps griddedSteps).document.DrawsGrid
        { topLeft := { x := -70, y := -100 }, bottomRight := { x := 50, y := 120 } } 50 := by
  rcases ofText_griddedText with ⟨hwritten, hexpand, hdiagram⟩
  refine ⟨hdiagram, by decide, drawsGrid_ofText.1 50 (-70) 50 (by decide),
    drawsGrid_ofText.1 50 (-100) 120 (by decide), ?_⟩
  rcases drawsGrid_ofText.2 _ _ hdiagram with ⟨written, steps, hwritten', hexpand', -, -, hgrid, -⟩
  obtain rfl : griddedWritten = written := Except.ok.inj (hwritten.symm.trans hwritten')
  obtain rfl : griddedSteps = steps := Except.ok.inj (hexpand.symm.trans hexpand')
  exact hgrid { grid := 50 } rfl (by decide)

end IceFigures
