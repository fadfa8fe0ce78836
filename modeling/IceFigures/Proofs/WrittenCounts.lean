import IceFigures.Proofs.AutomaticCounts

/-!
# Written Counts on the Page

A count that is written in front of a move is to be seen once, beside the label of the
move. Which label that is depends on the kind of move: a part leads its own label with the
count, and a figure hands the count on to its first part and draws the others without one.
A duration is drawn like a count of its own, so only moves without one are told here.

Two kinds of moves leave a written count out. The name of a twizzle stands in its middle,
and none of its arcs is given the count. A glide on both feet has no label that the count
could lead. Nothing is said about texts with counted hops.

All that a move shows is told as one list (`Move.countsOf_draw`), so that no other label of
the move can have a count either. Since a step is drawn under settings of its own, the count
in them is the written one, whatever has gone before.

## Main definitions

* `PartLabel.counts`: The counts that a label shows.
* `Move.leavesCountOut`: Twizzles and glides on both feet.
* `itemsAt`: What a sequence puts on the page for one of its steps.
* `ShowsWrittenCounts`: Sequences in which every written count is shown once.

## Theorems

* `Part.countsOf_draw`, `Figure.countsOf_draw`, `Move.countsOf_draw`: The counts of what is
  drawn without a duration.
* `exists_items_eq_itemsAt`: The items of each step are on the page.
* `countsOf_itemsAt`: The counts that are shown for a step of a sequence.
* `countsOf_itemsAt_ofText`: How written counts are shown in the diagram of a text.
-/

namespace IceFigures

open Svg (countsOf)

/-! ### Counts of a part -/

/-- The counts that a label shows, which are none if it is not displayed. -/
def PartLabel.counts (l : PartLabel) : List Int :=
  if l.display then l.count.toList else []

theorem countsOf_drawShape (before : Skater) (settings : Settings) (name : String)
    (labels : List PartLabel) :
    countsOf (Part.drawShape before settings name labels) = labels.flatMap PartLabel.counts := by
  -- The definition in use comes first and has no count.
  rw [Part.drawShape, drawLabels, countsOf, List.filterMap_cons_none rfl, List.filterMap_map]
  induction labels with
  | nil => rfl
  | cons l rest ih =>
      rcases l with ⟨text, pos, count, _ | _⟩
      · exact ih
      · rw [List.filter_cons_of_pos rfl, List.flatMap_cons, ← ih]
        cases count <;> rfl

theorem PartLabel.counts_of_count {l : PartLabel} (h : l.count = none) : l.counts = [] := by
  rw [counts, h]
  split <;> rfl

/-- A label that is displayed whenever it has a count shows just that count. -/
theorem PartLabel.counts_of_display {l : PartLabel} {shown : Bool}
    (h : l.display = (l.count.isSome || shown)) : l.counts = l.count.toList := by
  rw [counts, h]
  cases l.count with
  | none => cases shown <;> rfl
  | some n => rfl

theorem Curve.counts_labels {settings : Settings} (h : settings.duration = none) (c : Curve) :
    (c.labels settings).flatMap PartLabel.counts = settings.count.toList := by
  rw [labels, h]
  simp only
  rw [List.cons_append, List.nil_append, List.flatMap_cons, PartLabel.counts_of_display rfl]
  -- The footwork that is left beside the main label has no count.
  split
  · exact List.append_nil _
  · rw [List.flatMap_singleton, PartLabel.counts_of_count rfl, List.append_nil]

theorem Straight.counts_labels (settings : Settings) (s : Straight) :
    (s.labels settings).flatMap PartLabel.counts =
      if s.code.foot ≠ .both then settings.count.toList else [] := by
  rw [labels, ite_not]
  split
  · rfl
  · rw [List.flatMap_singleton, PartLabel.counts_of_display rfl]

/-- Without a duration, a part shows the count that it is given once or not at all. -/
theorem Part.countsOf_draw {settings : Settings} (h : settings.duration = none)
    (before : Skater) (p : Part) :
    countsOf (p.draw before settings) = if p.showsCount then settings.count.toList else [] := by
  cases p with
  | curve c => exact (countsOf_drawShape ..).trans (Curve.counts_labels h c)
  | straight s =>
      rw [Part.draw, countsOf_drawShape, Straight.counts_labels, showsCount]
      simp only [decide_eq_true_eq]
  | hop j =>
      rw [Part.draw, countsOf_drawShape, Hop.labels, List.flatMap_singleton,
        PartLabel.counts_of_count rfl]
      rfl
  | shift s => rfl
  | label l => rfl

/-! ### Counts of a move -/

/-- Without a duration, a figure shows the count on its first part if on any. -/
theorem Figure.countsOf_draw {settings : Settings} (h : settings.duration = none)
    (before : Skater) (f : Figure) :
    countsOf (f.draw before settings) = if f.showsCount then settings.count.toList else [] := by
  rcases f.draw_eq before settings with ⟨p, rest, hp, hdraw⟩
  -- All parts but the first are drawn without a count.
  have hrest : countsOf (drawUntimed settings rest) = [] :=
    List.eq_nil_iff_forall_not_mem.2 fun n => not_mem_countsOf_drawUntimed
  rw [hdraw, Svg.countsOf_append, hrest, List.append_nil]
  split
  · rw [Part.countsOf_draw h, if_pos hp]
  · rw [Part.countsOf_draw rfl, if_pos hp]
    rfl

/-- Without a duration, a move shows the count that it is given once or not at all. -/
theorem Move.countsOf_draw {settings : Settings} (h : settings.duration = none)
    (before : Skater) (m : Move) :
    countsOf (m.draw before settings) = if m.showsCount then settings.count.toList else [] := by
  cases m with
  | part p => exact Part.countsOf_draw h before p
  | figure f => exact Figure.countsOf_draw h before f
  | _ => rfl

/-- Moves that leave their count out: twizzles and glides on both feet. -/
def Move.leavesCountOut : Move → Bool
  | part (.straight s) => s.code.foot = .both
  | figure f => match f.kind with
    | .twizzle _ => true
    | _ => false
  | _ => false

/-- Whether a move is a hop. -/
def Move.isHop : Move → Bool
  | part (.hop _) => true
  | _ => false

/-- Skated moves other than hops show their count unless they leave it out. -/
theorem Move.showsCount_eq_not {m : Move} (hskated : m.isSkated = true) (hhop : m.isHop = false) :
    m.showsCount = !m.leavesCountOut := by
  cases m with
  | part p =>
      cases p with
      | curve c => rfl
      | straight s => exact decide_not
      | hop j => cases hhop
      | shift s => cases hskated
      | label l => cases hskated
  | figure f =>
      rcases f with ⟨kind, entry, values, footwork⟩
      cases kind <;> rfl
  | _ => cases hskated

/-! ### Counts of a step in a sequence -/

/-- The items that a sequence puts on the page for one of its steps. -/
def itemsAt (steps : List Step) (j : Nat) : List Svg.Item :=
  match (walk steps)[j]? with
  | none => []
  | some stage =>
    (drawStep stage.before (settingsAt steps j stage.step) (placedBefore steps j).2.1
      stage.step).1

theorem itemsAt_of_walk {steps : List Step} {j : Nat} {stage : Stage}
    (h : (walk steps)[j]? = some stage) :
    itemsAt steps j =
      (drawStep stage.before (settingsAt steps j stage.step) (placedBefore steps j).2.1
        stage.step).1 := by
  rw [itemsAt, h]

/-- The items of a step stand on the page, wherever the step is. -/
theorem exists_items_eq_itemsAt {steps : List Step} {j : Nat} (h : j < steps.length) :
    ∃ front back,
      (Diagram.ofSteps steps).document.items = front ++ itemsAt steps j ++ back := by
  have hwalk : j < (walk steps).length := by
    rwa [← List.length_map Stage.step, map_step_walk]
  have hstage := List.getElem?_eq_getElem hwalk
  rcases placed_eq_around hstage with ⟨later, hplaced⟩
  rw [← itemsAt_of_walk hstage] at hplaced
  rw [items_ofSteps, hplaced]
  simp only [List.append_assoc]
  rw [← List.append_assoc, ← List.append_assoc]
  exact ⟨_, _, rfl⟩

/-- Without a duration, a step shows its count once or not at all. -/
theorem countsOf_itemsAt {steps : List Step} {j : Nat} {s : Step} (hget : steps[j]? = some s)
    (hduration : s.duration = none) :
    countsOf (itemsAt steps j) =
      if s.move.showsCount then (settingsAt steps j s).count.toList else [] := by
  rw [← map_step_walk steps, List.getElem?_map, Option.map_eq_some_iff] at hget
  rcases hget with ⟨stage, hstage, rfl⟩
  have hnone : (settingsAt steps j stage.step).duration = none :=
    congrArg (Option.map Int.ofNat) hduration
  rw [itemsAt_of_walk hstage, countsOf_drawStep, Move.countsOf_draw hnone]

/-- The settings of a step have its written count, unless it is zero. -/
theorem count_settingsAt {s : Step} {n : Nat} (hcount : s.count = some n) (hn : n ≠ 0)
    (steps : List Step) (j : Nat) : (settingsAt steps j s).count = some (n : Int) :=
  countFor_of_mem hcount hn _

/-! ### Texts -/

/-- Whether every skated move with a written count and no duration shows the count on one
    of its labels, and no other count. -/
def ShowsWrittenCounts (steps : List Step) : Prop :=
  ∀ (j : Nat) (s : Step) (n : Nat), steps[j]? = some s → s.move.isSkated = true →
    s.count = some n → n ≠ 0 → s.duration = none → countsOf (itemsAt steps j) = [(n : Int)]

/-- In the diagram of a text, a skated move with a written count and no duration shows just
    that count, unless it is a twizzle or a glide on both feet, which show none. -/
theorem countsOf_itemsAt_ofText {text : String} {d : Diagram}
    (h : Diagram.ofText text = .ok d) :
    ∃ steps, expand text = .ok steps ∧
      ∀ (j : Nat) (s : Step) (n : Nat), steps[j]? = some s → s.move.isSkated = true →
        s.move.isHop = false → s.count = some n → n ≠ 0 → s.duration = none →
        (∃ front back, d.document.items = front ++ itemsAt steps j ++ back) ∧
          countsOf (itemsAt steps j) = if s.move.leavesCountOut then [] else [(n : Int)] := by
  rcases ofText_eq_ok h with ⟨steps, hexpand, rfl⟩
  refine ⟨steps, hexpand, ?_⟩
  intro j s n hget hskated hhop hcount hn hduration
  constructor
  · exact exists_items_eq_itemsAt (List.getElem?_eq_some_iff.1 hget).1
  · rw [countsOf_itemsAt hget hduration, count_settingsAt hcount hn,
      Move.showsCount_eq_not hskated hhop]
    cases s.move.leavesCountOut <;> rfl

/-- A three turn and a twizzle with a count each. -/
def countedText : String :=
  "3) LFO3;4) LFI-Tw1"

/-- The steps of the counted text. -/
def countedSteps : List Step :=
  [{ move := .figure (.ofValues (.turn .three) ⟨.left, .forward, .outside⟩ [])
     place := some { row := 0, col := 0 }, count := some 3 },
   { move := .figure (.ofValues (.twizzle 2) ⟨.left, .forward, .inside⟩ [])
     place := some { row := 0, col := 8 }, count := some 4 }]

theorem ofText_countedText :
    expand countedText = .ok countedSteps ∧
      Diagram.ofText countedText = .ok (Diagram.ofSteps countedSteps) := by
  have hexpand : expand countedText = .ok countedSteps := by decide +kernel
  have hwritable :
      (Diagram.ofSteps countedSteps).document.items.all Svg.Item.isWritable = true := rfl
  refine ⟨hexpand, ?_⟩
  rw [Diagram.ofText, hexpand]
  exact if_pos hwritable

/-- The three turn shows its count, and the twizzle shows none. -/
theorem countsOf_itemsAt_countedText :
    Diagram.ofText countedText = .ok (Diagram.ofSteps countedSteps) ∧
      ∃ steps, expand countedText = .ok steps ∧
        countsOf (itemsAt steps 0) = [3] ∧ countsOf (itemsAt steps 1) = [] := by
  refine ⟨ofText_countedText.2, ?_⟩
  rcases countsOf_itemsAt_ofText ofText_countedText.2 with ⟨steps, hexpand, hshown⟩
  obtain rfl : countedSteps = steps := Except.ok.inj (ofText_countedText.1.symm.trans hexpand)
  exact ⟨countedSteps, hexpand, (hshown 0 _ 3 rfl rfl rfl rfl (by decide) rfl).2,
    (hshown 1 _ 4 rfl rfl rfl rfl (by decide) rfl).2⟩

/-- The count of the twizzle is drawn nowhere. -/
theorem not_showsWrittenCounts_countedText :
    Diagram.ofText countedText = .ok (Diagram.ofSteps countedSteps) ∧
      expand countedText = .ok countedSteps ∧ ¬ShowsWrittenCounts countedSteps := by
  refine ⟨ofText_countedText.2, ofText_countedText.1, fun hshows => ?_⟩
  have hnone : countsOf (itemsAt countedSteps 1) = [] :=
    (countsOf_itemsAt (s := countedSteps[1]) rfl rfl).trans (if_neg Bool.false_ne_true)
  have hshown := hshows 1 _ 4 rfl rfl rfl (by decide) rfl
  rw [hnone] at hshown
  cases hshown

end IceFigures
