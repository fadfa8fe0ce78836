import IceFigures.Proofs.Numbering
import IceFigures.Proofs.ViewBox
import Mathlib.Data.List.DropRight

/-!
# Which Counts Moves Are Drawn With

A written count is drawn as it is, unless it is zero, which draws none. Other moves are
drawn with a count only where numbering is switched on, and then the number depends on
what has gone before.

It depends on three things alone. The last settings directive says whether moves are
numbered, and whatever stands in front of it no longer counts. Behind it, the last visible
move with a written count other than zero says where numbering goes on from. Behind that,
every visible move has taken up one number, whether it showed one or not. A zero is thus
passed over in silence, and a move that is not visible is not counted even if it has a
count of its own.

When a sequence is drawn, the number is carried from move to move and changed by each.
That it comes to the same is shown from the last move backwards, which is the order in
which the three are looked for (`autoCount_foldl`).

## Main definitions

* `lastInfo?`, `sinceInfo`: The last settings directive, and the steps behind it.
* `Step.restart?`: The written count that numbering goes on from.
* `nextNumber`: The number in force behind steps without a settings directive.
* `numberInForce?`: The number in force behind any steps, if moves are numbered.
* `shownCount`: The count of a step behind others.
* `Step.numberAfter`: What a step makes of the number in force.
* `placedBefore`, `settingsAt`: What a sequence puts on the page before one of its steps,
  and the settings that the step is drawn under.
* `DrawnCounting`: A step that is drawn with a count at its place in a sequence.

## Theorems

* `nextNumber_concat`, `numberInForce?_concat`: How each step changes the number in force.
* `autoCount_laterSettings_of_info?`, `autoCount_laterSettings_info`: What a step makes of
  the number that is carried along.
* `autoCount_foldl`: The number that is carried along is the number in force.
* `placeStages_append`: Stages are placed one after another.
* `drawnCounting_of_visible`: Every visible step is drawn with the count that it has there.
-/

namespace IceFigures

/-! ### Numbers in force -/

/-- The last settings directive among steps. -/
def lastInfo? (steps : List Step) : Option Info :=
  (steps.filterMap fun s => s.move.info?).getLast?

/-- The steps behind the last settings directive, which are all steps if there is none. -/
def sinceInfo (steps : List Step) : List Step :=
  steps.rtakeWhile fun s => s.move.info?.isNone

/-- The count that numbering goes on from behind a step: the written count of a visible
    move, if it is not zero. -/
def Step.restart? (s : Step) : Option Nat :=
  if s.move.isVisible then s.count.filter (· ≠ 0) else none

/-- The number in force behind steps since numbering was switched on. It goes on from the
    last count that numbering goes on from, and else from zero, by one for each visible move
    behind it and one for the next. -/
def nextNumber (since : List Step) : Int :=
  ((since.filterMap Step.restart?).getLast?.getD 0 : Nat) + 1 +
    ((since.rtakeWhile fun s => s.restart?.isNone).countP fun s => s.move.isVisible : Nat)

/-- The number in force behind steps, if the last settings directive switches numbering on. -/
def numberInForce? (earlier : List Step) : Option Int :=
  if (lastInfo? earlier).any Info.autoCount then some (nextNumber (sinceInfo earlier)) else none

/-- The count that a step is drawn with behind other steps. -/
def shownCount (earlier : List Step) (s : Step) : Option Int :=
  match s.count with
  | none => numberInForce? earlier
  | some 0 => none
  | some n => some n

/-- The number in force behind a step, from the one in force at the step. -/
def Step.numberAfter (s : Step) (n : Int) : Int :=
  match s.restart? with
  | some k => (k : Int) + 1
  | none => if s.move.isVisible then n + 1 else n

/-! ### Steps put behind others -/

theorem getLast?_filterMap_concat {α β : Type} (pick : α → Option β) (l : List α) (x : α) :
    ((l ++ [x]).filterMap pick).getLast? = (pick x).or (l.filterMap pick).getLast? := by
  rw [List.filterMap_append, List.getLast?_append]
  cases hpick : pick x with
  | none => rw [List.filterMap_cons_none hpick, List.filterMap_nil, List.getLast?_nil]
  | some y => rw [List.filterMap_cons_some hpick, List.filterMap_nil, List.getLast?_singleton]

theorem nextNumber_concat (since : List Step) (s : Step) :
    nextNumber (since ++ [s]) = s.numberAfter (nextNumber since) := by
  rw [nextNumber, nextNumber, getLast?_filterMap_concat, List.rtakeWhile_concat, Step.numberAfter]
  cases s.restart? with
  | some k => exact Int.add_zero _
  | none =>
      rw [Option.none_or, if_pos Option.isNone_none, List.countP_append, List.countP_singleton]
      dsimp only
      split <;> omega

/-- A settings directive begins with one or switches numbering off. -/
theorem numberInForce?_concat_info (earlier : List Step) {s : Step} {i : Info}
    (h : s.move = .info i) :
    numberInForce? (earlier ++ [s]) = if i.autoCount then some 1 else none := by
  have hinfo : s.move.info? = some i := congrArg Move.info? h
  rw [numberInForce?, lastInfo?, sinceInfo, getLast?_filterMap_concat, List.rtakeWhile_concat,
    hinfo]
  rfl

/-- Other moves leave it to the directive whether moves are numbered. -/
theorem numberInForce?_concat (earlier : List Step) {s : Step} (h : s.move.info? = none) :
    numberInForce? (earlier ++ [s]) = (numberInForce? earlier).map s.numberAfter := by
  rw [numberInForce?, lastInfo?, sinceInfo, getLast?_filterMap_concat, List.rtakeWhile_concat, h,
    Option.none_or, if_pos Option.isNone_none, nextNumber_concat, ← lastInfo?, ← sinceInfo,
    numberInForce?]
  split <;> rfl

/-! ### The number that is carried along -/

theorem Move.configure_of_info? {m : Move} (h : m.info? = none) (settings : Settings) :
    m.configure settings = settings := by
  cases m with
  | info i => cases h
  | _ => rfl

/-- Settings directives are not visible. -/
theorem Move.info?_of_isVisible {m : Move} (h : m.isVisible = true) : m.info? = none := by
  cases m with
  | info i => cases h
  | _ => rfl

/-- Without a settings directive, a step counts on from the number that it finds. -/
theorem autoCount_laterSettings_of_info? {s : Step} (h : s.move.info? = none)
    (settings : Settings) :
    (laterSettings settings s).autoCount = settings.autoCount.map s.numberAfter := by
  rw [autoCount_laterSettings, Move.configure_of_info? h]
  cases hnumber : settings.autoCount with
  | none => rfl
  | some n =>
      -- A missing count shows the number in force and a zero shows none, but the number goes
      -- on by one behind either.
      rw [Option.map_some, Option.map_some, countFor, hnumber, Step.numberAfter, Step.restart?]
      split <;> rcases s.count with _ | _ | k <;> rfl

/-- A settings directive settles the number, whatever it finds. -/
theorem autoCount_laterSettings_info {s : Step} {i : Info} (h : s.move = .info i)
    (settings : Settings) :
    (laterSettings settings s).autoCount = if i.autoCount then some 1 else none := by
  have hinvisible : (Move.info i).isVisible = false := rfl
  rw [autoCount_laterSettings, h, hinvisible]
  exact Option.map_id'

-- By induction on the steps from the last one on.
theorem autoCount_foldl {settings : Settings} (h : settings.autoCount = none)
    (earlier : List Step) :
    (earlier.foldl laterSettings settings).autoCount = numberInForce? earlier := by
  induction earlier using List.reverseRecOn with
  | nil => exact h
  | append_singleton earlier s ih =>
      rw [List.foldl_append, List.foldl_cons, List.foldl_nil]
      cases hmove : s.move with
      | info i =>
          rw [numberInForce?_concat_info _ hmove, autoCount_laterSettings_info hmove]
      | _ =>
          have hinfo : s.move.info? = none := by
            rw [hmove]
            rfl
          rw [autoCount_laterSettings_of_info? hinfo, ih, numberInForce?_concat _ hinfo]

/-! ### Stages -/

/-- Stages are placed one after another. -/
theorem placeStages_append (settings : Settings) (names : Names) (front back : List Stage) :
    placeStages settings names (front ++ back) =
      ((placeStages settings names front).1 ++
          (placeStages (placeStages settings names front).2.2
            (placeStages settings names front).2.1 back).1,
        (placeStages (placeStages settings names front).2.2
          (placeStages settings names front).2.1 back).2) := by
  induction front generalizing settings names with
  | nil => rfl
  | cons stage rest ih =>
      rw [List.cons_append, placeStages_cons, placeStages_cons, ih]
      simp only [List.append_assoc]

/-- The settings that stages leave are those that their steps leave one after another. -/
theorem settings_placeStages (settings : Settings) (names : Names) (stages : List Stage) :
    (placeStages settings names stages).2.2 =
      (stages.map Stage.step).foldl laterSettings settings := by
  induction stages generalizing settings names with
  | nil => rfl
  | cons stage rest ih => exact ih _ _

/-! ### Sequences -/

/-- What a sequence puts on the page before one of its steps, with the names given and the
    settings in force there. -/
def placedBefore (steps : List Step) (j : Nat) : List Svg.Item × Names × Settings :=
  placeStages { preparedSettings steps with bounds := boundsOf (walk steps) } {}
    ((walk steps).take j)

/-- The settings that a step is drawn under at its place in a sequence. -/
def settingsAt (steps : List Step) (j : Nat) (s : Step) : Settings :=
  drawnSettings (placedBefore steps j).2.2 s

/-- A step that is drawn with a count at its place in a sequence. -/
structure DrawnCounting (steps : List Step) (j : Nat) (s : Step) (count : Option Int) : Prop where
  /-- The items of the step are on the page behind those of the steps before it. -/
  drawn : ∃ stage later, (walk steps)[j]? = some stage ∧ stage.step = s ∧
    (placed steps).1 =
      (placedBefore steps j).1 ++
        markAt (placedBefore steps j).2.2.markers stage.before startMark
          (placedBefore steps j).2.2 ++
        (drawStep stage.before (settingsAt steps j s) (placedBefore steps j).2.1 s).1 ++ later
  /-- The settings that they are drawn under have the count. -/
  count : (settingsAt steps j s).count = count

theorem autoCount_placedBefore (steps : List Step) (j : Nat) :
    (placedBefore steps j).2.2.autoCount = numberInForce? (steps.take j) := by
  let settings : Settings := { preparedSettings steps with bounds := boundsOf (walk steps) }
  have hnone : settings.autoCount = none := by
    refine get_preparedSettings Settings.autoCount (fun m settings => ?_) steps
    cases m <;> rfl
  rw [placedBefore, settings_placeStages, List.map_take, map_step_walk]
  exact autoCount_foldl hnone _

/-- A stage is drawn behind those before it, under the settings that they leave. -/
theorem placed_eq_around {steps : List Step} {j : Nat} {stage : Stage}
    (h : (walk steps)[j]? = some stage) :
    ∃ later, (placed steps).1 =
      (placedBefore steps j).1 ++
        markAt (placedBefore steps j).2.2.markers stage.before startMark
          (placedBefore steps j).2.2 ++
        (drawStep stage.before (settingsAt steps j stage.step) (placedBefore steps j).2.1
          stage.step).1 ++ later := by
  have hwalk : walk steps = (walk steps).take j ++ stage :: (walk steps).drop (j + 1) := by
    conv_lhs => rw [← List.take_append_drop j (walk steps)]
    rw [List.drop_eq_getElem?_toList_append, h]
    rfl
  have hplaced := congrArg (placeStages
    { preparedSettings steps with bounds := boundsOf (walk steps) } {}) hwalk
  rw [← placed, placeStages_append, ← placedBefore, placeStages_cons] at hplaced
  have hitems := congrArg Prod.fst hplaced
  simp only [List.append_assoc] at hitems ⊢
  exact ⟨_, hitems⟩

/-- Every visible step is drawn with the count that it has behind the steps before it. -/
theorem drawnCounting_of_visible {steps : List Step} {j : Nat} {s : Step}
    (hget : steps[j]? = some s) (hvisible : s.move.isVisible = true) :
    DrawnCounting steps j s (shownCount (steps.take j) s) := by
  constructor
  case drawn =>
    rw [← map_step_walk steps, List.getElem?_map, Option.map_eq_some_iff] at hget
    rcases hget with ⟨stage, hstage, rfl⟩
    rcases placed_eq_around hstage with ⟨later, hplaced⟩
    exact ⟨stage, later, hstage, rfl, hplaced⟩
  case count =>
    have hinfo := Move.info?_of_isVisible hvisible
    change countFor s (s.move.configure (placedBefore steps j).2.2) = _
    rw [Move.configure_of_info? hinfo, countFor, autoCount_placedBefore]
    rfl

/-- An edge with a written count or none. -/
def numberedEdge (count : Option Nat) : Step :=
  { move := .part (.curve { code := ⟨.left, .forward, .outside⟩ }), count := count }

/-- Numbering that goes on from seven, past a label and a zero. -/
def numberedSteps : List Step :=
  [{ move := .info { autoCount := true } }, numberedEdge (some 7), numberedEdge none,
   { move := .part (.label { text := "here" }), count := some 3 }, numberedEdge (some 0),
   numberedEdge none]

/-- The edge after seven shows eight, the zero is the ninth and the last edge shows ten. -/
theorem drawnCounting_numberedSteps :
    numberedSteps[5]? = some (numberedEdge none) ∧ (numberedEdge none).move.isVisible = true ∧
      DrawnCounting numberedSteps 5 (numberedEdge none) (some 10) ∧
      DrawnCounting numberedSteps 4 (numberedEdge (some 0)) none ∧
      DrawnCounting numberedSteps 2 (numberedEdge none) (some 8) :=
  ⟨rfl, rfl, drawnCounting_of_visible rfl rfl, drawnCounting_of_visible rfl rfl,
    drawnCounting_of_visible rfl rfl⟩

end IceFigures
