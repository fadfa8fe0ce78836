import IceFigures.Diagram
import IceFigures.Proofs.Numerals

/-!
# Names and Places

Different places have different stems, since a stem shows the numbers of its
place with a sign between them. A name is a stem and a tail that depends only
on how often the place was used (`nameAt_eq`).

What a move draws has no name yet. The names of a diagram are given in one
place, and there only to what a step has drawn. Everything around the steps,
such as boxes and grids, is a plain shape.

## Main definitions

* `Names.tailAt`: What follows the stem at the n-th use of a place.
* `Names.places`: The places that have given a name.
* `drawnSettings`, `laterSettings`: The settings for a step and after it.
* `placed`: What the stages of a sequence put on the page.

## Theorems

* `stem_injective`: Different places have different stems.
* `mem_places_nameItemsFrom`: Naming adds no place but the one it names from.
* `name_of_mem_draw`: What a move draws has no name.
* `get_laterSettings`: A step leaves the settings as it has configured them.
* `placeStages_cons`: What the first of several stages puts on the page.
* `mem_places_placeStages`: Places that have given a name stay known.
* `mem_items_ofSteps`: What is on the page.
-/

namespace IceFigures

open Text (Stops)

namespace Place

/-- The pass of a place at the end of its stem. -/
def passChars : Option Nat → List Char
  | none => []
  | some n => '_' :: 'x' :: Nat.toDigits 10 n

theorem stemChars_eq (p : Place) :
    p.stemChars = 'r' :: '_' :: (Nat.toDigits 10 p.row ++
      '_' :: 'c' :: '_' :: (Nat.toDigits 10 p.col ++ passChars p.pass)) := by
  rcases p with ⟨row, col, _ | n⟩
  · simp only [stemChars, passChars, String.reduceToList, List.append_assoc, List.cons_append,
      List.nil_append, List.append_nil]
  · simp only [stemChars, passChars, String.reduceToList, List.append_assoc, List.cons_append,
      List.nil_append]

theorem passChars_injective : Function.Injective passChars := by
  intro a b h
  cases a with
  | none =>
      cases b with
      | none => rfl
      | some n => exact absurd h (by simp only [passChars, reduceCtorEq, not_false_eq_true])
  | some m =>
      cases b with
      | none => exact absurd h (by simp only [passChars, reduceCtorEq, not_false_eq_true])
      | some n =>
          rw [passChars, passChars, List.cons.injEq, List.cons.injEq] at h
          have hdigits := Text.toDigits_append_inj (Text.stops_nil _) (Text.stops_nil _)
            (congrArg (· ++ []) h.2.2)
          rw [hdigits.1]

theorem stops_passChars (pass : Option Nat) : Stops Text.isDigit (passChars pass) := by
  cases pass with
  | none => exact Text.stops_nil _
  | some n => exact Text.stops_cons.2 (by decide)

/-- Different places have different stems. -/
theorem stem_injective : Function.Injective stem := by
  intro p q h
  have hchars : p.stemChars = q.stemChars := String.ofList_injective h
  rw [stemChars_eq, stemChars_eq, List.cons.injEq, List.cons.injEq] at hchars
  have hrow := Text.toDigits_append_inj (Text.stops_cons.2 (by decide))
    (Text.stops_cons.2 (by decide)) hchars.2.2
  rw [List.cons.injEq, List.cons.injEq, List.cons.injEq] at hrow
  have hcol := Text.toDigits_append_inj (stops_passChars p.pass) (stops_passChars q.pass)
    hrow.2.2.2.2
  rcases p with ⟨row, col, pass⟩
  rcases q with ⟨row', col', pass'⟩
  rw [Place.mk.injEq]
  exact ⟨hrow.1, hcol.1, passChars_injective hcol.2⟩

end Place

namespace Names

/-- What follows the stem in the name that a place gives at its n-th use. -/
def tailAt (n : Nat) : String :=
  if n = 1 then "" else String.ofList ("_n".toList ++ Nat.toDigits 10 n)

theorem nameAt_eq (p : Place) (n : Nat) : String.ofList (nameAt p n) = p.stem ++ tailAt n := by
  unfold nameAt tailAt Place.stem
  by_cases hn : n = 1
  · rw [if_pos hn, if_pos hn, String.append_empty]
  · rw [if_neg hn, if_neg hn, ← String.ofList_append, List.append_assoc]

/-- The places that have given a name. -/
def places (names : Names) : List Place :=
  names.uses.map (·.1)

theorem stems_eq (names : Names) : names.stems = names.places.map Place.stem := by
  rw [stems, places, List.map_map]
  rfl

theorem mem_bump {p q : Place} {uses : List (Place × Nat)} :
    q ∈ (bump p uses).map (·.1) ↔ q = p ∨ q ∈ uses.map (·.1) := by
  induction uses with
  | nil =>
      rw [bump, List.map_singleton, List.mem_singleton, List.map_nil, List.mem_nil_iff, or_false]
  | cons u us ih =>
      rw [bump]
      by_cases hu : u.1 = p
      · rw [if_pos hu, List.map_cons, List.map_cons, List.mem_cons, List.mem_cons, hu, or_self_left]
      · rw [if_neg hu, List.map_cons, List.map_cons, List.mem_cons, List.mem_cons, ih,
          or_left_comm]

theorem mem_places_next {names : Names} {p q : Place} :
    q ∈ (names.next p).2.places ↔ q = p ∨ q ∈ names.places :=
  mem_bump

end Names

theorem mem_places_nameItemsFrom {p q : Place} {names : Names} (items : List Svg.Item)
    (h : q ∈ names.places) : q ∈ (nameItemsFrom p names items).2.places := by
  induction items generalizing names with
  | nil => exact h
  | cons i is ih => exact ih (Names.mem_places_next.2 (Or.inr h))

/-- Naming items changes nothing else about them. -/
theorem filterMap_nameItems {α : Type} {pick : Svg.Item → Option α}
    (hpick : ∀ (i : Svg.Item) name, pick { i with name := name } = pick i) (place : Option Place)
    (names : Names) (items : List Svg.Item) :
    (nameItems place names items).1.filterMap pick = items.filterMap pick := by
  cases place with
  | none => rfl
  | some p =>
      change (nameItemsFrom p names items).1.filterMap pick = _
      induction items generalizing names with
      | nil => rfl
      | cons i is ih =>
          rw [nameItemsFrom, List.filterMap_cons, List.filterMap_cons, hpick, ih]

/-! ### Drawn items -/

theorem name_of_mem_drawLabels {s : Skater} {settings : Settings} {labels : List PartLabel}
    {i : Svg.Item} (h : i ∈ drawLabels s settings labels) : i.name = none := by
  rcases List.mem_map.1 h with ⟨l, -, rfl⟩
  rfl

theorem Part.name_of_mem_draw {before : Skater} {settings : Settings} {p : Part} {i : Svg.Item}
    (h : i ∈ p.draw before settings) : i.name = none := by
  have hshape : ∀ name labels, i ∈ Part.drawShape before settings name labels → i.name = none := by
    intro name labels hi
    rcases List.mem_cons.1 hi with rfl | hi
    · rfl
    · exact name_of_mem_drawLabels hi
  cases p with
  | curve c => exact hshape _ _ h
  | straight s => exact hshape _ _ h
  | hop hp => exact hshape _ _ h
  | shift s => exact absurd h List.not_mem_nil
  | label l =>
      rw [List.mem_singleton.1 h]
      rfl

theorem Figure.name_of_mem_draw {before : Skater} {settings : Settings} {f : Figure}
    {i : Svg.Item} (h : i ∈ f.draw before settings) : i.name = none := by
  unfold Figure.draw at h
  split at h
  · exact absurd h List.not_mem_nil
  · rcases List.mem_append.1 h with h | h
    · exact Part.name_of_mem_draw h
    · rcases List.mem_flatMap.1 h with ⟨⟨s, p⟩, -, hi⟩
      exact Part.name_of_mem_draw hi

/-- What a move draws has no name. -/
theorem Move.name_of_mem_draw {before : Skater} {settings : Settings} {m : Move} {i : Svg.Item}
    (h : i ∈ m.draw before settings) : i.name = none := by
  cases m with
  | part p => exact Part.name_of_mem_draw h
  | figure f => exact Figure.name_of_mem_draw h
  | rink r =>
      rw [List.mem_singleton.1 h]
      rfl
  | title t =>
      rw [List.mem_singleton.1 h]
      rfl
  | text t =>
      rw [List.mem_singleton.1 h]
      rfl
  | warp w => exact absurd h List.not_mem_nil
  | info i => exact absurd h List.not_mem_nil
  | repeatStart => exact absurd h List.not_mem_nil
  | repeatEnd e => exact absurd h List.not_mem_nil

/-! ### Stages -/

/-- The settings under which a step is drawn. -/
def drawnSettings (settings : Settings) (s : Step) : Settings :=
  { s.move.configure settings with
    count := countFor s (s.move.configure settings), duration := s.duration.map Int.ofNat }

/-- The settings after a step has been drawn. -/
def laterSettings (settings : Settings) (s : Step) : Settings :=
  nextSettings s (countFor s (s.move.configure settings)) (s.move.configure settings)

/-- But for the number in force, a step leaves the settings as it has configured them. -/
theorem get_laterSettings {α : Type} (get : Settings → α)
    (hget : ∀ (settings : Settings) (n : Option Int),
      get { settings with autoCount := n } = get settings)
    (settings : Settings) (s : Step) :
    get (laterSettings settings s) = get (s.move.configure settings) := by
  unfold laterSettings nextSettings
  split
  · rfl
  · split
    · exact hget _ _
    · rfl

theorem placeStages_cons (settings : Settings) (names : Names) (stage : Stage)
    (rest : List Stage) :
    placeStages settings names (stage :: rest) =
      (markAt settings.markers stage.before startMark settings ++
          (drawStep stage.before (drawnSettings settings stage.step) names stage.step).1 ++
          markAt settings.markers stage.after endMark (stage.step.move.configure settings) ++
          (placeStages (laterSettings settings stage.step)
            (drawStep stage.before (drawnSettings settings stage.step) names stage.step).2 rest).1,
        (placeStages (laterSettings settings stage.step)
          (drawStep stage.before (drawnSettings settings stage.step) names stage.step).2 rest).2) :=
  rfl

theorem mem_places_nameItems {place : Option Place} {q : Place} {names : Names}
    (items : List Svg.Item) (h : q ∈ names.places) :
    q ∈ (nameItems place names items).2.places := by
  cases place with
  | none => exact h
  | some p => exact mem_places_nameItemsFrom items h

/-- Places that have given a name stay known. -/
theorem mem_places_placeStages {settings : Settings} {names : Names} (stages : List Stage)
    {q : Place} (h : q ∈ names.places) : q ∈ (placeStages settings names stages).2.1.places := by
  induction stages generalizing settings names with
  | nil => exact h
  | cons stage rest ih =>
      rw [placeStages_cons]
      exact ih (mem_places_nameItems _ h)

theorem name_of_mem_markAt {shown : Bool} {s : Skater} {mark : String} {settings : Settings}
    {i : Svg.Item} (h : i ∈ markAt shown s mark settings) : i.name = none := by
  cases shown with
  | false => exact absurd h List.not_mem_nil
  | true =>
      rw [List.mem_singleton.1 h]
      rfl

/-- What the stages of a sequence put on the page, with the names given and the
    settings in force at the end. -/
def placed (steps : List Step) : List Svg.Item × Names × Settings :=
  placeStages { preparedSettings steps with bounds := boundsOf (walk steps) } {} (walk steps)

theorem names_ofSteps (steps : List Step) : (Diagram.ofSteps steps).names = (placed steps).2.1 :=
  rfl

theorem items_ofSteps (steps : List Step) :
    (Diagram.ofSteps steps).document.items =
      moveBoxItems (preparedSettings steps) (walk steps) ++ (placed steps).1 ++
        gridOf (placed steps).2.2 (boundsOf (walk steps)) ++
        boxItems (placed steps).2.2 (Diagram.ofSteps steps).document.view
          (boundsOf (walk steps)) :=
  rfl

theorem view_ofSteps (steps : List Step) :
    (Diagram.ofSteps steps).document.view =
      (boundsOf (walk steps)).withMargin (preparedSettings steps).marginX
        (preparedSettings steps).marginY :=
  rfl

/-- What no move prepares is as it was in the beginning. -/
theorem get_preparedSettings {α : Type} (get : Settings → α)
    (hget : ∀ (m : Move) (settings : Settings), get (m.prepare settings) = get settings)
    (steps : List Step) : get (preparedSettings steps) = get {} := by
  have hfold : ∀ settings : Settings,
      get (steps.foldl (fun settings s => s.move.prepare settings) settings) = get settings := by
    induction steps with
    | nil => exact fun _ => rfl
    | cons s rest ih => exact fun settings => (ih _).trans (hget s.move settings)
  exact hfold {}

/-! ### Around the steps -/

theorem exists_shape_of_mem_moveBoxItems {settings : Settings} {stages : List Stage}
    {i : Svg.Item} (h : i ∈ moveBoxItems settings stages) : ∃ s, i = .shape s := by
  unfold moveBoxItems at h
  split at h
  · rcases List.mem_map.1 h with ⟨b, -, rfl⟩
    exact ⟨_, rfl⟩
  · exact absurd h List.not_mem_nil

theorem exists_shape_of_mem_boxItems {settings : Settings} {outer inner : Box} {i : Svg.Item}
    (h : i ∈ boxItems settings outer inner) : ∃ s, i = .shape s := by
  unfold boxItems at h
  split at h
  · rcases List.mem_cons.1 h with rfl | h
    · exact ⟨_, rfl⟩
    · rw [List.mem_singleton.1 h]
      exact ⟨_, rfl⟩
  · exact absurd h List.not_mem_nil

theorem exists_shape_of_mem_gridOf {settings : Settings} {b : Box} {i : Svg.Item}
    (h : i ∈ gridOf settings b) : ∃ s, i = .shape s := by
  unfold gridOf at h
  split at h
  · exact absurd h List.not_mem_nil
  · rcases List.mem_append.1 h with h | h
    · rcases List.mem_map.1 h with ⟨x, -, rfl⟩
      exact ⟨_, rfl⟩
    · rcases List.mem_map.1 h with ⟨y, -, rfl⟩
      exact ⟨_, rfl⟩

/-- Whatever is on the page was put there for a step, or it is a shape. -/
theorem mem_items_ofSteps {steps : List Step} {i : Svg.Item}
    (h : i ∈ (Diagram.ofSteps steps).document.items) :
    i ∈ (placed steps).1 ∨ ∃ s, i = .shape s := by
  rw [items_ofSteps] at h
  simp only [List.mem_append] at h
  rcases h with ((hboxes | hplaced) | hgrid) | hbox
  · exact Or.inr (exists_shape_of_mem_moveBoxItems hboxes)
  · exact Or.inl hplaced
  · exact Or.inr (exists_shape_of_mem_gridOf hgrid)
  · exact Or.inr (exists_shape_of_mem_boxItems hbox)

/-- What no shape has, the page has from the steps. -/
theorem filterMap_items_ofSteps {α : Type} {pick : Svg.Item → Option α}
    (hpick : ∀ s, pick (.shape s) = none) (steps : List Step) :
    (Diagram.ofSteps steps).document.items.filterMap pick = (placed steps).1.filterMap pick := by
  have hshapes : ∀ {items : List Svg.Item}, (∀ i ∈ items, ∃ s, i = .shape s) →
      items.filterMap pick = [] := by
    intro items hitems
    refine List.filterMap_eq_nil_iff.2 fun i hi => ?_
    rcases hitems i hi with ⟨s, rfl⟩
    exact hpick s
  rw [items_ofSteps, List.filterMap_append, List.filterMap_append, List.filterMap_append,
    hshapes fun _ hi => exists_shape_of_mem_moveBoxItems hi,
    hshapes fun _ hi => exists_shape_of_mem_gridOf hi,
    hshapes fun _ hi => exists_shape_of_mem_boxItems hi, List.nil_append, List.append_nil,
    List.append_nil]

end IceFigures
