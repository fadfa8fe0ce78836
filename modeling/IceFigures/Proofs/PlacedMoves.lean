import IceFigures.Proofs.ElementNames
import IceFigures.Proofs.MirroredWalk
import IceFigures.Proofs.PlacedFigures

/-!
# Moves at Other Places

A move that is put together at a place can be put to another place, or to none. It is then
put together once more, and a figure has all its parts built again, each at the new place.

Nothing else comes of it. A place is read by no check, by no layout and by nothing that a
move can be asked for (`Account`); it only gives names to what is drawn. So whatever is drawn
at another place differs in its names at most, and has names exactly if there is a place
(`PlacedMove.MovedTo`).

What is drawn for a figure is drawn part by part, and each part gives names from its own
place. As all parts of a figure are at its place, that is the same as naming all that the
figure draws from there (`PlacedMove.render_of_make`), and this is how steps are drawn.

## Main definitions

* `PlacedMove`: A move at a place, with the parts it is put together from.
* `Move.make`: A move that is put together at a place.
* `PlacedMove.withPlace`, `PlacedMove.opposite`: The move at another place, and its mirror
  image.
* `Account`: What a move can be asked for.
* `PlacedMove.account`, `PlacedMove.render`: What a placed move tells, and what it draws.
* `PlacedMove.MovedTo`: How a move at another place compares to the move.

## Theorems

* `Move.make_eq`: A move can be put together at any place if nothing is wrong with it.
* `PlacedMove.account_of_make`: A placed move tells what the move tells.
* `PlacedMove.render_of_make`: A placed move draws what the move draws, named from its place.
* `drawStep_of_make`: Steps are drawn as placed moves.
* `PlacedMove.movedTo_withPlace`: A move can be put to any place, and no more comes of it.
-/

namespace IceFigures

/-! ### Moves with places -/

/-- A move at a place, with the parts it is put together from if it is a figure. -/
structure PlacedMove where
  move : Move
  place : Option Place
  parts : List PlacedPart
deriving DecidableEq

/-- The parts that a move is put together from. -/
def Move.innerParts : Move → List Part
  | figure f => f.parts
  | _ => []

/-- A move that is put together at a place, with all checks. -/
def Move.make (m : Move) (place : Option Place) : Except Fault PlacedMove :=
  match m with
  | figure f => (f.construct place).map fun ps => { move := figure f, place := place, parts := ps }
  | m =>
    match m.fault? with
    | some fault => .error fault
    | none => .ok { move := m, place := place, parts := [] }

/-- A move can be put together exactly if nothing is wrong with it. All its parts are then at
    its place. -/
theorem Move.make_eq (m : Move) (place : Option Place) :
    m.make place =
      match m.fault? with
      | some fault => .error fault
      | none =>
        .ok { move := m, place := place, parts := m.innerParts.map (.ofPart place) } := by
  cases m with
  | figure f =>
      rw [make, f.construct_eq, fault?, innerParts, ← f.layout_eq]
      cases f.fault? <;> rfl
  | _ => rfl

theorem Move.make_of_fault? {m : Move} (h : m.fault? = none) (place : Option Place) :
    m.make place =
      .ok { move := m, place := place, parts := m.innerParts.map (.ofPart place) } := by
  rw [make_eq, h]

theorem Move.make_eq_ok_iff {m : Move} {place : Option Place} {x : PlacedMove} :
    m.make place = .ok x ↔
      m.fault? = none ∧
        x = { move := m, place := place, parts := m.innerParts.map (.ofPart place) } := by
  rw [make_eq]
  cases m.fault? with
  | some fault => simp only [reduceCtorEq, false_and]
  | none =>
      simp only [Except.ok.injEq, true_and]
      exact eq_comm

namespace PlacedMove

/-- The move put together once more, at another place. -/
def withPlace (x : PlacedMove) (place : Option Place) : Except Fault PlacedMove :=
  x.move.make place

/-- The same move on the other foot, at the same place. -/
def opposite (x : PlacedMove) : Except Fault PlacedMove :=
  x.move.opposite.make x.place

end PlacedMove

/-! ### What moves tell -/

/-- What a move can be asked for: its text and parameters, the codes that it starts and ends
    on, the footwork onto it, what it does to the skater, its box, and the definitions and
    labels that it is drawn with. -/
structure Account where
  text : String
  params : List Param
  start? : Option Code
  exit? : Option Code
  entering : Code → Effect
  effect : Effect
  bounds? : Skater → Option Box
  definitions : List Svg.Definition
  labels : Settings → List PartLabel

/-- What a move tells. -/
def Move.account (m : Move) : Account where
  text := m.written
  params := m.params
  start? := m.start?
  exit? := m.exit?
  entering := fun old => m.entering old
  effect := m.effect
  bounds? := fun before => m.bounds? before
  definitions := m.definitions
  labels := fun settings => m.labels settings

/-- What a figure tells, asked of the parts that it was put together from. -/
def Figure.accountOf (f : Figure) (ps : List Part) : Account :=
  let start? := ps.head?.bind Part.code?
  let last := afterParts (.atOrigin (start?.getD .start)) ps
  { text := (Move.figure f).written
    params := f.values
    start? := start?
    exit? := ps.getLast?.bind Part.code?
    entering := fun old => (ps.head?.map (Part.entering old)).getD .nothing
    effect := .relative last.pos last.heading.degrees (some last.code)
    bounds? := fun before => Box.unionAll ((walkParts before ps).map fun (s, p) => p.bounds? s)
    definitions := ps.flatMap Part.definitions
    labels := fun _ => [] }

/-- What a placed move tells. Figures ask their parts. -/
def PlacedMove.account (x : PlacedMove) : Account :=
  match x.move with
  | .figure f => f.accountOf (x.parts.map PlacedPart.part)
  | m => m.account

theorem Figure.accountOf_parts (f : Figure) : f.accountOf f.parts = (Move.figure f).account := by
  rcases f.exists_parts_eq with ⟨c, rest, hparts, hcode, -⟩
  -- A figure is walked from its start, which is its entry code.
  have hfront : (f.parts.head?.bind Part.code?).getD .start = f.entry := by
    rw [hparts, ← hcode]
    rfl
  simp only [accountOf, hfront]
  rfl

/-- A placed move tells what the move tells. -/
theorem PlacedMove.account_of_make {m : Move} {place : Option Place} {x : PlacedMove}
    (h : m.make place = .ok x) : x.account = m.account := by
  rcases Move.make_eq_ok_iff.1 h with ⟨-, rfl⟩
  cases m with
  | figure f =>
      have hparts : (f.parts.map (PlacedPart.ofPart place)).map PlacedPart.part = f.parts := by
        rw [← f.layout_eq, f.map_part_layout]
      rw [← f.accountOf_parts]
      exact congrArg f.accountOf hparts
  | _ => rfl

/-! ### What moves draw -/

/-- What a part draws, named from its own place. -/
def PlacedPart.render (p : PlacedPart) (before : Skater) (settings : Settings) (names : Names) :
    List Svg.Item × Names :=
  nameItems p.place names (p.part.draw before settings)

/-- What parts draw one after another, without a count. -/
def renderUntimed (settings : Settings) :
    List PlacedPart → Skater → Names → List Svg.Item × Names
  | [], _, names => ([], names)
  | p :: ps, before, names =>
    let (items, names') := p.render before settings.untimed names
    let (later, last) := renderUntimed settings ps (before.after p.part.effect) names'
    (items ++ later, last)

/-- What the parts of a figure draw. The first of them shows the count, if any does. -/
def renderParts (counts : Bool) (settings : Settings) :
    List PlacedPart → Skater → Names → List Svg.Item × Names
  | [], _, names => ([], names)
  | p :: ps, before, names =>
    let (items, names') :=
      p.render before (if counts then settings else settings.untimed) names
    let (later, last) := renderUntimed settings ps (before.after p.part.effect) names'
    (items ++ later, last)

/-- What a placed move draws. Figures have their parts draw one after another. -/
def PlacedMove.render (x : PlacedMove) (before : Skater) (settings : Settings) (names : Names) :
    List Svg.Item × Names :=
  match x.move with
  | .figure f => renderParts f.showsCount settings x.parts before names
  | m => nameItems x.place names (m.draw before settings)

theorem nameItemsFrom_cons (p : Place) (names : Names) (i : Svg.Item) (is : List Svg.Item) :
    nameItemsFrom p names (i :: is) =
      ({ i with name := some (names.next p).1 } :: (nameItemsFrom p (names.next p).2 is).1,
        (nameItemsFrom p (names.next p).2 is).2) := rfl

theorem nameItemsFrom_append (p : Place) (names : Names) (as bs : List Svg.Item) :
    nameItemsFrom p names (as ++ bs) =
      ((nameItemsFrom p names as).1 ++ (nameItemsFrom p (nameItemsFrom p names as).2 bs).1,
        (nameItemsFrom p (nameItemsFrom p names as).2 bs).2) := by
  induction as generalizing names with
  | nil => rfl
  | cons a as ih =>
      rw [List.cons_append, nameItemsFrom_cons, ih, nameItemsFrom_cons, List.cons_append]

/-- Items are named one after another, wherever they are cut. -/
theorem nameItems_append (place : Option Place) (names : Names) (as bs : List Svg.Item) :
    nameItems place names (as ++ bs) =
      ((nameItems place names as).1 ++ (nameItems place (nameItems place names as).2 bs).1,
        (nameItems place (nameItems place names as).2 bs).2) := by
  cases place with
  | none => rfl
  | some p => exact nameItemsFrom_append p names as bs

/-- Parts at one place name all that they draw as one. -/
theorem renderUntimed_eq (place : Option Place) (settings : Settings) (ps : List Part)
    (before : Skater) (names : Names) :
    renderUntimed settings (ps.map (.ofPart place)) before names =
      nameItems place names (Figure.drawUntimed settings (walkParts before ps)) := by
  induction ps generalizing before names with
  | nil => cases place <;> rfl
  | cons p ps ih =>
      rw [List.map_cons, renderUntimed, walkParts, Figure.drawUntimed, List.flatMap_cons,
        nameItems_append, ← Figure.drawUntimed, ← ih]
      rfl

theorem renderParts_eq (place : Option Place) (f : Figure) (settings : Settings)
    (before : Skater) (names : Names) :
    renderParts f.showsCount settings (f.parts.map (.ofPart place)) before names =
      nameItems place names (f.draw before settings) := by
  rcases f.exists_parts_eq with ⟨c, rest, hparts, -⟩
  rw [Figure.draw, Figure.walk, hparts, walkParts, nameItems_append, ← renderUntimed_eq]
  rfl

/-- A placed move draws what the move draws, named from its place. -/
theorem PlacedMove.render_of_make {m : Move} {place : Option Place} {x : PlacedMove}
    (h : m.make place = .ok x) (before : Skater) (settings : Settings) (names : Names) :
    x.render before settings names = nameItems place names (m.draw before settings) := by
  rcases Move.make_eq_ok_iff.1 h with ⟨-, rfl⟩
  cases m with
  | figure f =>
      exact renderParts_eq place f settings before names
  | _ => rfl

/-- Steps are drawn as moves that are put together at their places. -/
theorem drawStep_of_make {s : Step} {x : PlacedMove} (h : s.move.make s.place = .ok x)
    (before : Skater) (settings : Settings) (names : Names) :
    drawStep before settings names s = x.render before settings names :=
  (x.render_of_make h before settings names).symm

/-! ### Other places -/

/-- Naming items changes nothing but their names. -/
theorem map_anonymous_nameItems (place : Option Place) (names : Names) (items : List Svg.Item) :
    (nameItems place names items).1.map Svg.Item.anonymous = items.map Svg.Item.anonymous := by
  cases place with
  | none => rfl
  | some p =>
      change (nameItemsFrom p names items).1.map _ = _
      induction items generalizing names with
      | nil => rfl
      | cons i is ih => rw [nameItemsFrom_cons, List.map_cons, List.map_cons, ih]; rfl

/-- What a move draws has names exactly if there is a place. -/
theorem isSome_name_nameItems {m : Move} {before : Skater} {settings : Settings}
    {place : Option Place} {names : Names} {i : Svg.Item}
    (h : i ∈ (nameItems place names (m.draw before settings)).1) :
    i.name.isSome = place.isSome := by
  cases place with
  | none => exact congrArg Option.isSome (Move.name_of_mem_draw h)
  | some p => exact isSome_name_of_mem_nameItemsFrom h

namespace PlacedMove

/-- How a move at another place compares to the move. -/
structure MovedTo (x : PlacedMove) (p : Option Place) (y : PlacedMove) : Prop where
  /-- The move and all its parts are at the place. -/
  place : y.place = p
  places : ∀ q ∈ y.parts, q.place = p
  /-- They are the same move and the same parts in the same order. -/
  move : y.move = x.move
  parts : y.parts.map PlacedPart.part = x.parts.map PlacedPart.part
  account : y.account = x.account
  /-- The mirror image at the place is the mirror image of the move at the place. -/
  opposite : ∃ z, y.opposite = .ok z ∧ (x.opposite.bind fun o => o.withPlace p) = .ok z
  /-- What is drawn is the same except for its names, and it has names if there is a place. -/
  drawn : ∀ before settings names names',
    (y.render before settings names).1.map Svg.Item.anonymous =
      (x.render before settings names').1.map Svg.Item.anonymous
  named : ∀ before settings names, ∀ i ∈ (y.render before settings names).1,
    i.name.isSome = p.isSome
  /-- It is what a step with the move at the place draws. -/
  step : ∀ s : Step, s.move = x.move → s.place = p → ∀ before settings names,
    drawStep before settings names s = y.render before settings names

/-- A move that can be put together can be put to any place or to none, and nothing but the
    names of what it draws depends on it. -/
theorem movedTo_withPlace {m : Move} {place : Option Place} {x : PlacedMove}
    (h : m.make place = .ok x) (p : Option Place) :
    ∃ y, x.withPlace p = .ok y ∧ x.MovedTo p y := by
  rcases Move.make_eq_ok_iff.1 h with ⟨hsound, rfl⟩
  have hmake := Move.make_of_fault? hsound
  have hmirror := Move.make_of_fault? (Move.fault?_opposite hsound)
  refine ⟨_, hmake p, ?_⟩
  constructor
  case place => rfl
  case places =>
    intro q hq
    rcases List.mem_map.1 hq with ⟨part, -, rfl⟩
    rfl
  case move => rfl
  case parts => rw [List.map_map, List.map_map]; rfl
  case account => rw [account_of_make (hmake p), account_of_make h]
  case opposite =>
    refine ⟨_, hmirror p, ?_⟩
    rw [opposite, hmirror place]
    exact hmirror p
  case drawn =>
    intro before settings names names'
    rw [render_of_make (hmake p), render_of_make h, map_anonymous_nameItems,
      map_anonymous_nameItems]
  case named =>
    intro before settings names i hi
    rw [render_of_make (hmake p)] at hi
    exact isSome_name_nameItems hi
  case step =>
    rintro s rfl rfl before settings names
    exact drawStep_of_make (hmake s.place) before settings names

end PlacedMove

/-- The axel can be put to the second pass of a repeat. -/
theorem movedTo_withPlace_crossedAxel :
    ∃ x, (Move.figure crossedAxel).make none = .ok x ∧
      ∃ y, x.withPlace secondPass = .ok y ∧ x.MovedTo secondPass y := by
  have hsound : (Move.figure crossedAxel).fault? = none := by decide +kernel
  have hmake := Move.make_of_fault? hsound none
  exact ⟨_, hmake, PlacedMove.movedTo_withPlace hmake secondPass⟩

end IceFigures
