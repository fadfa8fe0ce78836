import IceFigures.Proofs.Names
import IceFigures.Proofs.Passages

/-!
# Moving Places

Steps that are written elsewhere are unrolled and walked alike. Places are moved
by a function on rows and columns, and a copy made by a repeat keeps its pass
(`inPass_relocate`); so it is the same whether places are moved before repeats
are unrolled or after. A text whose repeats are not balanced is refused for the
same fault, at another place.

## Main definitions

* `Place.relocate`, `Step.relocate`, `Stage.relocate`: The same at another
  place.
* `Carried`: Outcomes that are the same but for places.

## Theorems

* `unrollSteps_relocate`: Moved steps are unrolled to moved copies.
* `walk_relocate`: The skater does not depend on places.
-/

namespace IceFigures

variable {f : Nat × Nat → Nat × Nat}

/-! ### Repeats -/

/-- The place whose row and column a function gives, in the same pass. -/
def Place.relocate (f : Nat × Nat → Nat × Nat) (p : Place) : Place :=
  { row := (f (p.row, p.col)).1, col := (f (p.row, p.col)).2, pass := p.pass }

theorem Place.relocate_injective (hf : Function.Injective f) :
    Function.Injective (Place.relocate f) := by
  rintro ⟨row, col, pass⟩ ⟨row', col', pass'⟩ h
  simp only [relocate, mk.injEq] at h
  have hpair := hf (Prod.ext h.1 h.2.1)
  rw [Prod.mk.injEq] at hpair
  rw [mk.injEq]
  exact ⟨hpair.1, hpair.2, h.2.2⟩

/-- The step at the place where its own is moved to. -/
def Step.relocate (f : Nat × Nat → Nat × Nat) (s : Step) : Step :=
  s.withPlace (s.place.map (Place.relocate f))

theorem Step.inPass_relocate (s : Step) (pass : Option Nat) :
    (s.relocate f).inPass pass = (s.inPass pass).relocate f := by
  rcases s with ⟨m, _ | p, count, duration⟩ <;> rfl

namespace Passage

theorem copy_relocate (s : Step) (pass : Option Nat) (flag : Bool) :
    copy (s.relocate f) pass flag = (copy s pass flag).relocate f := by
  cases flag with
  | false => exact s.inPass_relocate pass
  | true => exact s.opposite.inPass_relocate pass

mutual

/-- The passage with all its steps moved. -/
def relocate (f : Nat × Nat → Nat × Nat) : Passage → Passage
  | step s => step (s.relocate f)
  | block body mark => block (relocateAll f body) mark

/-- Passages with all their steps moved. -/
def relocateAll (f : Nat × Nat → Nat × Nat) : List Passage → List Passage
  | [] => []
  | p :: ps => relocate f p :: relocateAll f ps

end

theorem relocateAll_eq_map (ps : List Passage) : relocateAll f ps = ps.map (relocate f) := by
  induction ps with
  | nil => rfl
  | cons p ps ih => rw [relocateAll, ih, List.map_cons]

theorem relocateAll_reverse (ps : List Passage) :
    relocateAll f ps.reverse = (relocateAll f ps).reverse := by
  rw [relocateAll_eq_map, relocateAll_eq_map, List.map_reverse]

theorem passes_relocate {body body' : Option Nat → Bool → List Step × Bool}
    (h : ∀ pass flag,
      body' pass flag = ((body pass flag).1.map (Step.relocate f), (body pass flag).2))
    (alternate : Bool) (more pass : Nat) (flag : Bool) :
    passes body' alternate more pass flag =
      ((passes body alternate more pass flag).1.map (Step.relocate f),
        (passes body alternate more pass flag).2) := by
  induction more generalizing pass flag with
  | zero => rw [passes, passes, h]
  | succ more ih => rw [passes_succ, passes_succ, h, ih, List.map_append]

-- By induction into blocks, for every pass and flag at once, since the passes of
-- a block enter its body with passes and flags of their own.
theorem unrollAll_relocate (ps : List Passage) : ∀ pass flag,
    unrollAll (relocateAll f ps) pass flag =
      ((unrollAll ps pass flag).1.map (Step.relocate f), (unrollAll ps pass flag).2) := by
  induction ps using passages_induction with
  | nil => exact fun _ _ => rfl
  | step s ps ih =>
      intro pass flag
      rw [relocateAll, relocate, unrollAll_cons, unrollAll_cons, unroll_step, unroll_step, ih,
        copy_relocate]
      rfl
  | block body mark ps hbody ih =>
      intro pass flag
      rw [relocateAll, relocate, unrollAll_cons, unrollAll_cons, unroll_block, unroll_block, ih,
        passes_relocate hbody, List.map_append]

end Passage

/-- An open block with all its steps moved. -/
def Open.relocate (f : Nat × Nat → Nat × Nat) (o : Open) : Open :=
  { place := o.place.map (Place.relocate f), earlier := Passage.relocateAll f o.earlier }

/-- An outcome carried along a function: the same fault at any place, or the
    value that the function gives. -/
inductive Carried {α β : Type} (r : α → β) : Except Diagnostic α → Except Diagnostic β → Prop
  | error {d d' : Diagnostic} (h : d'.fault = d.fault) : Carried r (.error d) (.error d')
  | ok (a : α) : Carried r (.ok a) (.ok (r a))

-- By induction on the steps, for all open blocks and all passages so far: the
-- marks among the steps open and close the same blocks, whatever their places.
theorem Passage.gather_relocate (opens : List Open) (sofar : List Passage) (steps : List Step) :
    Carried (relocateAll f) (gather opens sofar steps)
      (gather (opens.map (Open.relocate f)) (relocateAll f sofar)
        (steps.map (Step.relocate f))) := by
  induction steps generalizing opens sofar with
  | nil =>
      cases opens with
      | nil =>
          rw [List.map_nil, List.map_nil, gather, gather, ← relocateAll_reverse]
          exact .ok _
      | cons o outer => exact .error rfl
  | cons s rest ih =>
      have hmove : (s.relocate f).move = s.move := rfl
      rw [List.map_cons, gather, gather, hmove]
      cases s.move with
      | repeatStart => exact ih ({ place := s.place, earlier := sofar } :: opens) []
      | repeatEnd mark =>
          cases opens with
          | nil => exact .error rfl
          | cons o outer =>
              have h := ih outer (.block sofar.reverse mark :: o.earlier)
              rw [relocateAll, relocate, relocateAll_reverse] at h
              exact h
      | part p => exact ih opens (.step s :: sofar)
      | figure g => exact ih opens (.step s :: sofar)
      | warp w => exact ih opens (.step s :: sofar)
      | rink r => exact ih opens (.step s :: sofar)
      | info i => exact ih opens (.step s :: sofar)
      | title t => exact ih opens (.step s :: sofar)
      | text t => exact ih opens (.step s :: sofar)

/-- Moved steps are unrolled to moved copies, or refused for the same fault. -/
theorem unrollSteps_relocate (steps : List Step) :
    Carried (List.map (Step.relocate f)) (unrollSteps steps)
      (unrollSteps (steps.map (Step.relocate f))) := by
  have h : Carried (Passage.relocateAll f) (Passage.ofSteps steps)
      (Passage.ofSteps (steps.map (Step.relocate f))) := Passage.gather_relocate [] [] steps
  unfold unrollSteps
  generalize Passage.ofSteps steps = passages at h ⊢
  generalize Passage.ofSteps (steps.map (Step.relocate f)) = moved at h ⊢
  cases h with
  | error hfault => exact .error hfault
  | ok ps =>
      rw [Except.map, Except.map, Passage.unrollAll_relocate]
      exact .ok _

/-! ### The walk -/

/-- The stage of a step at another place. -/
def Stage.relocate (f : Nat × Nat → Nat × Nat) (s : Stage) : Stage :=
  { s with step := s.step.relocate f }

-- A stage is made from the move of a step, so the skater goes the same way.
theorem walkFrom_relocate (skater : Skater) (steps : List Step) :
    walkFrom skater (steps.map (Step.relocate f)) =
      (walkFrom skater steps).map (Stage.relocate f) := by
  induction steps generalizing skater with
  | nil => rfl
  | cons s rest ih =>
      rw [List.map_cons, walkFrom, walkFrom, List.map_cons, ← ih]
      rfl

/-- The skater does not depend on where the steps stand. -/
theorem walk_relocate (steps : List Step) :
    walk (steps.map (Step.relocate f)) = (walk steps).map (Stage.relocate f) := by
  cases steps with
  | nil => rfl
  | cons s rest =>
      rw [List.map_cons, walk, walk, List.map_cons, ← walkFrom_relocate]
      rfl

theorem preparedSettings_relocate (steps : List Step) :
    preparedSettings (steps.map (Step.relocate f)) = preparedSettings steps := by
  rw [preparedSettings, List.foldl_map]
  rfl

theorem definitionsOf_relocate (steps : List Step) :
    definitionsOf (steps.map (Step.relocate f)) = definitionsOf steps := by
  rw [definitionsOf, List.flatMap_map]
  rfl

theorem boundsOf_relocate (stages : List Stage) :
    boundsOf (stages.map (Stage.relocate f)) = boundsOf stages := by
  rw [boundsOf, List.map_map]
  rfl

theorem moveBoxItems_relocate (settings : Settings) (stages : List Stage) :
    moveBoxItems settings (stages.map (Stage.relocate f)) = moveBoxItems settings stages := by
  rw [moveBoxItems, List.filterMap_map]
  rfl

end IceFigures
