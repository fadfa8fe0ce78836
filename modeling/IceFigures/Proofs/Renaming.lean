import IceFigures.Proofs.Relocation
import Mathlib.Data.List.Forall2

/-!
# Renaming Drawn Items

Moving the places of steps renames what is drawn for them, and does nothing
else to the drawing. The new names come from the old ones by a function on
stems (`renameStem`), and what a name has behind its stem stays.

How often a place was used is looked up by place, so moving must not bring two
places together: the function on rows and columns is injective throughout.

## Main definitions

* `renameStem`: What becomes of the stem of a place.
* `Svg.Item.RenamedBy`: Items that differ only in the stem of their name.
* `Svg.Document.anonymous`: A document without the names of its items.
* `Diagram.RenamedBy`: Diagrams that differ only in stems.

## Theorems

* `renameStem_injective`: Different stems stay different.
* `nameItems_relocate`: Items are named alike.
* `placeStages_relocate`: Stages are placed alike.
* `ofSteps_relocate`: The diagrams of moved steps differ only in stems.
* `checked_of_renamedBy`: Such diagrams are refused together.
-/

namespace IceFigures

variable {f : Nat × Nat → Nat × Nat}

/-! ### Stems -/

/-- What becomes of a stem when places are moved. Texts that are no stems stay. -/
noncomputable def renameStem (f : Nat × Nat → Nat × Nat) : String → String :=
  Function.extend Place.stem (fun p => (p.relocate f).stem) id

theorem renameStem_stem (p : Place) : renameStem f p.stem = (p.relocate f).stem :=
  Place.stem_injective.extend_apply _ _ p

theorem renameStem_of_not_stem {s : String} (h : ¬∃ p : Place, p.stem = s) :
    renameStem f s = s :=
  Function.extend_apply' _ _ s h

/-- Different stems stay different. -/
theorem renameStem_injective (hf : Function.Injective f) : Function.Injective (renameStem f) := by
  intro s t h
  by_cases hs : ∃ p : Place, p.stem = s
  · rcases hs with ⟨p, rfl⟩
    by_cases ht : ∃ q : Place, q.stem = t
    · rcases ht with ⟨q, rfl⟩
      rw [renameStem_stem, renameStem_stem] at h
      rw [Place.relocate_injective hf (Place.stem_injective h)]
    · rw [renameStem_stem, renameStem_of_not_stem ht] at h
      exact absurd ⟨_, h⟩ ht
  · by_cases ht : ∃ q : Place, q.stem = t
    · rcases ht with ⟨q, rfl⟩
      rw [renameStem_stem, renameStem_of_not_stem hs] at h
      exact absurd ⟨_, h.symm⟩ hs
    · rwa [renameStem_of_not_stem hs, renameStem_of_not_stem ht] at h

/-- Two items with the same content, both without a name or both named from a
    stem: the first from one of `stems`, the second from what that becomes. -/
structure Svg.Item.RenamedBy (rename : String → String) (stems : List String)
    (i i' : Svg.Item) : Prop where
  content : i'.content = i.content
  name : i.name = none ∧ i'.name = none ∨
    ∃ stem ∈ stems, ∃ n, i.name = some (stem ++ Names.tailAt n) ∧
      i'.name = some (rename stem ++ Names.tailAt n)

theorem Svg.Item.RenamedBy.mono {rename : String → String} {stems stems' : List String}
    {i i' : Svg.Item} (h : i.RenamedBy rename stems i') (hsub : stems ⊆ stems') :
    i.RenamedBy rename stems' i' := by
  refine ⟨h.content, ?_⟩
  rcases h.name with hnone | ⟨stem, hstem, hnamed⟩
  · exact Or.inl hnone
  · exact Or.inr ⟨stem, hsub hstem, hnamed⟩

theorem forall₂_renamedBy_of_unnamed {rename : String → String} {stems : List String}
    {items : List Svg.Item} (h : ∀ i ∈ items, i.name = none) :
    List.Forall₂ (Svg.Item.RenamedBy rename stems) items items :=
  List.forall₂_same.2 fun i hi => ⟨rfl, Or.inl ⟨h i hi, h i hi⟩⟩

/-! ### Naming -/

namespace Names

/-- The names given so far, as if the places had been elsewhere. -/
def relocate (f : Nat × Nat → Nat × Nat) (names : Names) : Names :=
  { uses := names.uses.map fun u => (u.1.relocate f, u.2) }

theorem count_relocate (hf : Function.Injective f) (names : Names) (p : Place) :
    (names.relocate f).count (p.relocate f) = names.count p := by
  have hsame : ∀ u : Place × Nat,
      decide (u.1.relocate f = p.relocate f) = decide (u.1 = p) := by
    intro u
    rw [decide_eq_decide]
    exact (Place.relocate_injective hf).eq_iff
  rw [count, count, relocate, List.find?_map, Option.map_map]
  simp only [Function.comp_def, hsame]

theorem bump_relocate (hf : Function.Injective f) (p : Place) (uses : List (Place × Nat)) :
    bump (p.relocate f) (uses.map fun u => (u.1.relocate f, u.2)) =
      (bump p uses).map fun u => (u.1.relocate f, u.2) := by
  induction uses with
  | nil => rfl
  | cons u us ih =>
      rw [List.map_cons, bump, bump]
      by_cases hu : u.1 = p
      · rw [if_pos hu, if_pos (congrArg (Place.relocate f) hu), List.map_cons]
      · rw [if_neg hu, if_neg fun h => hu (Place.relocate_injective hf h), ih, List.map_cons]

theorem next_relocate (hf : Function.Injective f) (names : Names) (p : Place) :
    (names.relocate f).next (p.relocate f) =
      (String.ofList (nameAt (p.relocate f) (names.count p + 1)),
        (names.next p).2.relocate f) := by
  rw [next, count_relocate hf, relocate, bump_relocate hf]
  rfl

theorem stems_relocate (names : Names) :
    (names.relocate f).stems = names.stems.map (renameStem f) := by
  rw [stems, stems, relocate, List.map_map, List.map_map]
  exact List.map_congr_left fun u _ => (renameStem_stem u.1).symm

end Names

theorem stem_mem_stems {p : Place} {names : Names} (h : p ∈ names.places) :
    p.stem ∈ names.stems := by
  rw [Names.stems_eq]
  exact List.mem_map_of_mem h

theorem nameItemsFrom_relocate (hf : Function.Injective f) (p : Place) (names : Names)
    (items : List Svg.Item) :
    (nameItemsFrom (p.relocate f) (names.relocate f) items).2 =
        (nameItemsFrom p names items).2.relocate f ∧
      List.Forall₂ (Svg.Item.RenamedBy (renameStem f) (nameItemsFrom p names items).2.stems)
        (nameItemsFrom p names items).1
        (nameItemsFrom (p.relocate f) (names.relocate f) items).1 := by
  induction items generalizing names with
  | nil => exact ⟨rfl, .nil⟩
  | cons i is ih =>
      rw [nameItemsFrom, nameItemsFrom, Names.next_relocate hf]
      -- Later names only add to the stems, so this one is among them in the end.
      have hrest := ih (names.next p).2
      refine ⟨hrest.1, .cons ⟨rfl, Or.inr ⟨p.stem, ?_, names.count p + 1, ?_, ?_⟩⟩ hrest.2⟩
      · exact stem_mem_stems (mem_places_nameItemsFrom is (Names.mem_places_next.2 (Or.inl rfl)))
      · rw [← Names.nameAt_eq]
        rfl
      · rw [renameStem_stem, ← Names.nameAt_eq]

/-- Items without names are named alike. -/
theorem nameItems_relocate (hf : Function.Injective f) (place : Option Place) (names : Names)
    {items : List Svg.Item} (h : ∀ i ∈ items, i.name = none) :
    (nameItems (place.map (Place.relocate f)) (names.relocate f) items).2 =
        (nameItems place names items).2.relocate f ∧
      List.Forall₂ (Svg.Item.RenamedBy (renameStem f) (nameItems place names items).2.stems)
        (nameItems place names items).1
        (nameItems (place.map (Place.relocate f)) (names.relocate f) items).1 := by
  cases place with
  | none => exact ⟨rfl, forall₂_renamedBy_of_unnamed h⟩
  | some p => exact nameItemsFrom_relocate hf p names items

/-! ### Drawing -/

theorem drawStep_relocate (hf : Function.Injective f) (before : Skater) (settings : Settings)
    (names : Names) (s : Step) :
    (drawStep before settings (names.relocate f) (s.relocate f)).2 =
        (drawStep before settings names s).2.relocate f ∧
      List.Forall₂
        (Svg.Item.RenamedBy (renameStem f) (drawStep before settings names s).2.stems)
        (drawStep before settings names s).1
        (drawStep before settings (names.relocate f) (s.relocate f)).1 :=
  nameItems_relocate hf s.place names fun _ hi => Move.name_of_mem_draw hi

theorem stems_subset_placeStages (settings : Settings) (names : Names) (stages : List Stage) :
    names.stems ⊆ (placeStages settings names stages).2.1.stems := by
  intro stem hstem
  rw [Names.stems_eq] at hstem ⊢
  rcases List.mem_map.1 hstem with ⟨p, hp, rfl⟩
  exact List.mem_map_of_mem (mem_places_placeStages stages hp)

-- By induction on the stages, for all settings and names: the settings go the
-- same way, and the names stay those of the unmoved stages, moved.
theorem placeStages_relocate (hf : Function.Injective f) (settings : Settings) (names : Names)
    (stages : List Stage) :
    (placeStages settings (names.relocate f) (stages.map (Stage.relocate f))).2 =
        ((placeStages settings names stages).2.1.relocate f,
          (placeStages settings names stages).2.2) ∧
      List.Forall₂
        (Svg.Item.RenamedBy (renameStem f) (placeStages settings names stages).2.1.stems)
        (placeStages settings names stages).1
        (placeStages settings (names.relocate f) (stages.map (Stage.relocate f))).1 := by
  induction stages generalizing settings names with
  | nil => exact ⟨rfl, .nil⟩
  | cons stage rest ih =>
      rw [List.map_cons, placeStages_cons, placeStages_cons]
      have hstep := drawStep_relocate hf stage.before (drawnSettings settings stage.step) names
        stage.step
      have hrest := ih (laterSettings settings stage.step)
        (drawStep stage.before (drawnSettings settings stage.step) names stage.step).2
      -- The names after the moved step are the moved names after the step.
      rw [← hstep.1] at hrest
      refine ⟨hrest.1, ?_⟩
      refine List.rel_append (List.rel_append (List.rel_append ?_ ?_) ?_) hrest.2
      · exact forall₂_renamedBy_of_unnamed fun _ hi => name_of_mem_markAt hi
      · exact hstep.2.imp fun _ _ h => h.mono (stems_subset_placeStages _ _ _)
      · exact forall₂_renamedBy_of_unnamed fun _ hi => name_of_mem_markAt hi

theorem placed_relocate (hf : Function.Injective f) (steps : List Step) :
    (placed (steps.map (Step.relocate f))).2 =
        ((placed steps).2.1.relocate f, (placed steps).2.2) ∧
      List.Forall₂ (Svg.Item.RenamedBy (renameStem f) (placed steps).2.1.stems) (placed steps).1
        (placed (steps.map (Step.relocate f))).1 := by
  unfold placed
  rw [preparedSettings_relocate, walk_relocate, boundsOf_relocate]
  exact placeStages_relocate hf _ {} (walk steps)

/-! ### Diagrams -/

/-- The document without the names of its items. -/
def Svg.Document.anonymous (d : Svg.Document) : Svg.Document :=
  { d with items := d.items.map Svg.Item.anonymous }

/-- Two diagrams that are the same without names, and whose names differ only in
    their stems, those of the second being what becomes of those of the first. -/
structure Diagram.RenamedBy (rename : String → String) (d d' : Diagram) : Prop where
  anonymous : d'.document.anonymous = d.document.anonymous
  items : List.Forall₂ (Svg.Item.RenamedBy rename d.stems) d.document.items d'.document.items
  stems : d'.stems = d.stems.map rename

theorem map_anonymous_of_forall₂ {rename : String → String} {stems : List String}
    {items items' : List Svg.Item}
    (h : List.Forall₂ (Svg.Item.RenamedBy rename stems) items items') :
    items'.map Svg.Item.anonymous = items.map Svg.Item.anonymous := by
  induction h with
  | nil => rfl
  | cons hi _ ih =>
      rw [List.map_cons, List.map_cons, ih, Svg.Item.anonymous, Svg.Item.anonymous, hi.content]

theorem name_of_shape {i : Svg.Item} (h : ∃ s, i = .shape s) : i.name = none := by
  rcases h with ⟨s, rfl⟩
  rfl

/-- The diagrams of steps and of the same steps at other places differ only in
    the stems of names. -/
theorem ofSteps_relocate (hf : Function.Injective f) (steps : List Step) :
    (Diagram.ofSteps steps).RenamedBy (renameStem f)
      (Diagram.ofSteps (steps.map (Step.relocate f))) := by
  have hplaced := placed_relocate hf steps
  have hview : (Diagram.ofSteps (steps.map (Step.relocate f))).document.view =
      (Diagram.ofSteps steps).document.view := by
    rw [view_ofSteps, view_ofSteps, preparedSettings_relocate, walk_relocate, boundsOf_relocate]
  have hlast : (placed (steps.map (Step.relocate f))).2.2 = (placed steps).2.2 := by
    rw [hplaced.1]
  have hitems : List.Forall₂
      (Svg.Item.RenamedBy (renameStem f) (Diagram.ofSteps steps).stems)
      (Diagram.ofSteps steps).document.items
      (Diagram.ofSteps (steps.map (Step.relocate f))).document.items := by
    rw [items_ofSteps, items_ofSteps, hview, hlast, walk_relocate, moveBoxItems_relocate,
      boundsOf_relocate, preparedSettings_relocate]
    -- Only what is placed for the steps has names.
    refine List.rel_append (List.rel_append (List.rel_append ?_ hplaced.2) ?_) ?_
    · exact forall₂_renamedBy_of_unnamed fun _ hi =>
        name_of_shape (exists_shape_of_mem_moveBoxItems hi)
    · exact forall₂_renamedBy_of_unnamed fun _ hi => name_of_shape (exists_shape_of_mem_gridOf hi)
    · exact forall₂_renamedBy_of_unnamed fun _ hi => name_of_shape (exists_shape_of_mem_boxItems hi)
  refine ⟨?_, hitems, ?_⟩
  · rw [Svg.Document.anonymous, Svg.Document.anonymous, Svg.Document.mk.injEq]
    exact ⟨congrArg Settings.title (preparedSettings_relocate steps),
      definitionsOf_relocate steps, map_anonymous_of_forall₂ hitems, hview⟩
  · rw [Diagram.stems, Diagram.stems, names_ofSteps, names_ofSteps, hplaced.1]
    exact Names.stems_relocate _

theorem all_isWritable_of_forall₂ {rename : String → String} {stems : List String}
    {items items' : List Svg.Item}
    (h : List.Forall₂ (Svg.Item.RenamedBy rename stems) items items') :
    items'.all Svg.Item.isWritable = items.all Svg.Item.isWritable := by
  induction h with
  | nil => rfl
  | cons hi _ ih =>
      rw [List.all_cons, List.all_cons, ih, Svg.Item.isWritable, Svg.Item.isWritable, hi.content]

/-- Diagrams that differ only in stems are refused together. -/
theorem checked_of_renamedBy {rename : String → String} {d d' : Diagram}
    (h : d.RenamedBy rename d') :
    d.checked = .ok d ∧ d'.checked = .ok d' ∨
      d.checked = .error (.overall .unwritable) ∧ d'.checked = .error (.overall .unwritable) := by
  unfold Diagram.checked
  rw [all_isWritable_of_forall₂ h.items]
  by_cases hall : d.document.items.all Svg.Item.isWritable = true
  · rw [if_pos hall, if_pos hall]
    exact Or.inl ⟨rfl, rfl⟩
  · rw [if_neg hall, if_neg hall]
    exact Or.inr ⟨rfl, rfl⟩

end IceFigures
