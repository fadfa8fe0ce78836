import IceFigures.Proofs.CanonicalText
import IceFigures.Proofs.Renaming
import Mathlib.Logic.Equiv.Basic

/-!
# Diagrams of Canonical Texts

A text and its canonical form have the same steps at different places, and no
two steps of either stand at the same place. So one function moves the places
of the first to those of the second without bringing any two together
(`exists_relocate`), and the diagrams differ only in the stems of names.

## Main definitions

* `Refusal.unplaced`: Why a text has no diagram, but not where.
* `Diagram.SameOutcome`: Two texts refused alike, or drawn alike.

## Theorems

* `exists_perm_map`: Lists without repetitions are moved to each other.
* `canonical_preserves`: The canonical form says the same as the text.
* `canonical_preserves_repeat`: The canonical form of a text with a repeat.
-/

namespace IceFigures

/-! ### Moving places -/

theorem exists_perm_map {α : Type} [DecidableEq α] {l l' : List α} (hl : l.Nodup)
    (hl' : l'.Nodup) (hlength : l.length = l'.length) : ∃ e : Equiv.Perm α, l.map e = l' := by
  induction l generalizing l' with
  | nil => exact ⟨Equiv.refl α, (List.length_eq_zero_iff.1 hlength.symm).symm⟩
  | cons a l ih =>
      cases l' with
      | nil => exact absurd hlength (Nat.succ_ne_zero _)
      | cons b l' =>
          rw [List.nodup_cons] at hl hl'
          rcases ih hl.2 hl'.2 (Nat.succ.inj hlength) with ⟨e, rfl⟩
          -- Swapping the image of the head into place leaves the others alone.
          refine ⟨e.trans (Equiv.swap (e a) b), ?_⟩
          rw [List.map_cons, Equiv.trans_apply, Equiv.swap_apply_left, List.cons.injEq]
          refine ⟨rfl, List.map_congr_left fun x hx => ?_⟩
          have hxa : e x ≠ e a := fun heq => hl.1 (e.injective heq ▸ hx)
          have hxb : e x ≠ b := fun heq => hl'.1 (heq ▸ List.mem_map_of_mem hx)
          rw [Equiv.trans_apply, Equiv.swap_apply_of_ne_of_ne hxa hxb]

theorem exists_relocate {places places' : List Place} (hplaces : places.Nodup)
    (hplaces' : places'.Nodup) (hnone : ∀ p ∈ places, p.pass = none)
    (hnone' : ∀ p ∈ places', p.pass = none) (hlength : places.length = places'.length) :
    ∃ f : Nat × Nat → Nat × Nat, Function.Injective f ∧
      places.map (Place.relocate f) = places' := by
  have hnodup : ∀ ps : List Place, ps.Nodup → (∀ p ∈ ps, p.pass = none) →
      (ps.map fun p => (p.row, p.col)).Nodup := by
    intro ps hps hpass
    refine hps.map_on fun p hp q hq heq => ?_
    rw [Prod.mk.injEq] at heq
    rcases p with ⟨row, col, pass⟩
    rcases q with ⟨row', col', pass'⟩
    rw [Place.mk.injEq]
    exact ⟨heq.1, heq.2, (hpass _ hp).trans (hpass _ hq).symm⟩
  rcases exists_perm_map (hnodup places hplaces hnone) (hnodup places' hplaces' hnone')
    (by rw [List.length_map, List.length_map, hlength]) with ⟨e, he⟩
  refine ⟨e, e.injective, ?_⟩
  -- Rows and columns are all there is to a place in no pass.
  have hback := congrArg (List.map fun rc => ({ row := rc.1, col := rc.2 } : Place)) he
  rw [List.map_map, List.map_map, List.map_map] at hback
  calc
    places.map (Place.relocate e) = _ := ?_
    _ = _ := hback
    _ = places' := ?_
  · refine List.map_congr_left fun p hp => ?_
    rcases p with ⟨row, col, pass⟩
    rw [show pass = none from hnone _ hp]
    rfl
  · refine (List.map_congr_left fun p hp => ?_).trans (List.map_id places')
    rcases p with ⟨row, col, pass⟩
    rw [show pass = none from hnone' _ hp]
    rfl

theorem eq_of_map_withPlace {ss ts : List Step}
    (hsame : ss.map (·.withPlace none) = ts.map (·.withPlace none))
    (hplaces : ss.map (·.place) = ts.map (·.place)) : ss = ts := by
  induction ss generalizing ts with
  | nil => exact (List.map_eq_nil_iff.1 hsame.symm).symm
  | cons s ss ih =>
      cases ts with
      | nil => exact absurd hsame (List.cons_ne_nil _ _)
      | cons t ts =>
          rw [List.map_cons, List.map_cons, List.cons.injEq] at hsame hplaces
          rw [ih hsame.2 hplaces.2]
          rcases s with ⟨m, place, count, duration⟩
          rcases t with ⟨m', place', count', duration'⟩
          have hstep := hsame.1
          simp only [Step.withPlace, Step.mk.injEq, true_and] at hstep
          rw [List.cons.injEq, Step.mk.injEq]
          exact ⟨⟨hstep.1, hplaces.1, hstep.2⟩, rfl⟩

/-- The steps of two texts that differ only in their places can be moved to each
    other. -/
theorem exists_steps_relocate {text text' : String} {steps steps' : List Step}
    (hsteps : Step.ofText text = .ok steps) (hsteps' : Step.ofText text' = .ok steps')
    (hsame : steps'.map (·.withPlace none) = steps.map (·.withPlace none)) :
    ∃ f : Nat × Nat → Nat × Nat, Function.Injective f ∧ steps' = steps.map (Step.relocate f) := by
  rcases places_ofText hsteps with ⟨places, hplace, hnodup, hnone⟩
  rcases places_ofText hsteps' with ⟨places', hplace', hnodup', hnone'⟩
  have hlength : places.length = places'.length := by
    have h := congrArg List.length hplace
    have h' := congrArg List.length hplace'
    have hcount := congrArg List.length hsame
    simp only [List.length_map] at h h' hcount
    omega
  rcases exists_relocate hnodup hnodup' hnone hnone' hlength with ⟨f, hf, hmap⟩
  refine ⟨f, hf, eq_of_map_withPlace ?_ ?_⟩
  · rw [hsame, List.map_map]
    rfl
  · have hmoved : (steps.map (Step.relocate f)).map (·.place) =
        (steps.map (·.place)).map (Option.map (Place.relocate f)) := by
      rw [List.map_map, List.map_map]
      rfl
    rw [hmoved, hplace, hplace', ← hmap, List.map_map, List.map_map]
    rfl

/-! ### Outcomes -/

/-- Why a text has no diagram, but not where. -/
def Refusal.unplaced : Refusal → Refusal
  | .located d => .located { place := {}, fault := d.fault }
  | .overall fault => .overall fault

/-- Two texts that are refused for the same fault, or drawn with the same
    diagrams but for the stems of names, which are renamed one to one. -/
def Diagram.SameOutcome : Except Refusal Diagram → Except Refusal Diagram → Prop
  | .ok d, .ok d' => ∃ rename : String → String, Function.Injective rename ∧ d.RenamedBy rename d'
  | .error r, .error r' => r'.unplaced = r.unplaced
  | _, _ => False

theorem ofText_relocate {f : Nat × Nat → Nat × Nat} (hf : Function.Injective f)
    {text text' : String} {steps : List Step} (hsteps : Step.ofText text = .ok steps)
    (hsteps' : Step.ofText text' = .ok (steps.map (Step.relocate f))) :
    Diagram.SameOutcome (Diagram.ofText text) (Diagram.ofText text') := by
  have hunroll := unrollSteps_relocate (f := f) steps
  unfold Diagram.ofText
  rw [expand, expand, hsteps, hsteps', Except.bind, Except.bind]
  generalize unrollSteps steps = copies at hunroll ⊢
  generalize unrollSteps (steps.map (Step.relocate f)) = moved at hunroll ⊢
  cases hunroll with
  | error hfault =>
      simp only [Diagram.SameOutcome, Refusal.unplaced, hfault]
  | ok copies =>
      have hrenamed := ofSteps_relocate hf copies
      simp only
      -- Whether the counts can be written is asked of both diagrams.
      rcases checked_of_renamedBy hrenamed with ⟨hok, hok'⟩ | ⟨hno, hno'⟩
      · rw [hok, hok']
        exact ⟨renameStem f, renameStem_injective hf, hrenamed⟩
      · rw [hno, hno']
        rfl

/-- The canonical form of a text has the same steps, is its own canonical form,
    and has the same outcome. -/
theorem canonical_preserves {text separator c : String}
    (hseparator : separator = ";" ∨ separator = "\n") (h : canonical text separator = .ok c) :
    (∃ steps steps', Step.ofText text = .ok steps ∧ Step.ofText c = .ok steps' ∧
        steps'.map (·.withPlace none) = steps.map (·.withPlace none)) ∧
      canonical c separator = .ok c ∧
      Diagram.SameOutcome (Diagram.ofText text) (Diagram.ofText c) := by
  rcases ofText_canonical hseparator h with ⟨steps, steps', hsteps, hsteps', -, hsame⟩
  refine ⟨⟨steps, steps', hsteps, hsteps', hsame⟩, canonical_canonical hseparator h, ?_⟩
  rcases exists_steps_relocate hsteps hsteps' hsame with ⟨f, hf, rfl⟩
  exact ofText_relocate hf hsteps hsteps'

theorem canonical_preserves_repeat :
    canonical " |: ;; 3) LFO[] ; Label[ text = \"a b\" ] # out\n\n !|" "\n" =
        .ok "|:\n3) LFO\nLabel[text=\"a b\"]\n!|" ∧
      canonical "|:\n3) LFO\nLabel[text=\"a b\"]\n!|" "\n" =
        .ok "|:\n3) LFO\nLabel[text=\"a b\"]\n!|" ∧
      Diagram.SameOutcome
        (Diagram.ofText " |: ;; 3) LFO[] ; Label[ text = \"a b\" ] # out\n\n !|")
        (Diagram.ofText "|:\n3) LFO\nLabel[text=\"a b\"]\n!|") := by
  have h : canonical " |: ;; 3) LFO[] ; Label[ text = \"a b\" ] # out\n\n !|" "\n" =
      .ok "|:\n3) LFO\nLabel[text=\"a b\"]\n!|" := by
    decide +kernel
  exact ⟨h, (canonical_preserves (Or.inr rfl) h).2⟩

end IceFigures
