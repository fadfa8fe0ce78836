import IceFigures.Proofs.CanonicalText
import IceFigures.Proofs.ElementNames
import IceFigures.Proofs.Numbering

/-!
# Copies Told Apart by Their Places

A copy that a repeat makes stands where its step is written, in the pass of the innermost
repeat around it. The pass is to tell the copies of a step from one another, so that what
is drawn for each gets names of its own.

With one repeat it does. With repeats inside of repeats it cannot: the passes of the outer
ones are kept nowhere, and the inner one counts its own from one each time. The copies of a
step are told apart exactly if no repeat around it has several passes, apart from the
innermost one (`Passage.ToldApart`).

Names begin with a stem for each place, and the stems of a diagram are listed in the order
in which they are first used (`stems_ofSteps`). Where places are told apart, each copy that
draws anything thus has its own entry in the list.

## Main definitions

* `Passage.steps`, `Passage.nested`: The steps in passages, and those that stand in a block
  among them.
* `Passage.ToldApart`: Passages whose copies stand at different places.
* `Passage.placeKey`: The place of a copied step and the pass it is in.
* `Move.isDrawn`: Whether a move puts anything on the page.
* `Step.stem?`: The stem of a step that draws anything.

## Theorems

* `Passage.nodup_placeKey_copies_iff`: Which copies stand at different places.
* `stems_ofSteps`: The stems of a diagram.
* `nodup_place_expand_iff`: Which texts have all their copies told apart.
-/

namespace IceFigures

namespace Passage

/-! ### Steps in passages -/

/-- The steps that passages are made of, as they are written. -/
def steps : List Passage → List Step
  | [] => []
  | step s :: ps => s :: steps ps
  | block body _ :: ps => steps body ++ steps ps

/-- The steps that stand in a block among passages. -/
def nested : List Passage → List Step
  | [] => []
  | step _ :: ps => nested ps
  | block body _ :: ps => steps body ++ nested ps

/-- Passages whose copies stand at different places: no step stands in a block inside of
    another one that has several passes. -/
def ToldApart : List Passage → Prop
  | [] => True
  | step _ :: ps => ToldApart ps
  | block body mark :: ps => ((2 ≤ mark.count → nested body = []) ∧ ToldApart body) ∧ ToldApart ps

/-- What tells copies apart: where the step is written, and the pass of the innermost block
    around it. -/
def placeKey (c : Step × List (RepeatEnd × Nat)) : Option Place × Option Nat :=
  (c.1.place, innermost c.2)

theorem steps_sublist_of_spells {ps : List Passage} {written : List Step}
    (h : Spells ps written) : (steps ps).Sublist written := by
  induction h with
  | nil =>
      rw [steps]
  | step _ _ ih =>
      rw [steps]
      exact ih.cons_cons _
  | block _ _ _ _ hbody ih =>
      rw [steps]
      exact (hbody.append (ih.cons _)).cons _

theorem mem_steps_of_mem_copies {ps : List Passage} {around : List (RepeatEnd × Nat)}
    {c : Step × List (RepeatEnd × Nat)} (h : c ∈ copies around ps) : c.1 ∈ steps ps := by
  induction ps using passages_induction generalizing around with
  | nil =>
      rw [copies] at h
      exact absurd h List.not_mem_nil
  | step s ps ih =>
      rw [copies, List.mem_cons] at h
      rw [steps, List.mem_cons]
      rcases h with rfl | h
      · exact Or.inl rfl
      · exact Or.inr (ih h)
  | block body mark ps hbody ih =>
      rw [copies, List.mem_append, List.mem_flatMap] at h
      rw [steps, List.mem_append]
      rcases h with ⟨pass, -, h⟩ | h
      · exact Or.inl (hbody h)
      · exact Or.inr (ih h)

/-! ### Passes that copies are in -/

/-- If no step stands in a block, all copies are in the pass that is given. -/
theorem around_of_nested {ps : List Passage} (hnested : nested ps = [])
    {around : List (RepeatEnd × Nat)} {c : Step × List (RepeatEnd × Nat)}
    (h : c ∈ copies around ps) : c.2 = around := by
  induction ps using passages_induction with
  | nil =>
      rw [copies] at h
      exact absurd h List.not_mem_nil
  | step s ps ih =>
      rw [nested] at hnested
      rw [copies, List.mem_cons] at h
      rcases h with rfl | h
      · rfl
      · exact ih hnested h
  | block body mark ps _ ih =>
      rw [nested, List.append_eq_nil_iff] at hnested
      rw [copies, List.mem_append, List.mem_flatMap] at h
      rcases h with ⟨pass, -, h⟩ | h
      · have hstep := mem_steps_of_mem_copies h
        rw [hnested.1] at hstep
        exact absurd hstep List.not_mem_nil
      · exact ih hnested.2 h

theorem one_mem_passes (mark : RepeatEnd) : 1 ∈ List.range' 1 (max 1 mark.count.toNat) := by
  rw [List.mem_range'_1]
  omega

/-- The copies of the first pass of a block are among those of the block. -/
theorem mem_copies_of_first {body ps : List Passage} {mark : RepeatEnd}
    {around : List (RepeatEnd × Nat)} {c : Step × List (RepeatEnd × Nat)}
    (h : c ∈ copies ((mark, 1) :: around) body) : c ∈ copies around (block body mark :: ps) := by
  rw [copies, List.mem_append, List.mem_flatMap]
  exact Or.inl ⟨1, one_mem_passes mark, h⟩

/-- In a first pass, every step has a copy in the first pass of the innermost block. -/
theorem exists_first_copy {ps : List Passage} {s : Step} (h : s ∈ steps ps)
    {around : List (RepeatEnd × Nat)} (hfirst : innermost around = some 1) :
    ∃ c ∈ copies around ps, c.1 = s ∧ innermost c.2 = some 1 := by
  induction ps using passages_induction generalizing around with
  | nil =>
      rw [steps] at h
      exact absurd h List.not_mem_nil
  | step t ps ih =>
      rw [steps, List.mem_cons] at h
      rw [copies]
      rcases h with rfl | h
      · exact ⟨_, List.mem_cons_self, rfl, hfirst⟩
      · rcases ih h hfirst with ⟨c, hc, hcopy⟩
        exact ⟨c, List.mem_cons_of_mem _ hc, hcopy⟩
  | block body mark ps hbody ih =>
      rw [steps, List.mem_append] at h
      rcases h with h | h
      · have hinside : innermost ((mark, 1) :: around) = some 1 := rfl
        rcases hbody h hinside with ⟨c, hc, hcopy⟩
        exact ⟨c, mem_copies_of_first hc, hcopy⟩
      · rcases ih h hfirst with ⟨c, hc, hcopy⟩
        rw [copies]
        exact ⟨c, List.mem_append_right _ hc, hcopy⟩

/-- A step in a block has a copy in the first pass of it, whatever is around. -/
theorem exists_first_copy_of_nested {ps : List Passage} {s : Step} (h : s ∈ nested ps)
    (around : List (RepeatEnd × Nat)) :
    ∃ c ∈ copies around ps, c.1 = s ∧ innermost c.2 = some 1 := by
  induction ps using passages_induction with
  | nil =>
      rw [nested] at h
      exact absurd h List.not_mem_nil
  | step t ps ih =>
      rw [nested] at h
      rw [copies]
      rcases ih h with ⟨c, hc, hcopy⟩
      exact ⟨c, List.mem_cons_of_mem _ hc, hcopy⟩
  | block body mark ps _ ih =>
      rw [nested, List.mem_append] at h
      rcases h with h | h
      · have hinside : innermost ((mark, 1) :: around) = some 1 := rfl
        rcases exists_first_copy h hinside with ⟨c, hc, hcopy⟩
        exact ⟨c, mem_copies_of_first hc, hcopy⟩
      · rcases ih h with ⟨c, hc, hcopy⟩
        rw [copies]
        exact ⟨c, List.mem_append_right _ hc, hcopy⟩

/-! ### Places of copies -/

/-- The passes of a block have no places in common exactly if there is only one of them or no
    step stands in a block inside. -/
theorem pairwise_disjoint_passes_iff (body : List Passage) (mark : RepeatEnd)
    (around : List (RepeatEnd × Nat)) :
    (List.range' 1 (max 1 mark.count.toNat)).Pairwise
        (Function.onFun List.Disjoint fun pass =>
          (copies ((mark, pass) :: around) body).map placeKey) ↔
      (2 ≤ mark.count → nested body = []) := by
  constructor
  · intro h hcount
    obtain ⟨more, hmore⟩ : ∃ more, max 1 mark.count.toNat = more + 2 :=
      ⟨max 1 mark.count.toNat - 2, by omega⟩
    rw [hmore, List.range'_succ, List.range'_succ] at h
    have hdisjoint := (List.pairwise_cons.1 h).1 2 List.mem_cons_self
    refine List.eq_nil_iff_forall_not_mem.2 fun s hs => ?_
    -- The first inner pass comes again in the second outer pass.
    rcases exists_first_copy_of_nested hs ((mark, 1) :: around) with ⟨c, hc, hstep, hpass⟩
    rcases exists_first_copy_of_nested hs ((mark, 2) :: around) with ⟨c', hc', hstep', hpass'⟩
    have hkey : placeKey c' = placeKey c := by
      rw [placeKey, placeKey, hstep, hstep', hpass, hpass']
    exact hdisjoint (List.mem_map_of_mem hc) (hkey ▸ List.mem_map_of_mem hc')
  · intro h
    by_cases hcount : 2 ≤ mark.count
    · -- All copies of a pass are in that pass, so that passes differ in every key.
      refine (List.pairwise_lt_range' (s := 1)).imp fun {k l} hlt => ?_
      intro key hk hl
      rcases List.mem_map.1 hk with ⟨c, hc, rfl⟩
      rcases List.mem_map.1 hl with ⟨c', hc', hkey⟩
      have hpass := congrArg Prod.snd hkey
      rw [placeKey, placeKey, around_of_nested (h hcount) hc,
        around_of_nested (h hcount) hc'] at hpass
      have heq : l = k := Option.some.inj hpass
      omega
    · have hone : max 1 mark.count.toNat = 1 := by omega
      rw [hone, List.range'_one]
      exact List.pairwise_singleton _ _

-- By induction into blocks, for all repeats around.
theorem nodup_placeKey_copies_iff {ps : List Passage} (h : ((steps ps).map Step.place).Nodup)
    (around : List (RepeatEnd × Nat)) :
    ((copies around ps).map placeKey).Nodup ↔ ToldApart ps := by
  induction ps using passages_induction generalizing around with
  | nil =>
      rw [copies, ToldApart]
      exact iff_of_true List.nodup_nil trivial
  | step s ps ih =>
      rw [steps, List.map_cons, List.nodup_cons] at h
      rw [copies, ToldApart, List.map_cons, List.nodup_cons, ih h.2]
      refine and_iff_right fun hmem => h.1 ?_
      rcases List.mem_map.1 hmem with ⟨c, hc, hkey⟩
      have hplace : c.1.place = s.place := congrArg Prod.fst hkey
      exact hplace ▸ List.mem_map_of_mem (mem_steps_of_mem_copies hc)
  | block body mark ps hbody ih =>
      rw [steps, List.map_append, List.nodup_append'] at h
      -- What stands in the block is written elsewhere than what stands behind it.
      have hdisjoint : List.Disjoint
          (((List.range' 1 (max 1 mark.count.toNat)).flatMap fun pass =>
            copies ((mark, pass) :: around) body).map placeKey)
          ((copies around ps).map placeKey) := by
        intro key hinside hbehind
        rcases List.mem_map.1 hinside with ⟨c, hc, rfl⟩
        rcases List.mem_map.1 hbehind with ⟨c', hc', hkey⟩
        rcases List.mem_flatMap.1 hc with ⟨pass, -, hc⟩
        have hplace : c'.1.place = c.1.place := congrArg Prod.fst hkey
        exact h.2.2 (List.mem_map_of_mem (mem_steps_of_mem_copies hc))
          (hplace ▸ List.mem_map_of_mem (mem_steps_of_mem_copies hc'))
      have hpasses : (∀ pass ∈ List.range' 1 (max 1 mark.count.toNat),
          ((copies ((mark, pass) :: around) body).map placeKey).Nodup) ↔ ToldApart body :=
        ⟨fun hall => (hbody h.1 _).1 (hall 1 (one_mem_passes mark)),
          fun htold pass _ => (hbody h.1 _).2 htold⟩
      rw [copies, ToldApart, List.map_append, List.nodup_append', ih h.2.1, List.map_flatMap,
        List.nodup_flatMap, hpasses, pairwise_disjoint_passes_iff]
      rw [List.map_flatMap] at hdisjoint
      constructor
      · rintro ⟨⟨hbody, hnested⟩, hrest, -⟩
        exact ⟨⟨hnested, hbody⟩, hrest⟩
      · rintro ⟨⟨hnested, hbody⟩, hrest⟩
        exact ⟨⟨hbody, hnested⟩, hrest, hdisjoint⟩

/-- The place of a copy tells as much as where its step is written and the pass it is in. -/
theorem nodup_place_iff {claimed : List (Step × List (RepeatEnd × Nat))} {made : List Step}
    (h : List.Forall₂ (fun c t => c.1.IsCopy (innermost c.2) t) claimed made)
    (hplace : ∀ c ∈ claimed, ∃ p : Place, c.1.place = some p ∧ p.pass = none) :
    (made.map Step.place).Nodup ↔ (claimed.map placeKey).Nodup := by
  have hmade : made.map Step.place =
      claimed.map fun c => c.1.place.map fun p =>
        { row := p.row, col := p.col, pass := innermost c.2 } := by
    clear hplace
    induction h with
    | nil => rfl
    | cons hcopy _ ih => rw [List.map_cons, List.map_cons, ih, hcopy.place]
  rw [hmade, List.Nodup, List.Nodup, List.pairwise_map, List.pairwise_map]
  -- Rows and columns are those of the written steps, which are in no pass themselves.
  refine List.Pairwise.iff_of_mem fun {c c'} hc hc' => not_congr ?_
  rcases hplace c hc with ⟨⟨row, col, pass⟩, hp, rfl⟩
  rcases hplace c' hc' with ⟨⟨row', col', pass'⟩, hp', rfl⟩
  simp only [placeKey, hp, hp', Option.map_some, Option.some.injEq, Place.mk.injEq,
    Prod.mk.injEq, and_true, and_assoc]

end Passage

/-! ### Stems -/

/-- Whether a move puts anything on the page. -/
def Move.isDrawn : Move → Bool
  | part (.shift _) => false
  | part _ => true
  | figure _ => true
  | rink _ => true
  | title _ => true
  | text _ => true
  | _ => false

theorem Part.draw_ne_nil {before : Skater} {settings : Settings} {p : Part}
    (h : p.showsCount = true) : p.draw before settings ≠ [] := by
  cases p with
  | curve c => exact List.cons_ne_nil _ _
  | straight s => exact List.cons_ne_nil _ _
  | _ => cases h

theorem Move.draw_eq_nil_iff (before : Skater) (settings : Settings) (m : Move) :
    m.draw before settings = [] ↔ m.isDrawn = false := by
  cases m with
  | part p =>
      cases p with
      | shift s => exact iff_of_true rfl rfl
      | _ => exact iff_of_false (List.cons_ne_nil _ _) Bool.noConfusion
  | figure f =>
      rcases f.draw_eq before settings with ⟨p, rest, hp, hdraw⟩
      refine iff_of_false (fun hnil => ?_) Bool.noConfusion
      rw [draw, hdraw, List.append_eq_nil_iff] at hnil
      exact Part.draw_ne_nil hp hnil.1
  | rink r => exact iff_of_false (List.cons_ne_nil _ _) Bool.noConfusion
  | title t => exact iff_of_false (List.cons_ne_nil _ _) Bool.noConfusion
  | text t => exact iff_of_false (List.cons_ne_nil _ _) Bool.noConfusion
  | _ => exact iff_of_true rfl rfl

/-- The stem that a step names what it draws from, if it draws anything. -/
def Step.stem? (s : Step) : Option String :=
  if s.move.isDrawn then s.place.map Place.stem else none

theorem eraseDups_eq_self {l : List String} (h : l.Nodup) : l.eraseDups = l := by
  induction l using List.reverseRecOn with
  | nil => rfl
  | append_singleton l a ih =>
      rw [List.nodup_append', List.disjoint_singleton] at h
      rw [Names.eraseDups_concat, ih h.1, if_neg]
      simpa using h.2.2

/-- A name adds the stem of its place to those known. -/
theorem stems_next_of_eraseDups (p : Place) {names : Names} {known : List String}
    (h : names.stems = known.eraseDups) :
    (names.next p).2.stems = (known ++ [p.stem]).eraseDups := by
  rw [Names.stems_next, h, Names.eraseDups_concat]
  simp

/-- Items that are named from a place add its stem to those known, if there are any. -/
theorem stems_nameItemsFrom (p : Place) {names : Names} {known : List String}
    (h : names.stems = known.eraseDups) {items : List Svg.Item} (hne : items ≠ []) :
    (nameItemsFrom p names items).2.stems = (known ++ [p.stem]).eraseDups := by
  induction items generalizing names known with
  | nil => exact absurd rfl hne
  | cons i rest ih =>
      have hfirst := stems_next_of_eraseDups p h
      by_cases hrest : rest = []
      · subst hrest
        exact hfirst
      · -- The place is known from the first item on.
        have hknown : p.stem ∈ known ++ [p.stem] := List.mem_append_right _ List.mem_cons_self
        refine (ih hfirst hrest).trans ?_
        rw [Names.eraseDups_concat (known ++ [p.stem]), if_pos]
        exact List.contains_iff_mem.2 hknown

/-- A step adds its stem to those known, if it draws anything. -/
theorem stems_drawStep (before : Skater) (settings : Settings) {names : Names} (s : Step)
    {known : List String} (h : names.stems = known.eraseDups) :
    (drawStep before settings names s).2.stems = (known ++ s.stem?.toList).eraseDups := by
  have hdrawn := Move.draw_eq_nil_iff before settings s.move
  unfold drawStep nameItems Step.stem?
  cases s.place with
  | none =>
      rw [Option.map_none, ite_self]
      exact h.trans (congrArg _ (List.append_nil known).symm)
  | some p =>
      change (nameItemsFrom p names (s.move.draw before settings)).2.stems = _
      cases hdraws : s.move.isDrawn with
      | true =>
          refine stems_nameItemsFrom p h fun hnil => ?_
          rw [hdrawn.1 hnil] at hdraws
          cases hdraws
      | false =>
          rw [hdrawn.2 hdraws]
          exact h.trans (congrArg _ (List.append_nil known).symm)

/-- Stages add the stems of their steps one after another. -/
theorem stems_placeStages (settings : Settings) {names : Names} (stages : List Stage)
    {known : List String} (h : names.stems = known.eraseDups) :
    (placeStages settings names stages).2.1.stems =
      (known ++ (stages.map Stage.step).filterMap Step.stem?).eraseDups := by
  induction stages generalizing settings names known with
  | nil => exact h.trans (congrArg _ (List.append_nil known).symm)
  | cons stage rest ih =>
      rw [placeStages_cons]
      have hstep := stems_drawStep stage.before (drawnSettings settings stage.step) stage.step h
      refine (ih _ hstep).trans ?_
      rw [List.map_cons, List.filterMap_cons, List.append_assoc]
      cases stage.step.stem? <;> rfl

/-- The stems of a diagram are those of its steps that draw anything, in order. -/
theorem stems_ofSteps (steps : List Step) :
    (Diagram.ofSteps steps).stems = (steps.filterMap Step.stem?).eraseDups := by
  have hfirst : Names.stems {} = ([] : List String).eraseDups := rfl
  have hstems := stems_placeStages { preparedSettings steps with bounds := boundsOf (walk steps) }
    (walk steps) hfirst
  rw [map_step_walk, List.nil_append] at hstems
  exact hstems

/-- Steps at different places have different stems. -/
theorem nodup_filterMap_stem? {steps : List Step} (h : (steps.map Step.place).Nodup) :
    (steps.filterMap Step.stem?).Nodup := by
  have hplace : ∀ {s : Step} {stem : String}, s.stem? = some stem →
      ∃ p, s.place = some p ∧ p.stem = stem := by
    intro s stem hs
    unfold Step.stem? at hs
    split at hs
    · exact Option.map_eq_some_iff.1 hs
    · cases hs
  rw [List.Nodup, List.pairwise_map] at h
  rw [List.Nodup, List.pairwise_filterMap]
  refine h.imp fun {s t} hne stem hs stem' ht => ?_
  rcases hplace hs with ⟨p, hp, rfl⟩
  rcases hplace ht with ⟨q, hq, rfl⟩
  rw [hp, hq] at hne
  exact fun hstem => hne (congrArg some (Place.stem_injective hstem))

/-! ### Texts -/

/-- Whatever a text is unrolled to comes from passages that are written in it. -/
theorem exists_passages_of_expand {text : String} {steps : List Step}
    (h : expand text = .ok steps) :
    ∃ written ps, Step.ofText text = .ok written ∧ Passage.Spells ps written ∧
      steps = (Passage.unrollAll ps none false).1 := by
  rcases bind_eq_ok.1 h with ⟨written, htext, hunroll⟩
  rcases map_eq_ok.1 hunroll with ⟨ps, hps, rfl⟩
  exact ⟨written, ps, htext, Passage.ofSteps_eq_ok_iff.1 hps, rfl⟩

/-- The copies that a text is unrolled to stand at different places exactly if no step is
    written in a block inside of another one that has several passes. Each copy that draws
    anything then has its own entry among the stems of the diagram. -/
theorem nodup_place_expand_iff {text : String} {steps : List Step}
    (h : expand text = .ok steps) :
    ∃ written ps, Step.ofText text = .ok written ∧ Passage.Spells ps written ∧
      ((steps.map Step.place).Nodup ↔ Passage.ToldApart ps) ∧
      (Passage.ToldApart ps →
        (steps.filterMap Step.stem?).Nodup ∧
          (Diagram.ofSteps steps).stems = steps.filterMap Step.stem?) := by
  rcases exists_passages_of_expand h with ⟨written, ps, htext, hspells, rfl⟩
  rcases places_ofText htext with ⟨places, hplaces, hnodup, hpass⟩
  have hwritten : (written.map Step.place).Nodup := by
    rw [hplaces]
    exact hnodup.map (Option.some_injective _)
  have hsteps : ((Passage.steps ps).map Step.place).Nodup :=
    hwritten.sublist ((Passage.steps_sublist_of_spells hspells).map _)
  have hplace : ∀ c ∈ Passage.copies [] ps, ∃ p : Place, c.1.place = some p ∧ p.pass = none := by
    intro c hc
    have hmem := List.mem_map_of_mem (f := Step.place) (Passage.mem_of_mem_copies hspells hc).1
    rw [hplaces] at hmem
    rcases List.mem_map.1 hmem with ⟨p, hp, heq⟩
    exact ⟨p, heq.symm, hpass p hp⟩
  have hiff : ((Passage.unrollAll ps none false).1.map Step.place).Nodup ↔
      Passage.ToldApart ps :=
    (Passage.nodup_place_iff (Passage.forall₂_isCopy_unrollAll ps [] false) hplace).trans
      (Passage.nodup_placeKey_copies_iff hsteps [])
  -- Stems that all differ are listed as they come.
  refine ⟨written, ps, htext, hspells, hiff, fun htold => ?_⟩
  have hstems := nodup_filterMap_stem? (hiff.2 htold)
  exact ⟨hstems, by rw [stems_ofSteps, eraseDups_eq_self hstems]⟩

/-- An edge in a block with two passes, inside of another block. -/
def nestedText (outer : String) : String :=
  "|:;|:;LFO;:|;:|" ++ outer

/-- The edge of the nested text in one of its passes. -/
def nestedEdge (pass : Nat) : Step :=
  { outsideEdge .left with place := some { row := 0, col := 6, pass := some pass } }

theorem expand_nestedText_once :
    expand (nestedText "x1") = .ok [nestedEdge 1, nestedEdge 2] := by
  decide +kernel

/-- With one outer pass, the copies are told apart. -/
theorem nodup_place_expand_nestedText :
    expand (nestedText "x1") = .ok [nestedEdge 1, nestedEdge 2] ∧
      ∃ written ps, Step.ofText (nestedText "x1") = .ok written ∧ Passage.Spells ps written ∧
        (([nestedEdge 1, nestedEdge 2].map Step.place).Nodup ↔ Passage.ToldApart ps) ∧
        (Passage.ToldApart ps →
          ([nestedEdge 1, nestedEdge 2].filterMap Step.stem?).Nodup ∧
            (Diagram.ofSteps [nestedEdge 1, nestedEdge 2]).stems =
              [nestedEdge 1, nestedEdge 2].filterMap Step.stem?) :=
  ⟨expand_nestedText_once, nodup_place_expand_iff expand_nestedText_once⟩

/-- With two outer passes, each copy stands at the place of another one. -/
theorem not_nodup_place_expand_nestedText :
    expand (nestedText "") = .ok [nestedEdge 1, nestedEdge 2, nestedEdge 1, nestedEdge 2] ∧
      ¬([nestedEdge 1, nestedEdge 2, nestedEdge 1, nestedEdge 2].map Step.place).Nodup := by
  constructor
  · decide +kernel
  · decide

end IceFigures
