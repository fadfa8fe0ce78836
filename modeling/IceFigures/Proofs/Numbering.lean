import IceFigures.Proofs.DrawnShapes

/-!
# Numbering

Counts and durations that are written were read, so they are short enough to be
written again. Automatic numbering is not read from anywhere: it goes on by one
from whatever was shown last, and so it can go on from the longest count there is.
That is the only thing that keeps steps from being drawn.

Whether it happens depends on nothing but the number in force at each step, since
all other settings leave numbering alone (`Overruns.congr`). A number grows by one
with each step, so it takes a written count which is as far from the limit as there
are steps, at most (`not_overruns`).

## Main definitions

* `Svg.countsOf`: The counts that items show.
* `Move.showsCount`: Whether a move shows the count that it is given.
* `Step.Writable`: Steps whose count and duration can be written.
* `Overruns`: Numbering goes on to a number that cannot be written.

## Theorems

* `Move.of_mem_countsOf_draw`: A move shows a count or a duration that it is given.
* `exists_long_placeStages_iff`: Which stages show a number that cannot be written.
* `checked_ofSteps_eq_error_iff`: Which steps cannot be drawn.
* `ofText_eq_overall_iff`: Which texts are refused as a whole.
* `not_overruns`: Numbering stays short away from the limit.
-/

namespace IceFigures

/-! ### Counts on the page -/

namespace Svg

/-- The count of an item, if it shows one. -/
def Item.count? (i : Item) : Option Int :=
  match i.content with
  | .caption { body := .counted count _, .. } => count
  | _ => none

/-- The counts that items show, in order. -/
def countsOf (items : List Item) : List Int :=
  items.filterMap Item.count?

theorem countsOf_append (items items' : List Item) :
    countsOf (items ++ items') = countsOf items ++ countsOf items' :=
  List.filterMap_append

theorem mem_countsOf {items : List Item} {n : Int} :
    n ∈ countsOf items ↔ ∃ i ∈ items, i.count? = some n :=
  List.mem_filterMap

theorem Item.isWritable_iff {i : Item} :
    i.isWritable = true ↔ ∀ n ∈ i.count?, Text.isWritable n = true := by
  rcases i with ⟨_ | ⟨pos, fontSize, rotation, _ | ⟨_ | n, text⟩⟩ | _, name⟩ <;>
    simp [isWritable, Caption.isWritable, count?]

theorem all_isWritable_iff {items : List Item} :
    items.all Item.isWritable = true ↔ ∀ n ∈ countsOf items, Text.isWritable n = true := by
  rw [List.all_eq_true]
  constructor
  · intro h n hn
    rcases mem_countsOf.1 hn with ⟨i, hi, hcount⟩
    exact Item.isWritable_iff.1 (h i hi) n hcount
  · intro h i hi
    exact Item.isWritable_iff.2 fun n hn => h n (mem_countsOf.2 ⟨i, hi, hn⟩)

end Svg

open Svg (countsOf)

theorem mem_countsOf_drawShape {before : Skater} {settings : Settings} {name : String}
    {labels : List PartLabel} {n : Int} :
    n ∈ countsOf (Part.drawShape before settings name labels) ↔
      ∃ l ∈ labels, l.display = true ∧ l.count = some n := by
  rw [Part.drawShape, drawLabels, Svg.mem_countsOf]
  constructor
  · rintro ⟨i, hi, hcount⟩
    rcases List.mem_cons.1 hi with rfl | hi
    · cases hcount
    · rcases List.mem_map.1 hi with ⟨l, hl, rfl⟩
      rcases List.mem_filter.1 hl with ⟨hmem, hdisplay⟩
      exact ⟨l, hmem, hdisplay, hcount⟩
  · rintro ⟨l, hmem, hdisplay, hcount⟩
    have hl := List.mem_filter.2 ⟨hmem, hdisplay⟩
    exact ⟨l.item before settings, List.mem_cons_of_mem _ (List.mem_map_of_mem hl), hcount⟩

/-- Whether a part shows the count that it is given. -/
def Part.showsCount : Part → Bool
  | curve _ => true
  | straight s => s.code.foot ≠ .both
  | _ => false

/-- Whether a move shows the count that it is given. -/
def Move.showsCount : Move → Bool
  | part p => p.showsCount
  | figure f => f.showsCount
  | _ => false

theorem Part.of_mem_countsOf_draw {before : Skater} {settings : Settings} {p : Part} {n : Int}
    (h : n ∈ countsOf (p.draw before settings)) :
    p.showsCount = true ∧ settings.count = some n ∨ settings.duration = some n := by
  cases p with
  | curve c =>
      rcases mem_countsOf_drawShape.1 h with ⟨l, hl, -, hcount⟩
      unfold Curve.labels at hl
      rcases List.mem_append.1 hl with hl | hl
      · rcases List.mem_cons.1 hl with rfl | hl
        · exact Or.inl ⟨rfl, hcount⟩
        · split at hl
          · exact absurd hl List.not_mem_nil
          · rename_i duration hduration
            rw [List.mem_singleton.1 hl] at hcount
            exact Or.inr (hduration.trans hcount)
      · split at hl
        · exact absurd hl List.not_mem_nil
        · rw [List.mem_singleton.1 hl] at hcount
          cases hcount
  | straight s =>
      rcases mem_countsOf_drawShape.1 h with ⟨l, hl, -, hcount⟩
      unfold Straight.labels at hl
      split at hl
      · exact absurd hl List.not_mem_nil
      · rename_i hfoot
        rw [List.mem_singleton.1 hl] at hcount
        exact Or.inl ⟨decide_eq_true hfoot, hcount⟩
  | hop j =>
      rcases mem_countsOf_drawShape.1 h with ⟨l, hl, -, hcount⟩
      rw [List.mem_singleton.1 hl] at hcount
      cases hcount
  | shift s => exact absurd h List.not_mem_nil
  | label l => exact absurd h List.not_mem_nil

theorem Part.mem_countsOf_draw {before : Skater} {settings : Settings} {p : Part} {n : Int}
    (hp : p.showsCount = true) (h : settings.count = some n) :
    n ∈ countsOf (p.draw before settings) := by
  have hdisplay : ∀ text, (settings.count.isSome || isVisibleText text) = true := by
    intro text
    rw [h]
    rfl
  cases p with
  | curve c => exact mem_countsOf_drawShape.2 ⟨_, List.mem_cons_self, hdisplay _, h⟩
  | straight s =>
      refine mem_countsOf_drawShape.2 ?_
      rw [Straight.labels, if_neg (of_decide_eq_true hp)]
      exact ⟨_, List.mem_cons_self, hdisplay _, h⟩
  | hop j => exact Bool.noConfusion hp
  | shift s => exact Bool.noConfusion hp
  | label l => exact Bool.noConfusion hp

/-- Parts that are drawn untimed show no count. -/
theorem Part.not_mem_countsOf_draw_untimed {before : Skater} {settings : Settings} {p : Part}
    {n : Int} : n ∉ countsOf (p.draw before settings.untimed) := by
  intro h
  rcases Part.of_mem_countsOf_draw h with ⟨-, hcount⟩ | hduration
  · cases hcount
  · cases hduration

/-- A figure is drawn as an arc, which can show a count, and parts that show none. -/
theorem Figure.draw_eq (before : Skater) (settings : Settings) (f : Figure) :
    ∃ p rest, Part.showsCount p = true ∧
      f.draw before settings =
        p.draw before (if f.showsCount then settings else settings.untimed) ++
          Figure.drawUntimed settings rest := by
  have hparts : ∃ p ps, f.parts = p :: ps ∧ Part.showsCount p = true := by
    rcases f with ⟨kind, entry, values, footwork⟩
    cases kind with
    | turn t => cases t <;> exact ⟨_, _, rfl, rfl⟩
    | jump j n => cases j <;> exact ⟨_, _, rfl, rfl⟩
    | _ => exact ⟨_, _, rfl, rfl⟩
  rcases hparts with ⟨p, ps, hparts, hp⟩
  refine ⟨p, walkParts (before.after p.effect) ps, hp, ?_⟩
  rw [Figure.draw, Figure.walk, hparts, walkParts]

theorem Figure.not_mem_countsOf_drawUntimed {settings : Settings} {walk : List (Skater × Part)}
    {n : Int} : n ∉ countsOf (Figure.drawUntimed settings walk) := by
  intro h
  rcases Svg.mem_countsOf.1 h with ⟨i, hi, hcount⟩
  rcases List.mem_flatMap.1 hi with ⟨⟨s, p⟩, -, hmem⟩
  exact Part.not_mem_countsOf_draw_untimed (Svg.mem_countsOf.2 ⟨i, hmem, hcount⟩)

/-- A move shows a count or a duration that it is given. -/
theorem Move.of_mem_countsOf_draw {before : Skater} {settings : Settings} {m : Move} {n : Int}
    (h : n ∈ countsOf (m.draw before settings)) :
    m.showsCount = true ∧ settings.count = some n ∨ settings.duration = some n := by
  cases m with
  | part p => exact Part.of_mem_countsOf_draw h
  | figure f =>
      rcases f.draw_eq before settings with ⟨p, rest, -, hdraw⟩
      rw [Move.draw, hdraw, Svg.countsOf_append] at h
      have hfirst :=
        (List.mem_append.1 h).resolve_right Figure.not_mem_countsOf_drawUntimed
      split at hfirst
      · rename_i hf
        rcases Part.of_mem_countsOf_draw hfirst with ⟨-, hcount⟩ | hduration
        · exact Or.inl ⟨hf, hcount⟩
        · exact Or.inr hduration
      · exact absurd hfirst Part.not_mem_countsOf_draw_untimed
  | _ => exact absurd h List.not_mem_nil

/-- A move that shows counts shows the one that it is given. -/
theorem Move.mem_countsOf_draw {before : Skater} {settings : Settings} {m : Move} {n : Int}
    (hm : m.showsCount = true) (h : settings.count = some n) :
    n ∈ countsOf (m.draw before settings) := by
  cases m with
  | part p => exact Part.mem_countsOf_draw hm h
  | figure f =>
      rcases f.draw_eq before settings with ⟨p, rest, hp, hdraw⟩
      have hf : f.showsCount = true := hm
      rw [Move.draw, hdraw, if_pos hf, Svg.countsOf_append]
      exact List.mem_append_left _ (Part.mem_countsOf_draw hp h)
  | _ => exact Bool.noConfusion hm

/-! ### Numbering -/

/-- Automatic numbering goes on to a number that cannot be written, at a step that
    shows it. -/
inductive Overruns : Settings → List Step → Prop
  | here {settings : Settings} {s : Step} {rest : List Step} {n : Int}
      (hshows : s.move.showsCount = true) (hcount : s.count = none)
      (hnumber : settings.autoCount = some n) (hlong : Text.isWritable n = false) :
      Overruns settings (s :: rest)
  | later {settings : Settings} {s : Step} {rest : List Step}
      (h : Overruns (laterSettings settings s) rest) : Overruns settings (s :: rest)

/-- Steps whose count and duration can be written. -/
structure Step.Writable (s : Step) : Prop where
  count : ∀ n ∈ s.count, Text.isWritable (n : Int) = true
  duration : ∀ n ∈ s.duration, Text.isWritable (n : Int) = true

theorem Move.configure_of_showsCount {m : Move} (hm : m.showsCount = true) (settings : Settings) :
    m.configure settings = settings := by
  cases m with
  | info i => exact Bool.noConfusion hm
  | _ => rfl

/-- A written count shows, unless it is zero. -/
theorem countFor_of_mem {s : Step} {n : Nat} (h : s.count = some n) (hn : n ≠ 0)
    (settings : Settings) : countFor s settings = some (n : Int) := by
  rw [countFor, h]
  cases n with
  | zero => exact absurd rfl hn
  | succ n => rfl

/-- What shows of a step is its own count or the number in force. -/
theorem countFor_cases {s : Step} {settings : Settings} {n : Int}
    (h : countFor s settings = some n) :
    s.count = none ∧ settings.autoCount = some n ∨ ∃ k ∈ s.count, (k : Int) = n := by
  unfold countFor at h
  split at h
  · rename_i hcount
    exact Or.inl ⟨hcount, h⟩
  · cases h
  · rename_i k _ hcount
    exact Or.inr ⟨k, hcount, Option.some.inj h⟩

/-- Numbering goes on from what was shown, or else from the number in force. -/
theorem autoCount_laterSettings (settings : Settings) (s : Step) :
    (laterSettings settings s).autoCount =
      (s.move.configure settings).autoCount.map fun n =>
        if s.move.isVisible then (countFor s (s.move.configure settings)).getD n + 1 else n := by
  unfold laterSettings nextSettings
  split
  · rename_i hnone
    rw [hnone, Option.map_none]
  · rename_i n hnumber
    rw [hnumber, Option.map_some]
    split
    · rfl
    · rw [hnumber]

/-- Numbering depends on the number in force alone. -/
theorem autoCount_laterSettings_congr {settings settings' : Settings}
    (h : settings.autoCount = settings'.autoCount) (s : Step) :
    (laterSettings settings s).autoCount = (laterSettings settings' s).autoCount := by
  have hnumber :
      (s.move.configure settings).autoCount = (s.move.configure settings').autoCount := by
    cases s.move with
    | info i => rfl
    | _ => exact h
  have hcount :
      countFor s (s.move.configure settings) = countFor s (s.move.configure settings') := by
    rw [countFor, countFor, hnumber]
  rw [autoCount_laterSettings, autoCount_laterSettings, hnumber, hcount]

theorem Overruns.congr {settings settings' : Settings} {steps : List Step}
    (h : Overruns settings steps) (heq : settings.autoCount = settings'.autoCount) :
    Overruns settings' steps := by
  induction h generalizing settings' with
  | here hshows hcount hnumber hlong => exact .here hshows hcount (heq ▸ hnumber) hlong
  | later _ ih => exact .later (ih (autoCount_laterSettings_congr heq _))

/-- Numbering goes by moves and counts, wherever they are written. -/
theorem Overruns.of_map_withPlace {settings : Settings} {steps steps' : List Step}
    (h : Overruns settings steps)
    (hsame : steps'.map (·.withPlace none) = steps.map (·.withPlace none)) :
    Overruns settings steps' := by
  induction h generalizing steps' with
  | @here settings s rest n hshows hcount hnumber hlong =>
      rcases List.map_eq_cons_iff.1 hsame with ⟨t, rest', rfl, hst, -⟩
      have hmove : t.move = s.move := (congrArg Step.move hst :)
      have hcount' : t.count = s.count := (congrArg Step.count hst :)
      exact .here (hmove ▸ hshows) (hcount'.trans hcount) hnumber hlong
  | @later settings s rest _ ih =>
      rcases List.map_eq_cons_iff.1 hsame with ⟨t, rest', rfl, hst, hrest⟩
      have hsettings : laterSettings settings t = laterSettings settings s :=
        (congrArg (laterSettings settings) hst :)
      exact .later (hsettings ▸ ih hrest)

/-! ### Stages -/

theorem countsOf_drawStep (before : Skater) (settings : Settings) (names : Names) (s : Step) :
    countsOf (drawStep before settings names s).1 = countsOf (s.move.draw before settings) :=
  filterMap_nameItems (fun _ _ => rfl) s.place names _

theorem countsOf_markAt (shown : Bool) (s : Skater) (mark : String) (settings : Settings) :
    countsOf (markAt shown s mark settings) = [] := by
  cases shown <;> rfl

/-- A number that a step shows and that cannot be written is the one in force. -/
theorem exists_long_drawStep_iff (before : Skater) (settings : Settings) (names : Names)
    {s : Step} (hs : s.Writable) :
    (∃ n ∈ countsOf (drawStep before (drawnSettings settings s) names s).1,
        Text.isWritable n = false) ↔
      s.move.showsCount = true ∧ s.count = none ∧
        ∃ n, settings.autoCount = some n ∧ Text.isWritable n = false := by
  rw [countsOf_drawStep]
  constructor
  · rintro ⟨n, hn, hlong⟩
    have hwritten : ∀ k : Nat, Text.isWritable (k : Int) = true → (k : Int) ≠ n := by
      rintro k hk rfl
      rw [hk] at hlong
      cases hlong
    rcases Move.of_mem_countsOf_draw hn with ⟨hshows, hcount⟩ | hduration
    · rcases countFor_cases hcount with ⟨hnone, hnumber⟩ | ⟨k, hk, hkn⟩
      · rw [Move.configure_of_showsCount hshows] at hnumber
        exact ⟨hshows, hnone, n, hnumber, hlong⟩
      · exact absurd hkn (hwritten k (hs.count k hk))
    · rcases Option.map_eq_some_iff.1 hduration with ⟨k, hk, hkn⟩
      exact absurd hkn (hwritten k (hs.duration k hk))
  · rintro ⟨hshows, hnone, n, hnumber, hlong⟩
    refine ⟨n, Move.mem_countsOf_draw hshows ?_, hlong⟩
    change countFor s (s.move.configure settings) = some n
    rw [Move.configure_of_showsCount hshows, countFor, hnone]
    exact hnumber

-- By induction on the stages, for all settings in force: what cannot be written is
-- shown by the first stage, or by the others under the settings that it leaves.
theorem exists_long_placeStages_iff {settings : Settings} {names : Names} {stages : List Stage}
    (h : ∀ stage ∈ stages, stage.step.Writable) :
    (∃ n ∈ countsOf (placeStages settings names stages).1, Text.isWritable n = false) ↔
      Overruns settings (stages.map Stage.step) := by
  induction stages generalizing settings names with
  | nil =>
      constructor
      · rintro ⟨n, hn, -⟩
        exact absurd hn List.not_mem_nil
      · intro hover
        cases hover
  | cons stage rest ih =>
      rw [List.forall_mem_cons] at h
      have hfirst := exists_long_drawStep_iff stage.before settings names h.1
      rw [placeStages_cons, List.map_cons]
      simp only [Svg.countsOf_append, countsOf_markAt, List.nil_append, List.append_nil,
        List.mem_append, or_and_right, exists_or, hfirst, ih h.2]
      constructor
      · rintro (⟨hshows, hcount, n, hnumber, hlong⟩ | hlater)
        · exact .here hshows hcount hnumber hlong
        · exact .later hlater
      · intro hover
        cases hover with
        | here hshows hcount hnumber hlong => exact Or.inl ⟨hshows, hcount, _, hnumber, hlong⟩
        | later hlater => exact Or.inr hlater

/-! ### Diagrams -/

/-- Steps cannot be drawn exactly if numbering overruns. -/
theorem checked_ofSteps_eq_error_iff {steps : List Step} (h : ∀ s ∈ steps, s.Writable)
    {r : Refusal} :
    (Diagram.ofSteps steps).checked = .error r ↔
      r = .overall .unwritable ∧ Overruns {} steps := by
  have hstages : ∀ stage ∈ walk steps, stage.step.Writable := by
    intro stage hstage
    exact h _ (map_step_walk steps ▸ List.mem_map_of_mem hstage)
  have hnumber : (preparedSettings steps).autoCount = none := by
    refine get_preparedSettings Settings.autoCount (fun m settings => ?_) steps
    cases m <;> rfl
  have hcounts : countsOf (Diagram.ofSteps steps).document.items = countsOf (placed steps).1 :=
    filterMap_items_ofSteps (fun _ => rfl) steps
  have hover : (∃ n ∈ countsOf (placed steps).1, Text.isWritable n = false) ↔
      Overruns {} steps := by
    rw [placed, exists_long_placeStages_iff hstages, map_step_walk]
    exact ⟨fun h => h.congr hnumber, fun h => h.congr hnumber.symm⟩
  rw [← hover, Diagram.checked]
  split
  · rename_i hall
    rw [Svg.all_isWritable_iff, hcounts] at hall
    constructor
    · intro herror
      cases herror
    · rintro ⟨-, n, hn, hlong⟩
      rw [hall n hn] at hlong
      cases hlong
  · rename_i hall
    rw [Svg.all_isWritable_iff, hcounts] at hall
    simp only [not_forall, Bool.not_eq_true, exists_prop] at hall
    rw [Except.error.injEq]
    exact ⟨fun hr => ⟨hr.symm, hall⟩, fun hr => hr.1.symm⟩

/-- Whatever a text is drawn as has counts that were read. -/
theorem writable_of_expand {text : String} {steps : List Step} (h : expand text = .ok steps) :
    ∀ s ∈ steps, s.Writable := by
  intro t ht
  rcases exists_written_of_expand h with ⟨written, htext, hcopies⟩
  rcases hcopies t ht with ⟨s, hs, pass, hcopy⟩
  have hreadable := (ofText_cases htext s hs).1
  constructor
  · rw [hcopy.count]
    exact hreadable.count
  · rw [hcopy.duration]
    exact hreadable.duration

/-- A text is refused as a whole exactly if numbering overruns. -/
theorem ofText_eq_overall_iff {text : String} {f : Fault} :
    Diagram.ofText text = .error (.overall f) ↔
      f = .unwritable ∧ ∃ steps, expand text = .ok steps ∧ Overruns {} steps := by
  unfold Diagram.ofText
  cases hexpand : expand text with
  | error d => simp only [Except.error.injEq, reduceCtorEq, false_and, exists_false, and_false]
  | ok steps =>
      simp only [checked_ofSteps_eq_error_iff (writable_of_expand hexpand), Refusal.overall.injEq,
        Except.ok.injEq, exists_eq_left']

/-! ### Numbers that stay short -/

/-- A step raises the limit of the numbers in force by one. -/
theorem autoCount_laterSettings_le {settings : Settings} {s : Step} {limit : Nat}
    (hnumber : ∀ n ∈ settings.autoCount, 0 ≤ n ∧ n ≤ limit) (hcount : ∀ n ∈ s.count, n ≤ limit) :
    ∀ n ∈ (laterSettings settings s).autoCount, 0 ≤ n ∧ n ≤ (limit + 1 : Nat) := by
  intro n hn
  rw [autoCount_laterSettings] at hn
  rcases Option.map_eq_some_iff.1 hn with ⟨k, hk, hkn⟩
  by_cases hinfo : ∃ i, s.move = .info i
  · -- Numbering that is switched on begins with one, and no number is taken up yet.
    rcases hinfo with ⟨i, hi⟩
    rw [hi] at hk hkn
    have hone : k = 1 := by
      change (if i.autoCount then some 1 else none) = some k at hk
      split at hk
      · exact (Option.some.inj hk).symm
      · cases hk
    have hkeeps : k = n := hkn
    omega
  · have hsame : s.move.configure settings = settings := by
      cases hm : s.move with
      | info i => exact absurd ⟨i, hm⟩ hinfo
      | _ => rfl
    rw [hsame] at hk hkn
    have hbound := hnumber k hk
    split at hkn
    · cases hshown : countFor s settings with
      | none =>
          rw [hshown, Option.getD_none] at hkn
          omega
      | some m =>
          rw [hshown, Option.getD_some] at hkn
          rcases countFor_cases hshown with ⟨-, hm⟩ | ⟨j, hj, hjm⟩
          · have hbound' := hnumber m hm
            omega
          · have hbound' := hcount j hj
            omega
    · omega

-- By induction on the steps, with a limit that rises from step to step.
theorem not_overruns_of_le {settings : Settings} {steps : List Step} {limit : Nat}
    (hnumber : ∀ n ∈ settings.autoCount, 0 ≤ n ∧ n ≤ limit)
    (hcount : ∀ s ∈ steps, ∀ n ∈ s.count, n ≤ limit)
    (hlimit : limit + steps.length ≤ 10 ^ Text.maxDigits) : ¬Overruns settings steps := by
  induction steps generalizing settings limit with
  | nil =>
      intro h
      cases h
  | cons s rest ih =>
      rw [List.forall_mem_cons] at hcount
      rw [List.length_cons] at hlimit
      intro h
      cases h with
      | @here _ _ _ n hshows hnone hn hlong =>
          have hbound := hnumber n hn
          obtain ⟨k, rfl⟩ := Int.eq_ofNat_of_zero_le hbound.1
          have hshort : Text.isWritable (k : Int) = true :=
            (Text.isWritable_natCast_iff_lt k).2 (by omega)
          rw [hshort] at hlong
          cases hlong
      | later h =>
          have hnext := autoCount_laterSettings_le hnumber hcount.1
          refine ih hnext (fun t ht n hn => ?_) (by omega) h
          exact Nat.le_succ_of_le (hcount.2 t ht n hn)

/-- Numbering stays short if there is room for all steps behind every written count. -/
theorem not_overruns {steps : List Step} {limit : Nat}
    (hcount : ∀ s ∈ steps, ∀ n ∈ s.count, n ≤ limit)
    (hlimit : limit + steps.length ≤ 10 ^ Text.maxDigits) : ¬Overruns {} steps :=
  not_overruns_of_le (fun n hn => absurd hn (Option.not_mem_none n)) hcount hlimit

end IceFigures
