import IceFigures.Proofs.Outcomes
import IceFigures.Proofs.Replay
import Mathlib.Algebra.Ring.Int.Defs

/-!
# Marks That Belong Together

Which lists of steps can be unrolled, and what is said of the others. A start
mark and an end mark belong together if the marks between them are balanced
(`Matched`). Steps are refused exactly if some mark belongs to no other: at the
first such end mark if there is one, and otherwise at the last such start mark.

Neither can be read off a player, who goes back at an end mark and opens inner
repeats again on each pass. But a player who stands at a step for the first time
has read balanced steps only, apart from the starts of open repeats (`Stands`),
so the mark that is refused is cut off by what has been read. That a mark cut
off in this way belongs to no other is a matter of counting: balanced steps rise
as often as they fall and never fall below where they began
(`Spells.height_eq_zero`, `Spells.height_nonneg`).

## Main definitions

* `Balanced`: Steps that passages are written as.
* `Matched`: Two marks that belong together.
* `LooseEnd`, `LooseStart`: Marks that belong to no other.
* `height`: Start marks less end marks.
* `Settled`: A mark that belongs to another one.
* `EndsMatched`: Steps without loose end marks.
* `Refused`: How steps that cannot be unrolled are cut at the mark at fault.
* `AtFault`: The mark at fault, among the loose ones.
* `Player.Next`: Playing on by one step.

## Theorems

* `Spells.settled`: In balanced steps every mark belongs to another.
* `refused_of_gather`: Where gathering stops.
* `unrollSteps_eq_error_iff`: Which steps are refused, and for which mark.
* `exists_error_iff`: Steps are refused exactly if they are not balanced.
* `Player.acc_of_plays`: Playing comes to an end.
* `Player.reaches_body`: A balanced body is played through.
* `plays_of_marks`: Playing any steps.
-/

namespace IceFigures

open Passage (Spells gather)

/-- Steps whose marks are balanced. -/
def Balanced (steps : List Step) : Prop :=
  ∃ ps, Spells ps steps

/-- The start mark at one index and the end mark at another belong together: what
    stands between them is balanced. -/
def Matched (steps : List Step) (i j : Nat) : Prop :=
  ∃ (before inner behind : List Step) (start stop : Step) (mark : RepeatEnd),
    steps = before ++ start :: (inner ++ stop :: behind) ∧ start.move = .repeatStart ∧
      stop.move = .repeatEnd mark ∧ Balanced inner ∧
      i = before.length ∧ j = before.length + 1 + inner.length

/-- An end mark that no start mark belongs to. -/
structure LooseEnd (steps : List Step) (j : Nat) (s : Step) : Prop where
  get : steps[j]? = some s
  isEnd : ∃ mark, s.move = .repeatEnd mark
  unmatched : ∀ i, ¬Matched steps i j

/-- A start mark that no end mark belongs to. -/
structure LooseStart (steps : List Step) (i : Nat) (s : Step) : Prop where
  get : steps[i]? = some s
  isStart : s.move = .repeatStart
  unmatched : ∀ j, ¬Matched steps i j

/-! ### Counting marks -/

/-- One for a start mark, minus one for an end mark. -/
def Step.rise (s : Step) : Int :=
  match s.move with
  | .repeatStart => 1
  | .repeatEnd _ => -1
  | _ => 0

/-- The number of start marks less that of end marks. -/
def height (steps : List Step) : Int :=
  (steps.map Step.rise).sum

theorem Step.rise_start {s : Step} (h : s.move = .repeatStart) : s.rise = 1 := by
  rw [rise, h]

theorem Step.rise_end {s : Step} {mark : RepeatEnd} (h : s.move = .repeatEnd mark) :
    s.rise = -1 := by
  rw [rise, h]

theorem Step.rise_step {s : Step} (h : s.move.isMark = false) : s.rise = 0 := by
  rcases s with ⟨m, place, count, duration⟩
  cases m with
  | repeatStart => exact Bool.noConfusion h
  | repeatEnd mark => exact Bool.noConfusion h
  | _ => rfl

@[simp]
theorem height_nil : height [] = 0 := rfl

@[simp]
theorem height_cons (s : Step) (steps : List Step) :
    height (s :: steps) = s.rise + height steps := by
  rw [height, List.map_cons, List.sum_cons, height]

@[simp]
theorem height_append (as bs : List Step) : height (as ++ bs) = height as + height bs := by
  rw [height, List.map_append, List.sum_append, height, height]

/-- Balanced steps rise as often as they fall. -/
theorem Passage.Spells.height_eq_zero {ps : List Passage} {seg : List Step} (h : Spells ps seg) :
    height seg = 0 := by
  induction h with
  | nil => rfl
  | step hs _ ih => rw [height_cons, Step.rise_step hs, ih, Int.add_zero]
  | block hstart _ hstop _ hbody ih =>
      rw [height_cons, height_append, height_cons, Step.rise_start hstart, Step.rise_end hstop,
        hbody, ih]
      rfl

-- By induction on the passages. A cut in a block is in its body, where the block
-- has risen once, or behind it, where that is made up for.
theorem Passage.Spells.height_nonneg {ps : List Passage} {seg : List Step} (h : Spells ps seg)
    {before behind : List Step} (hcut : seg = before ++ behind) : 0 ≤ height before := by
  induction h generalizing before behind with
  | nil =>
      rw [(List.append_eq_nil_iff.1 hcut.symm).1]
      exact Int.le_refl 0
  | step hs _ ih =>
      rcases List.cons_eq_append_iff.1 hcut with ⟨rfl, -⟩ | ⟨before', rfl, hrest⟩
      · exact Int.le_refl 0
      · rw [height_cons, Step.rise_step hs, Int.zero_add]
        exact ih hrest
  | @block start stop mark body ps inner rest hstart hbody hstop _ ihbody ih =>
      rcases List.cons_eq_append_iff.1 hcut with ⟨rfl, -⟩ | ⟨before', rfl, hrest⟩
      · exact Int.le_refl 0
      rw [height_cons, Step.rise_start hstart]
      rcases List.append_eq_append_iff.1 hrest with ⟨past, rfl, hpast⟩ | ⟨left, hinner, -⟩
      · rw [height_append, hbody.height_eq_zero]
        rcases List.cons_eq_append_iff.1 hpast with ⟨rfl, -⟩ | ⟨past', rfl, hlater⟩
        · rw [height_nil]
          omega
        · have hheight := ih hlater
          rw [height_cons, Step.rise_end hstop]
          omega
      · have hheight := ihbody hinner
        omega

/-- Balanced steps do not end in an open repeat. -/
theorem not_balanced_of_start {before inner : List Step} {start : Step}
    (hstart : start.move = .repeatStart) (hinner : Balanced inner) :
    ¬Balanced (before ++ start :: inner) := by
  rintro ⟨ps, h⟩
  rcases hinner with ⟨qs, hq⟩
  have hall := h.height_eq_zero
  have hbefore := h.height_nonneg rfl
  rw [height_append, height_cons, Step.rise_start hstart, hq.height_eq_zero] at hall
  omega

/-- Balanced steps do not begin with the end of a repeat. -/
theorem not_balanced_of_end {inner behind : List Step} {stop : Step} {mark : RepeatEnd}
    (hstop : stop.move = .repeatEnd mark) (hinner : Balanced inner) :
    ¬Balanced (inner ++ stop :: behind) := by
  rintro ⟨ps, h⟩
  rcases hinner with ⟨qs, hq⟩
  have hcut : inner ++ stop :: behind = (inner ++ [stop]) ++ behind := by
    rw [List.append_assoc, List.singleton_append]
  have hheight := h.height_nonneg hcut
  rw [height_append, height_cons, Step.rise_end hstop, hq.height_eq_zero, height_nil] at hheight
  omega

/-! ### Marks that belong together -/

theorem Matched.get_start {steps : List Step} {i j : Nat} (h : Matched steps i j) :
    ∃ s, steps[i]? = some s ∧ s.move = .repeatStart := by
  rcases h with ⟨before, inner, behind, start, stop, mark, rfl, hstart, -, -, rfl, -⟩
  exact ⟨start, Player.getElem?_length_append _ _ _, hstart⟩

theorem Matched.get_end {steps : List Step} {i j : Nat} (h : Matched steps i j) :
    ∃ s mark, steps[j]? = some s ∧ s.move = .repeatEnd mark := by
  rcases h with ⟨before, inner, behind, start, stop, mark, rfl, -, hstop, -, -, rfl⟩
  refine ⟨stop, mark, ?_, hstop⟩
  have hcut : before ++ start :: (inner ++ stop :: behind) =
      (before ++ start :: inner) ++ stop :: behind := by
    rw [List.append_assoc, List.cons_append]
  have hlength : before.length + 1 + inner.length = (before ++ start :: inner).length := by
    rw [List.length_append, List.length_cons]
    omega
  rw [hcut, hlength]
  exact Player.getElem?_length_append _ _ _

/-- Marks belong together whatever stands behind them. -/
theorem Matched.append {seg : List Step} {i j : Nat} (h : Matched seg i j) (behind : List Step) :
    Matched (seg ++ behind) i j := by
  rcases h with ⟨before, inner, behind', start, stop, mark, rfl, hstart, hstop, hinner, rfl, rfl⟩
  refine ⟨before, inner, behind' ++ behind, start, stop, mark, ?_, hstart, hstop, hinner, rfl, rfl⟩
  simp only [List.append_assoc, List.cons_append]

/-- Marks belong together whatever stands in front of them. -/
theorem Matched.behind {seg : List Step} {i j : Nat} (h : Matched seg i j) (before : List Step)
    (s : Step) : Matched (before ++ s :: seg) (before.length + 1 + i) (before.length + 1 + j) := by
  rcases h with ⟨before', inner, behind, start, stop, mark, rfl, hstart, hstop, hinner, rfl, rfl⟩
  refine ⟨before ++ s :: before', inner, behind, start, stop, mark, ?_, hstart, hstop, hinner, ?_,
    ?_⟩
  · simp only [List.append_assoc, List.cons_append]
  · rw [List.length_append, List.length_cons]
    omega
  · rw [List.length_append, List.length_cons]
    omega

/-- A mark that belongs to a start mark in front of it or to an end mark behind
    it. -/
def Settled (steps : List Step) (k : Nat) : Prop :=
  ∃ i, Matched steps i k ∨ Matched steps k i

theorem Settled.append {seg : List Step} {k : Nat} (h : Settled seg k) (behind : List Step) :
    Settled (seg ++ behind) k := by
  rcases h with ⟨i, h | h⟩
  · exact ⟨i, Or.inl (h.append behind)⟩
  · exact ⟨i, Or.inr (h.append behind)⟩

theorem Settled.behind {seg : List Step} {k : Nat} (h : Settled seg k) (before : List Step)
    (s : Step) : Settled (before ++ s :: seg) (before.length + 1 + k) := by
  rcases h with ⟨i, h | h⟩
  · exact ⟨before.length + 1 + i, Or.inl (h.behind before s)⟩
  · exact ⟨before.length + 1 + i, Or.inr (h.behind before s)⟩

theorem LooseEnd.not_settled {steps : List Step} {k : Nat} {s : Step} (h : LooseEnd steps k s) :
    ¬Settled steps k := by
  rintro ⟨i, hmatched | hmatched⟩
  · exact h.unmatched i hmatched
  · -- A start mark stands at `k` then, but it is an end mark.
    rcases hmatched.get_start with ⟨t, ht, hstart⟩
    rcases h.isEnd with ⟨mark, hend⟩
    rw [h.get, Option.some.injEq] at ht
    rw [← ht, hend] at hstart
    cases hstart

theorem LooseStart.not_settled {steps : List Step} {k : Nat} {s : Step}
    (h : LooseStart steps k s) : ¬Settled steps k := by
  rintro ⟨i, hmatched | hmatched⟩
  · rcases hmatched.get_end with ⟨t, mark, ht, hend⟩
    rw [h.get, Option.some.injEq] at ht
    rw [← ht, h.isStart] at hend
    cases hend
  · exact h.unmatched i hmatched

/-- A step is in front of a given one, or is that one, or is behind it. -/
theorem getElem?_append_cons_cases {before behind : List Step} {s t : Step} {k : Nat}
    (h : (before ++ s :: behind)[k]? = some t) :
    k < before.length ∧ before[k]? = some t ∨ k = before.length ∧ s = t ∨
      ∃ l, k = before.length + 1 + l ∧ behind[l]? = some t := by
  rcases Nat.lt_trichotomy k before.length with hk | rfl | hk
  · rw [List.getElem?_append_left hk] at h
    exact Or.inl ⟨hk, h⟩
  · rw [Player.getElem?_length_append, Option.some.injEq] at h
    exact Or.inr (Or.inl ⟨rfl, h⟩)
  · obtain ⟨l, rfl⟩ : ∃ l, k = before.length + 1 + l := ⟨k - (before.length + 1), by omega⟩
    have hindex : before.length + 1 + l - before.length = l + 1 := by omega
    rw [List.getElem?_append_right (by omega), hindex, List.getElem?_cons_succ] at h
    exact Or.inr (Or.inr ⟨l, rfl, h⟩)

/-- In balanced steps every mark belongs to another one. -/
theorem Passage.Spells.settled {ps : List Passage} {seg : List Step} (h : Spells ps seg) {k : Nat}
    {s : Step} (hget : seg[k]? = some s) (hs : s.move.isMark = true) : Settled seg k := by
  induction h generalizing k with
  | nil =>
      rw [List.getElem?_nil] at hget
      cases hget
  | @step t ps rest ht _ ih =>
      rw [← List.nil_append (t :: rest)] at hget ⊢
      rcases getElem?_append_cons_cases hget with ⟨hk, -⟩ | ⟨-, rfl⟩ | ⟨l, rfl, hl⟩
      · exact absurd hk (Nat.not_lt_zero k)
      · rw [hs] at ht
        cases ht
      · exact (ih hl).behind [] t
  | @block start stop mark body ps inner rest hstart hbody hstop _ ihbody ih =>
      have hpair : Matched (start :: (inner ++ stop :: rest)) 0 (inner.length + 1) :=
        ⟨[], inner, rest, start, stop, mark, rfl, hstart, hstop, ⟨body, hbody⟩, rfl, by
          rw [List.length_nil]; omega⟩
      cases k with
      | zero => exact ⟨_, Or.inr hpair⟩
      | succ k =>
          rw [List.getElem?_cons_succ] at hget
          have hstep : Settled (inner ++ stop :: rest) k →
              Settled (start :: (inner ++ stop :: rest)) (k + 1) := by
            intro hsettled
            have hbehind := hsettled.behind [] start
            rwa [List.length_nil, Nat.zero_add, Nat.add_comm] at hbehind
          rcases getElem?_append_cons_cases hget with ⟨-, hk⟩ | ⟨rfl, -⟩ | ⟨l, rfl, hl⟩
          · exact hstep ((ihbody hk).append _)
          · exact ⟨0, Or.inl hpair⟩
          · exact hstep ((ih hl).behind inner stop)

/-! ### Where gathering stops -/

/-- Steps in which every end mark belongs to a start mark. -/
def EndsMatched (steps : List Step) : Prop :=
  ∀ k s, ¬LooseEnd steps k s

/-- How steps that cannot be unrolled are cut at the mark at fault: what stands
    in front of an end mark is balanced, or what stands behind a start mark. -/
inductive Refused (steps : List Step) : Diagnostic → Prop
  | atEnd {seg behind : List Step} {s : Step} {mark : RepeatEnd}
      (hsteps : steps = seg ++ s :: behind) (hseg : Balanced seg) (hs : s.move = .repeatEnd mark) :
      Refused steps { place := s.place.getD {}, fault := .unmatchedEnd }
  | atStart {before inner : List Step} {s : Step} (hsteps : steps = before ++ s :: inner)
      (hbefore : EndsMatched before) (hs : s.move = .repeatStart) (hinner : Balanced inner) :
      Refused steps { place := s.place.getD {}, fault := .unmatchedStart }

theorem endsMatched_of_balanced {steps : List Step} (h : Balanced steps) : EndsMatched steps := by
  intro k s hloose
  rcases h with ⟨ps, hspells⟩
  rcases hloose.isEnd with ⟨mark, hs⟩
  exact hloose.not_settled (hspells.settled hloose.get (by rw [hs]; rfl))

/-- End marks are matched in front of an open repeat and inside it. -/
theorem EndsMatched.append_start {before inner : List Step} {start : Step}
    (hbefore : EndsMatched before) (hstart : start.move = .repeatStart)
    (hinner : EndsMatched inner) : EndsMatched (before ++ start :: inner) := by
  intro k s hloose
  rcases getElem?_append_cons_cases hloose.get with ⟨-, hk⟩ | ⟨-, rfl⟩ | ⟨l, rfl, hl⟩
  · exact hbefore k s ⟨hk, hloose.isEnd, fun i hi => hloose.unmatched i (hi.append _)⟩
  · rcases hloose.isEnd with ⟨mark, hend⟩
    rw [hstart] at hend
    cases hend
  · exact hinner l s ⟨hl, hloose.isEnd, fun i hi => hloose.unmatched _ (hi.behind before start)⟩

/-- Where a player stands for the first time, all end marks read are matched. -/
theorem endsMatched_of_stands {opens : List Open} {sofar : List Passage}
    {starts : List (Nat × Nat)} {read copies : List Step}
    (h : Player.Stands opens sofar starts read copies) : EndsMatched read := by
  induction h with
  | outside hread => exact endsMatched_of_balanced ⟨_, hread⟩
  | inside _ hstart _ hread ih => exact ih.append_start hstart (endsMatched_of_balanced ⟨_, hread⟩)

-- By induction on the steps that have not been met yet, as a player meets them.
theorem refused_of_gather {opens : List Open} {sofar : List Passage} {starts : List (Nat × Nat)}
    {read copies rest : List Step} {d : Diagnostic}
    (h : Player.Stands opens sofar starts read copies)
    (hgather : gather opens sofar rest = .error d) : Refused (read ++ rest) d := by
  induction rest generalizing opens sofar starts read copies with
  | nil =>
      cases h with
      | outside hread =>
          rw [gather] at hgather
          cases hgather
      | inside houter hstart hplace hread =>
          rw [gather, Except.error.injEq, ← hplace] at hgather
          rw [List.append_nil, ← hgather]
          exact .atStart rfl (endsMatched_of_stands houter) hstart ⟨_, hread⟩
  | cons s rest ih =>
      have hread : read ++ [s] ++ rest = read ++ s :: rest := by
        rw [List.append_assoc, List.singleton_append]
      cases hmove : s.move with
      | repeatStart =>
          rw [Passage.gather_start hmove] at hgather
          rw [← hread]
          exact ih (Player.stands_start h hmove) hgather
      | repeatEnd mark =>
          cases opens with
          | nil =>
              cases h with
              | outside hspells =>
                  rw [gather, hmove, Except.error.injEq] at hgather
                  rw [← hgather]
                  exact .atEnd rfl ⟨_, hspells⟩ hmove
          | cons o outer =>
              rcases Player.reaches_end h hmove (rfl : read ++ s :: rest = _) with
                ⟨starts', copies', hstands, -⟩
              rw [Passage.gather_end hmove] at hgather
              rw [← hread]
              exact ih hstands hgather
      | _ =>
          have hmark : s.move.isMark = false := by rw [hmove]; rfl
          rw [Passage.gather_step hmark] at hgather
          rw [← hread]
          exact ih (Player.stands_cons h (.step hmark .nil)) hgather

/-! ### Which steps are refused -/

theorem unrollSteps_eq_ok {steps copies : List Step} (h : unrollSteps steps = .ok copies) :
    Balanced steps := by
  rw [unrollSteps] at h
  rcases map_eq_ok.1 h with ⟨ps, hps, -⟩
  exact ⟨ps, Passage.ofSteps_eq_ok_iff.1 hps⟩

theorem refused_of_unrollSteps {steps : List Step} {d : Diagnostic}
    (h : unrollSteps steps = .error d) : Refused steps d := by
  rw [unrollSteps, Passage.ofSteps] at h
  cases hgather : gather [] [] steps with
  | error e =>
      rw [hgather, Except.map, Except.error.injEq] at h
      rw [← h]
      exact refused_of_gather Player.stands_nil hgather
  | ok ps =>
      rw [hgather, Except.map] at h
      cases h

/-- In refused steps the mark at fault belongs to no other: it is the first end
    mark of that kind, or the last start mark of that kind if all end marks are
    matched. -/
inductive AtFault (steps : List Step) : Diagnostic → Prop
  | atEnd {j : Nat} {s : Step} (hloose : LooseEnd steps j s)
      (hfirst : ∀ k < j, ∀ t, ¬LooseEnd steps k t) :
      AtFault steps { place := s.place.getD {}, fault := .unmatchedEnd }
  | atStart {i : Nat} {s : Step} (hloose : LooseStart steps i s)
      (hends : ∀ k t, ¬LooseEnd steps k t) (hlast : ∀ k > i, ∀ t, ¬LooseStart steps k t) :
      AtFault steps { place := s.place.getD {}, fault := .unmatchedStart }

/-- The end mark that follows balanced steps belongs to no start mark. -/
theorem looseEnd_of_balanced {seg behind : List Step} {s : Step} {mark : RepeatEnd}
    (hseg : Balanced seg) (hs : s.move = .repeatEnd mark) :
    LooseEnd (seg ++ s :: behind) seg.length s := by
  refine ⟨Player.getElem?_length_append _ _ _, ⟨mark, hs⟩, ?_⟩
  rintro i ⟨before, inner, behind', start, stop, mark', hcut, hstart, -, hinner, -, hlength⟩
  -- The partner would stand in `seg`, with balanced steps between the two.
  have hcut' : seg ++ s :: behind = (before ++ start :: inner) ++ stop :: behind' := by
    rw [hcut, List.append_assoc, List.cons_append]
  have hseg' : seg = before ++ start :: inner := by
    refine (List.append_inj hcut' ?_).1
    rw [List.length_append, List.length_cons]
    omega
  rw [hseg'] at hseg
  exact not_balanced_of_start hstart hinner hseg

/-- The start mark in front of balanced steps that go on to the end belongs to no
    end mark. -/
theorem looseStart_of_balanced {before inner : List Step} {s : Step} (hs : s.move = .repeatStart)
    (hinner : Balanced inner) : LooseStart (before ++ s :: inner) before.length s := by
  refine ⟨Player.getElem?_length_append _ _ _, hs, ?_⟩
  rintro j ⟨before', inner', behind, start, stop, mark, hcut, -, hstop, hinner', hlength, -⟩
  have htail := List.cons.inj (List.append_inj hcut hlength).2
  rw [htail.2] at hinner
  exact not_balanced_of_end hstop hinner' hinner

theorem Refused.atFault {steps : List Step} {d : Diagnostic} (h : Refused steps d) :
    AtFault steps d := by
  cases h with
  | @atEnd seg behind s mark hsteps hseg hs =>
      subst hsteps
      refine .atEnd (looseEnd_of_balanced hseg hs) fun k hk t hloose => ?_
      have hget := hloose.get
      rw [List.getElem?_append_left hk] at hget
      exact endsMatched_of_balanced hseg k t
        ⟨hget, hloose.isEnd, fun i hi => hloose.unmatched i (hi.append _)⟩
  | @atStart before inner s hsteps hbefore hs hinner =>
      subst hsteps
      refine .atStart (looseStart_of_balanced hs hinner)
        (hbefore.append_start hs (endsMatched_of_balanced hinner)) fun k hk t hloose => ?_
      rcases hinner with ⟨ps, hspells⟩
      rcases getElem?_append_cons_cases hloose.get with ⟨hlt, -⟩ | ⟨rfl, -⟩ | ⟨l, rfl, hl⟩
      · omega
      · omega
      · have hmark : t.move.isMark = true := by
          rw [hloose.isStart]
          rfl
        exact hloose.not_settled ((hspells.settled hl hmark).behind before s)

/-- The mark at fault is settled by the steps. -/
theorem AtFault.unique {steps : List Step} {d e : Diagnostic} (h : AtFault steps d)
    (h' : AtFault steps e) : d = e := by
  cases h with
  | @atEnd j s hloose hfirst =>
      cases h' with
      | @atEnd k t hloose' hfirst' =>
          obtain rfl : j = k := by
            rcases Nat.lt_trichotomy j k with hjk | hjk | hjk
            · exact absurd hloose (hfirst' j hjk s)
            · exact hjk
            · exact absurd hloose' (hfirst k hjk t)
          obtain rfl : s = t := Option.some.inj (hloose.get.symm.trans hloose'.get)
          rfl
      | atStart _ hends _ => exact absurd hloose (hends j s)
  | @atStart i s hloose hends hlast =>
      cases h' with
      | @atEnd k t hloose' _ => exact absurd hloose' (hends k t)
      | @atStart k t hloose' _ hlast' =>
          obtain rfl : i = k := by
            rcases Nat.lt_trichotomy i k with hik | hik | hik
            · exact absurd hloose' (hlast k hik t)
            · exact hik
            · exact absurd hloose (hlast' i hik s)
          obtain rfl : s = t := Option.some.inj (hloose.get.symm.trans hloose'.get)
          rfl

/-- Balanced steps have no mark at fault. -/
theorem not_atFault_of_balanced {steps : List Step} (h : Balanced steps) (d : Diagnostic) :
    ¬AtFault steps d := by
  intro hfault
  cases hfault with
  | atEnd hloose _ => exact endsMatched_of_balanced h _ _ hloose
  | atStart hloose _ _ =>
      rcases h with ⟨ps, hspells⟩
      exact hloose.not_settled (hspells.settled hloose.get (by rw [hloose.isStart]; rfl))

/-- Steps are refused for the mark at fault, and only if there is one. -/
theorem unrollSteps_eq_error_iff {steps : List Step} {d : Diagnostic} :
    unrollSteps steps = .error d ↔ AtFault steps d := by
  constructor
  · exact fun h => (refused_of_unrollSteps h).atFault
  · intro h
    cases hunroll : unrollSteps steps with
    | ok copies => exact absurd h (not_atFault_of_balanced (unrollSteps_eq_ok hunroll) d)
    | error e => rw [h.unique (refused_of_unrollSteps hunroll).atFault]

/-- Steps are refused if and only if they are not balanced. -/
theorem exists_error_iff {steps : List Step} :
    (∃ d, unrollSteps steps = .error d) ↔ ¬Balanced steps := by
  constructor
  · rintro ⟨d, h⟩ hbalanced
    exact not_atFault_of_balanced hbalanced d (unrollSteps_eq_error_iff.1 h)
  · intro h
    cases hunroll : unrollSteps steps with
    | ok copies => exact absurd (unrollSteps_eq_ok hunroll) h
    | error d => exact ⟨d, rfl⟩

/-! ### Playing comes to an end -/

/-- Playing on by one step. -/
def Player.Next (steps : List Step) (p q : Player) : Prop :=
  ∃ s, steps[p.next]? = some s ∧ p.meet s = .ok q

/-- A player who plays to the end cannot play on forever. -/
theorem Player.acc_of_plays {steps : List Step} {p : Player}
    {outcome : Except Diagnostic (List Step)} (h : Plays steps p outcome) :
    Acc (fun q p => Next steps p q) p := by
  induction h with
  | finish hend =>
      refine Acc.intro _ fun q hq => ?_
      rcases hq with ⟨s, hs, -⟩
      rw [hend] at hs
      cases hs
  | refuse hs hmeet =>
      refine Acc.intro _ fun q hq => ?_
      rcases hq with ⟨t, ht, hmeet'⟩
      rw [hs, Option.some.injEq] at ht
      rw [← ht, hmeet] at hmeet'
      cases hmeet'
  | step hs hmeet _ ih =>
      refine Acc.intro _ fun q hq => ?_
      rcases hq with ⟨t, ht, hmeet'⟩
      rw [hs, Option.some.injEq] at ht
      rw [← ht, hmeet, Except.ok.injEq] at hmeet'
      rwa [← hmeet']

/-- A player goes through a balanced body to its end, from any open repeats and
    with either flag, so no mark in it is refused. -/
theorem Player.reaches_body {before body behind : List Step} (h : Balanced body)
    (starts : List (Nat × Nat)) (flipped : Bool) (copies : List Step) :
    ∃ flipped' made, Reaches (before ++ (body ++ behind)) ⟨before.length, starts, flipped, copies⟩
      ⟨before.length + body.length, starts, flipped', copies ++ made⟩ := by
  rcases h with ⟨ps, hspells⟩
  exact ⟨_, _, follows_spells hspells rfl starts flipped copies⟩

/-- Playing any steps comes to an end, and comes out as unrolling them. They are
    refused if and only if they are not balanced, for the first end mark that
    belongs to no start mark, or else for the last start mark that belongs to no
    end mark. A body that is balanced is played through on every pass. -/
theorem plays_of_marks (steps : List Step) :
    Acc (fun q p => Player.Next steps p q) {} ∧
      (∀ outcome, Player.Plays steps {} outcome ↔ outcome = unrollSteps steps) ∧
      ((∃ d, unrollSteps steps = .error d) ↔ ¬Balanced steps) ∧
      (∀ d, unrollSteps steps = .error d ↔ AtFault steps d) ∧
      Fault.unmatchedEnd.message = "found end of repeat when no repeat in progress!" ∧
      Fault.unmatchedStart.message = "found end of input with repeat still pending!" ∧
      ∀ before body behind, steps = before ++ (body ++ behind) → Balanced body →
        ∀ starts flipped copies, ∃ flipped' made,
          Player.Reaches steps ⟨before.length, starts, flipped, copies⟩
            ⟨before.length + body.length, starts, flipped', copies ++ made⟩ := by
  refine ⟨Player.acc_of_plays ((Player.plays_iff steps _).2 rfl), Player.plays_iff steps,
    exists_error_iff, fun d => unrollSteps_eq_error_iff, rfl, rfl, ?_⟩
  intro before body behind hsteps hbody starts flipped copies
  subst hsteps
  exact Player.reaches_body hbody starts flipped copies

end IceFigures
