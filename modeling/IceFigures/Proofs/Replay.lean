import IceFigures.Proofs.Alternation
import Mathlib.Data.List.Forall2

/-!
# Playing from Repeat Marks

Repeats can be unrolled without putting them into blocks first, the way a
musician plays them. A player keeps a finger on the next step and remembers for
every repeat that is still open where it started and which pass it is in. At an
end mark the player goes back behind the start mark, or on if all passes are
over.

`plays_iff` says that this comes out as `unrollSteps` does, for balanced marks
and for others. The player meets the end mark of a repeat for the first time
when its first pass is over, with the repeats around it in their first pass as
well (`Stands`). What is left of its passes is then played in one go
(`reaches_behind_end`), and nested repeats inside it are played as blocks are
unrolled (`follows_spells`).

What balanced marks stand for is said without a player and without a flag:
`Passage.Spells` relates passages to the steps that they are written as, and
`Passage.copies` lists the copies of steps with the repeats around each.

## Main definitions

* `Move.isMark`: Whether a move is a repeat mark.
* `Passage.Spells`: Passages and the steps that they are written as.
* `Step.IsCopy`: A step or its mirror image, in a pass.
* `Player`: How far the steps have been played.
* `Player.meet`: What a player does at a step.
* `Player.Reaches`, `Player.Plays`: Playing on, and playing to the end.
* `Player.Follows`: Making the copies of a body between two steps.
* `Player.Stands`: Where a player stands when a step is met for the first time.

## Theorems

* `ofSteps_of_spells`: Passages are gathered from the steps they are written as.
* `forall₂_isCopy_unrollAll`: What passages are unrolled to.
* `reaches_behind_end`: The passes of a repeat that are left.
* `follows_spells`: Passages are played as they are unrolled.
* `plays_gather`: Playing on comes out as gathering on.
* `plays_iff`: Steps are played as they are unrolled.
* `Passage.ofSteps_eq_ok_iff`: Which passages are gathered.
* `unrollSteps_of_forall`: Steps without marks are unrolled to themselves.
* `exists_written_of_expand`: What is drawn was written.
* `unrollSteps_spells`: What balanced steps are unrolled to.
-/

namespace IceFigures

/-- Whether a move is a repeat mark. -/
def Move.isMark : Move → Bool
  | .repeatStart => true
  | .repeatEnd _ => true
  | _ => false

theorem Move.isMark_opposite (m : Move) : m.opposite.isMark = m.isMark := by
  cases m <;> rfl

namespace Passage

/-! ### Balanced marks -/

/-- Passages and the steps that they are written as, a block between its marks. -/
inductive Spells : List Passage → List Step → Prop
  | nil : Spells [] []
  | step {s : Step} {ps : List Passage} {rest : List Step} (hs : s.move.isMark = false)
      (hrest : Spells ps rest) : Spells (.step s :: ps) (s :: rest)
  | block {start stop : Step} {mark : RepeatEnd} {body ps : List Passage}
      {inner rest : List Step} (hstart : start.move = .repeatStart) (hbody : Spells body inner)
      (hstop : stop.move = .repeatEnd mark) (hrest : Spells ps rest) :
      Spells (.block body mark :: ps) (start :: (inner ++ stop :: rest))

theorem Spells.append {ps qs : List Passage} {as bs : List Step} (h : Spells ps as)
    (h' : Spells qs bs) : Spells (ps ++ qs) (as ++ bs) := by
  induction h with
  | nil => exact h'
  | step hs _ ih => exact .step hs ih
  | block hstart hbody hstop _ _ ih =>
      rw [List.cons_append, List.cons_append, List.append_assoc, List.cons_append]
      exact .block hstart hbody hstop ih

theorem gather_step {s : Step} (hs : s.move.isMark = false) (opens : List Open)
    (sofar : List Passage) (rest : List Step) :
    gather opens sofar (s :: rest) = gather opens (.step s :: sofar) rest := by
  rcases s with ⟨m, place, count, duration⟩
  cases m with
  | repeatStart => exact Bool.noConfusion hs
  | repeatEnd mark => exact Bool.noConfusion hs
  | _ => cases opens <;> rfl

theorem gather_start {s : Step} (hs : s.move = .repeatStart) (opens : List Open)
    (sofar : List Passage) (rest : List Step) :
    gather opens sofar (s :: rest) =
      gather ({ place := s.place, earlier := sofar } :: opens) [] rest := by
  cases opens <;> rw [gather, hs]

theorem gather_end {s : Step} {mark : RepeatEnd} (hs : s.move = .repeatEnd mark) (o : Open)
    (outer : List Open) (sofar : List Passage) (rest : List Step) :
    gather (o :: outer) sofar (s :: rest) =
      gather outer (.block sofar.reverse mark :: o.earlier) rest := by
  rw [gather, hs]

theorem gather_spells {ps : List Passage} {seg : List Step} (h : Spells ps seg)
    (opens : List Open) (sofar : List Passage) (rest : List Step) :
    gather opens sofar (seg ++ rest) = gather opens (ps.reverse ++ sofar) rest := by
  induction h generalizing opens sofar rest with
  | nil => rfl
  | step hs _ ih =>
      rw [List.cons_append, gather_step hs, ih, List.reverse_cons, List.append_assoc,
        List.singleton_append]
  | block hstart _ hstop _ hbody ih =>
      rw [List.cons_append, gather_start hstart, List.append_assoc, hbody, List.cons_append,
        gather_end hstop, ih, List.append_nil, List.reverse_reverse, List.reverse_cons,
        List.append_assoc, List.singleton_append]

/-- Passages are gathered from the steps that they are written as. -/
theorem ofSteps_of_spells {ps : List Passage} {steps : List Step} (h : Spells ps steps) :
    ofSteps steps = .ok ps := by
  have hgather := gather_spells h [] [] []
  rw [List.append_nil, List.append_nil] at hgather
  rw [ofSteps, hgather, gather, List.reverse_reverse]

/-- The copies of passages are copies of steps that they are written as. -/
theorem mem_of_mem_copies {ps : List Passage} {steps : List Step} (h : Spells ps steps)
    {around : List (RepeatEnd × Nat)} {c : Step × List (RepeatEnd × Nat)}
    (hc : c ∈ copies around ps) : c.1 ∈ steps ∧ c.1.move.isMark = false := by
  induction h generalizing around with
  | nil =>
      rw [copies] at hc
      exact absurd hc List.not_mem_nil
  | step hs _ ih =>
      rw [copies, List.mem_cons] at hc
      rcases hc with rfl | hc
      · exact ⟨List.mem_cons_self, hs⟩
      · exact ⟨List.mem_cons_of_mem _ (ih hc).1, (ih hc).2⟩
  | block _ _ _ _ hbody ih =>
      rw [copies, List.mem_append, List.mem_flatMap] at hc
      rcases hc with ⟨pass, -, hc⟩ | hc
      · exact ⟨List.mem_cons_of_mem _ (List.mem_append_left _ (hbody hc).1), (hbody hc).2⟩
      · exact ⟨List.mem_cons_of_mem _ (List.mem_append_right _ (List.mem_cons_of_mem _ (ih hc).1)),
          (ih hc).2⟩

end Passage

/-! ### Copies -/

/-- A copy of a step in a pass: the step or its mirror image, at the same row
    and column and with the same count and duration. -/
structure Step.IsCopy (pass : Option Nat) (s t : Step) : Prop where
  move : t.move = s.move ∨ t.move = s.move.opposite
  count : t.count = s.count
  duration : t.duration = s.duration
  place : t.place = s.place.map fun p => { row := p.row, col := p.col, pass := pass }

namespace Passage

theorem isCopy_copy (s : Step) (pass : Option Nat) (flag : Bool) :
    s.IsCopy pass (copy s pass flag) := by
  cases flag with
  | false => exact ⟨Or.inl rfl, rfl, rfl, rfl⟩
  | true => exact ⟨Or.inr rfl, rfl, rfl, rfl⟩

/-- Passes are related to a list pass by pass. -/
theorem forall₂_passes {α : Type} {R : α → Step → Prop}
    {body : Option Nat → Bool → List Step × Bool} {claimed : Nat → List α}
    (h : ∀ pass flag, List.Forall₂ R (claimed pass) (body (some pass) flag).1)
    (alternate : Bool) (more pass : Nat) (flag : Bool) :
    List.Forall₂ R ((List.range' pass (more + 1)).flatMap claimed)
      (passes body alternate more pass flag).1 := by
  induction more generalizing pass flag with
  | zero =>
      rw [passes, List.range'_one, List.flatMap_singleton]
      exact h pass flag
  | succ more ih =>
      rw [passes_succ, List.range'_succ, List.flatMap_cons]
      exact List.rel_append (h pass flag) (ih _ _)

-- By induction into blocks, for all repeats around and either flag: which of the
-- two copies is made is left open.
theorem forall₂_isCopy_unrollAll (ps : List Passage) (around : List (RepeatEnd × Nat))
    (flag : Bool) :
    List.Forall₂ (fun c t => c.1.IsCopy (innermost c.2) t) (copies around ps)
      (unrollAll ps (innermost around) flag).1 := by
  induction ps using passages_induction generalizing around flag with
  | nil =>
      rw [copies]
      exact .nil
  | step s ps ih =>
      rw [copies, unrollAll_cons, unroll_step]
      exact .cons (isCopy_copy s _ flag) (ih around flag)
  | block body mark ps hbody ih =>
      have hcount : mark.count.toNat - 1 + 1 = max 1 mark.count.toNat := by omega
      rw [copies, unrollAll_cons, unroll_block, ← hcount]
      refine List.rel_append ?_ (ih around _)
      exact forall₂_passes (fun pass flag => hbody ((mark, pass) :: around) flag) _ _ _ _

theorem exists_of_forall₂ {α β : Type} {R : α → β → Prop} {as : List α} {bs : List β}
    (h : List.Forall₂ R as bs) {b : β} (hb : b ∈ bs) : ∃ a ∈ as, R a b := by
  induction h with
  | nil => exact absurd hb List.not_mem_nil
  | cons hab _ ih =>
      rcases List.mem_cons.1 hb with rfl | hb
      · exact ⟨_, List.mem_cons_self, hab⟩
      · rcases ih hb with ⟨a, ha, hr⟩
        exact ⟨a, List.mem_cons_of_mem _ ha, hr⟩

theorem unrollAll_append (ps qs : List Passage) (pass : Option Nat) (flag : Bool) :
    unrollAll (ps ++ qs) pass flag =
      ((unrollAll ps pass flag).1 ++ (unrollAll qs pass (unrollAll ps pass flag).2).1,
        (unrollAll qs pass (unrollAll ps pass flag).2).2) := by
  induction ps generalizing flag with
  | nil => rfl
  | cons p ps ih =>
      rw [List.cons_append, unrollAll_cons, ih, unrollAll_cons, List.append_assoc]

end Passage

/-! ### Players -/

/-- How far the steps have been played: which step is next, where the open
    repeats start and which pass they are in, the innermost first, whether steps
    are being flipped, and the copies so far. -/
structure Player where
  next : Nat := 0
  starts : List (Nat × Nat) := []
  flipped : Bool := false
  copies : List Step := []

namespace Player

open Passage (Spells unrollAll passes gather)

/-- The pass of the innermost open repeat. -/
def passOf (starts : List (Nat × Nat)) : Option Nat :=
  starts.head?.map Prod.snd

/-- What a player does at a step. -/
def meet (p : Player) (s : Step) : Except Diagnostic Player :=
  match s.move with
  | .repeatStart => .ok { p with next := p.next + 1, starts := (p.next, 1) :: p.starts }
  | .repeatEnd mark =>
    match p.starts with
    | [] => .error { place := s.place.getD {}, fault := .unmatchedEnd }
    | (start, pass) :: outer =>
      if mark.count < pass + 1 then
        .ok { p with next := p.next + 1, starts := outer, flipped := false }
      else
        .ok { p with next := start + 1, starts := (start, pass + 1) :: outer,
                     flipped := p.flipped != mark.alternate }
  | _ =>
    .ok { p with next := p.next + 1,
                 copies := p.copies ++ [Passage.copy s (passOf p.starts) p.flipped] }

/-- What a player has when no step is left: the copies, unless a repeat is still
    open. -/
def finish (steps : List Step) (p : Player) : Except Diagnostic (List Step) :=
  match p.starts with
  | [] => .ok p.copies
  | (start, _) :: _ =>
    .error { place := (steps[start]?.bind Step.place).getD {}, fault := .unmatchedStart }

/-- Playing on from one state to another. -/
inductive Reaches (steps : List Step) : Player → Player → Prop
  | refl (p : Player) : Reaches steps p p
  | step {p q r : Player} {s : Step} (hs : steps[p.next]? = some s) (hmeet : p.meet s = .ok q)
      (hrest : Reaches steps q r) : Reaches steps p r

/-- Playing to the end of the steps, or to a mark that cannot be followed. -/
inductive Plays (steps : List Step) : Player → Except Diagnostic (List Step) → Prop
  | finish {p : Player} (hend : steps[p.next]? = none) : Plays steps p (p.finish steps)
  | refuse {p : Player} {s : Step} {d : Diagnostic} (hs : steps[p.next]? = some s)
      (hmeet : p.meet s = .error d) : Plays steps p (.error d)
  | step {p q : Player} {s : Step} {outcome : Except Diagnostic (List Step)}
      (hs : steps[p.next]? = some s) (hmeet : p.meet s = .ok q) (hrest : Plays steps q outcome) :
      Plays steps p outcome

variable {steps : List Step}

theorem reaches_trans {p q r : Player} (h : Reaches steps p q) (h' : Reaches steps q r) :
    Reaches steps p r := by
  induction h with
  | refl p => exact h'
  | step hs hmeet _ ih => exact .step hs hmeet (ih h')

theorem reaches_one {p q : Player} {s : Step} (hs : steps[p.next]? = some s)
    (hmeet : p.meet s = .ok q) : Reaches steps p q :=
  .step hs hmeet (.refl q)

theorem plays_of_reaches {p q : Player} {outcome : Except Diagnostic (List Step)}
    (h : Reaches steps p q) (hplays : Plays steps q outcome) : Plays steps p outcome := by
  induction h with
  | refl p => exact hplays
  | step hs hmeet _ ih => exact .step hs hmeet (ih hplays)

/-- Playing comes out in one way. -/
theorem plays_unique {p : Player} {outcome outcome' : Except Diagnostic (List Step)}
    (h : Plays steps p outcome) (h' : Plays steps p outcome') : outcome = outcome' := by
  induction h with
  | finish hend =>
      cases h' with
      | finish _ => rfl
      | refuse hs _ => rw [hend] at hs; cases hs
      | step hs _ _ => rw [hend] at hs; cases hs
  | refuse hs hmeet =>
      cases h' with
      | finish hend => rw [hend] at hs; cases hs
      | refuse hs' hmeet' =>
          rw [hs] at hs'
          cases hs'
          rw [hmeet] at hmeet'
          cases hmeet'
          rfl
      | step hs' hmeet' _ =>
          rw [hs] at hs'
          cases hs'
          rw [hmeet] at hmeet'
          cases hmeet'
  | step hs hmeet _ ih =>
      cases h' with
      | finish hend => rw [hend] at hs; cases hs
      | refuse hs' hmeet' =>
          rw [hs] at hs'
          cases hs'
          rw [hmeet] at hmeet'
          cases hmeet'
      | step hs' hmeet' hrest' =>
          rw [hs] at hs'
          cases hs'
          rw [hmeet] at hmeet'
          cases hmeet'
          exact ih hrest'

/-! ### What a player does at a step -/

theorem meet_step {s : Step} (hs : s.move.isMark = false) (p : Player) :
    p.meet s = .ok
      { p with next := p.next + 1,
               copies := p.copies ++ [Passage.copy s (passOf p.starts) p.flipped] } := by
  rcases s with ⟨m, place, count, duration⟩
  cases m with
  | repeatStart => exact Bool.noConfusion hs
  | repeatEnd mark => exact Bool.noConfusion hs
  | _ => rfl

theorem meet_start {s : Step} (hs : s.move = .repeatStart) (p : Player) :
    p.meet s = .ok { p with next := p.next + 1, starts := (p.next, 1) :: p.starts } := by
  rw [meet, hs]

theorem meet_end_last {s : Step} {mark : RepeatEnd} (hs : s.move = .repeatEnd mark)
    {next start pass : Nat} (hlast : mark.count.toNat ≤ pass) (outer : List (Nat × Nat))
    (flipped : Bool) (copies : List Step) :
    meet ⟨next, (start, pass) :: outer, flipped, copies⟩ s =
      .ok ⟨next + 1, outer, false, copies⟩ := by
  rw [meet, hs]
  exact if_pos (by omega)

theorem meet_end_again {s : Step} {mark : RepeatEnd} (hs : s.move = .repeatEnd mark)
    {next start pass : Nat} (hmore : pass < mark.count.toNat) (outer : List (Nat × Nat))
    (flipped : Bool) (copies : List Step) :
    meet ⟨next, (start, pass) :: outer, flipped, copies⟩ s =
      .ok ⟨start + 1, (start, pass + 1) :: outer, flipped != mark.alternate, copies⟩ := by
  rw [meet, hs]
  exact if_neg (by omega)

/-! ### Passages are played as they are unrolled -/

/-- From one step to another a player makes the copies of a body, in the pass and
    with the flag it comes with. -/
def Follows (steps : List Step) (body : Option Nat → Bool → List Step × Bool)
    (start stop : Nat) : Prop :=
  ∀ starts flag copies, Reaches steps ⟨start, starts, flag, copies⟩
    ⟨stop, starts, (body (passOf starts) flag).2, copies ++ (body (passOf starts) flag).1⟩

-- By induction on the passes that are left. A player that stands at the end mark
-- has just gone through the body in some pass.
theorem reaches_behind_end {start stop : Nat} {body : Option Nat → Bool → List Step × Bool}
    (hbody : Follows steps body (start + 1) stop) {s : Step} {mark : RepeatEnd}
    (hget : steps[stop]? = some s) (hs : s.move = .repeatEnd mark) {more pass : Nat}
    (hmore : mark.count.toNat - pass = more) (outer : List (Nat × Nat)) (flag : Bool)
    (copies : List Step) :
    Reaches steps
      ⟨stop, (start, pass) :: outer, (body (some pass) flag).2, copies ++ (body (some pass) flag).1⟩
      ⟨stop + 1, outer, false, copies ++ (passes body mark.alternate more pass flag).1⟩ := by
  induction more generalizing pass flag copies with
  | zero =>
      rw [passes]
      exact reaches_one hget (meet_end_last hs (by omega) _ _ _)
  | succ more ih =>
      have hlt : pass < mark.count.toNat := by omega
      have hmore' : mark.count.toNat - (pass + 1) = more := by omega
      have hagain : Reaches steps
          ⟨stop, (start, pass) :: outer, (body (some pass) flag).2,
            copies ++ (body (some pass) flag).1⟩
          ⟨start + 1, (start, pass + 1) :: outer, (body (some pass) flag).2 != mark.alternate,
            copies ++ (body (some pass) flag).1⟩ :=
        reaches_one hget (meet_end_again hs hlt _ _ _)
      have hlater := ih hmore' ((body (some pass) flag).2 != mark.alternate)
        (copies ++ (body (some pass) flag).1)
      rw [Passage.passes_succ, ← List.append_assoc]
      exact reaches_trans hagain (reaches_trans (hbody _ _ _) hlater)

theorem getElem?_length_append {α : Type} (before : List α) (a : α) (behind : List α) :
    (before ++ a :: behind)[before.length]? = some a := by
  rw [List.getElem?_append_right (Nat.le_refl _), Nat.sub_self, List.getElem?_cons_zero]

/-- A player goes through the steps that passages are written as, and has then
    what the passages are unrolled to. -/
theorem follows_spells {ps : List Passage} {seg : List Step} (h : Spells ps seg)
    {before behind : List Step} (hsteps : steps = before ++ (seg ++ behind)) :
    Follows steps (unrollAll ps) before.length (before.length + seg.length) := by
  induction h generalizing before behind with
  | nil =>
      intro starts flag copies
      rw [Passage.unrollAll, List.append_nil]
      exact .refl _
  | @step s ps rest hs _ ih =>
      intro starts flag copies
      have hget : steps[before.length]? = some s := by
        rw [hsteps]
        exact getElem?_length_append _ _ _
      have hcut : steps = before ++ [s] ++ (rest ++ behind) := by
        rw [hsteps, List.append_assoc, List.singleton_append, List.cons_append]
      have hrest := ih hcut starts flag (copies ++ [Passage.copy s (passOf starts) flag])
      rw [List.length_append, List.length_singleton, Nat.add_assoc, Nat.add_comm 1,
        List.append_assoc] at hrest
      exact .step hget (meet_step hs _) hrest
  | @block start stop mark body ps inner rest hstart _ hstop _ ihbody ih =>
      intro starts flag copies
      have hcut : steps = before ++ [start] ++ (inner ++ stop :: (rest ++ behind)) := by
        rw [hsteps, List.append_assoc, List.cons_append, List.append_assoc, List.cons_append,
          List.singleton_append]
      have hcut' : steps = before ++ [start] ++ inner ++ [stop] ++ (rest ++ behind) := by
        rw [hcut, List.append_assoc _ [stop], List.singleton_append, List.append_assoc _ inner]
      have hlength : (before ++ [start]).length = before.length + 1 := by
        rw [List.length_append, List.length_singleton]
      have hlengthStop : (before ++ [start] ++ inner).length =
          before.length + 1 + inner.length := by
        rw [List.length_append, hlength]
      have hlengthRest : (before ++ [start] ++ inner ++ [stop]).length =
          before.length + 1 + inner.length + 1 := by
        rw [List.length_append, hlengthStop, List.length_singleton]
      have hlengthAll : before.length + 1 + inner.length + 1 + rest.length =
          before.length + (start :: (inner ++ stop :: rest)).length := by
        rw [List.length_cons, List.length_append, List.length_cons]
        omega
      have hget : steps[before.length]? = some start := by
        rw [hcut, List.append_assoc]
        exact getElem?_length_append _ _ _
      have hgetStop : steps[before.length + 1 + inner.length]? = some stop := by
        rw [hcut, ← List.append_assoc, ← hlengthStop]
        exact getElem?_length_append _ _ _
      have hinner := ihbody hcut
      rw [hlength] at hinner
      have hpasses := reaches_behind_end hinner hgetStop hstop
        (rfl : mark.count.toNat - 1 = _) starts flag copies
      have hrest := ih hcut' starts false
        (copies ++ (passes (unrollAll body) mark.alternate (mark.count.toNat - 1) 1 flag).1)
      rw [hlengthRest, hlengthAll, List.append_assoc] at hrest
      rw [Passage.unrollAll_cons, Passage.unroll_block, Passage.passes_snd]
      exact .step hget (meet_start hstart _)
        (reaches_trans (hinner _ flag copies) (reaches_trans hpasses hrest))

/-! ### Marks that are met for the first time -/

/-- Where a player stands when a step is met for the first time: the steps read
    are those of the open repeats, each in its first pass, and of the passages
    so far, and all of them have been played as they are unrolled. -/
inductive Stands : List Open → List Passage → List (Nat × Nat) → List Step → List Step → Prop
  | outside {sofar : List Passage} {read : List Step} (hread : Spells sofar.reverse read) :
      Stands [] sofar [] read (unrollAll sofar.reverse none false).1
  | inside {o : Open} {outer : List Open} {sofar : List Passage} {starts : List (Nat × Nat)}
      {before copies : List Step} {start : Step} {read : List Step}
      (houter : Stands outer o.earlier starts before copies)
      (hstart : start.move = .repeatStart) (hplace : start.place = o.place)
      (hread : Spells sofar.reverse read) :
      Stands (o :: outer) sofar ((before.length, 1) :: starts) (before ++ start :: read)
        (copies ++ (unrollAll sofar.reverse (some 1) false).1)

theorem stands_nil : Stands [] [] [] [] [] :=
  .outside .nil

/-- A repeat that has been opened. -/
theorem stands_start {opens : List Open} {sofar : List Passage} {starts : List (Nat × Nat)}
    {read copies : List Step} (h : Stands opens sofar starts read copies) {s : Step}
    (hs : s.move = .repeatStart) :
    Stands ({ place := s.place, earlier := sofar } :: opens) [] ((read.length, 1) :: starts)
      (read ++ [s]) copies := by
  have hstands : Stands (⟨s.place, sofar⟩ :: opens) [] ((read.length, 1) :: starts) (read ++ [s])
      (copies ++ []) := .inside h hs rfl .nil
  rwa [List.append_nil] at hstands

theorem unrollAll_snd_false (ps : List Passage) (pass : Option Nat) :
    (unrollAll ps pass false).2 = false := by
  rw [Passage.unrollAll_snd, Bool.and_false]

/-- A passage that has been read and played as well. -/
theorem stands_cons {opens : List Open} {sofar : List Passage} {starts : List (Nat × Nat)}
    {read copies : List Step} (h : Stands opens sofar starts read copies) {p : Passage}
    {seg : List Step} (hseg : Spells [p] seg) :
    Stands opens (p :: sofar) starts (read ++ seg)
      (copies ++ (Passage.unroll p (passOf starts) false).1) := by
  have hunroll : ∀ pass, (unrollAll (p :: sofar).reverse pass false).1 =
      (unrollAll sofar.reverse pass false).1 ++ (Passage.unroll p pass false).1 := by
    intro pass
    rw [List.reverse_cons, Passage.unrollAll_append, unrollAll_snd_false, Passage.unrollAll_cons,
      Passage.unrollAll, List.append_nil]
  have hspells : ∀ {read}, Spells sofar.reverse read →
      Spells (p :: sofar).reverse (read ++ seg) := by
    intro read hread
    rw [List.reverse_cons]
    exact hread.append hseg
  cases h with
  | outside hread =>
      have hstands := Stands.outside (hspells hread)
      rw [hunroll] at hstands
      exact hstands
  | inside houter hstart hplace hread =>
      have hstands := Stands.inside houter hstart hplace (hspells hread)
      rw [hunroll, ← List.append_assoc] at hstands
      rw [List.append_assoc, List.cons_append]
      exact hstands

/-- From the end mark of an open repeat a player goes through the passes that are
    left, over steps that have been read, and stands behind the mark then. -/
theorem reaches_end {o : Open} {outer : List Open} {sofar : List Passage}
    {starts : List (Nat × Nat)} {read copies rest : List Step} {s : Step} {mark : RepeatEnd}
    (h : Stands (o :: outer) sofar starts read copies) (hmove : s.move = .repeatEnd mark)
    (hsteps : steps = read ++ s :: rest) :
    ∃ starts' copies', Stands outer (.block sofar.reverse mark :: o.earlier) starts' (read ++ [s])
        copies' ∧
      Reaches steps ⟨read.length, starts, false, copies⟩
        ⟨read.length + 1, starts', false, copies'⟩ := by
  cases h with
  | @inside _ _ _ starts before copies start body houter hstart hplace hbody =>
      have hcut : steps = before ++ [start] ++ (body ++ s :: rest) := by
        rw [hsteps, List.append_assoc, List.append_assoc, List.singleton_append, List.cons_append]
      have hget : steps[(before ++ start :: body).length]? = some s := by
        rw [hsteps]
        exact getElem?_length_append _ _ _
      have hlength : (before ++ [start]).length + body.length =
          (before ++ start :: body).length := by
        rw [← List.length_append, List.append_assoc, List.singleton_append]
      have hfollows := follows_spells hbody hcut
      rw [hlength, List.length_append, List.length_singleton] at hfollows
      have hpasses := reaches_behind_end hfollows hget hmove (rfl : mark.count.toNat - 1 = _)
        starts false copies
      have hstands := stands_cons houter (.block hstart hbody hmove .nil)
      rw [unrollAll_snd_false] at hpasses
      rw [← List.cons_append, ← List.append_assoc] at hstands
      exact ⟨_, _, hstands, hpasses⟩

/-- What steps come out as, given the open repeats and the passages so far. -/
def unrolled (opens : List Open) (sofar : List Passage) (rest : List Step) :
    Except Diagnostic (List Step) :=
  (gather opens sofar rest).map fun ps => (unrollAll ps none false).1

/-- Playing ends with no step left, and with an open repeat if there is one. -/
theorem plays_nil {opens : List Open} {sofar : List Passage} {starts : List (Nat × Nat)}
    {copies : List Step} (h : Stands opens sofar starts steps copies) :
    Plays steps ⟨steps.length, starts, false, copies⟩ (unrolled opens sofar []) := by
  have hend : steps[steps.length]? = none := List.getElem?_eq_none (Nat.le_refl _)
  have hfinish := Plays.finish (p := ⟨steps.length, starts, false, copies⟩) hend
  cases h with
  | outside hread => exact hfinish
  | inside houter hstart hplace hread =>
      simp only [finish, getElem?_length_append, Option.bind_some, hplace] at hfinish
      exact hfinish

-- By induction on the steps that have not been met yet. The player stands at the
-- next of them again and again, until none is left or an end mark is unmatched.
theorem plays_gather {opens : List Open} {sofar : List Passage} {starts : List (Nat × Nat)}
    {read copies rest : List Step} (h : Stands opens sofar starts read copies)
    (hsteps : steps = read ++ rest) :
    Plays steps ⟨read.length, starts, false, copies⟩ (unrolled opens sofar rest) := by
  induction rest generalizing opens sofar starts read copies with
  | nil =>
      rw [List.append_nil] at hsteps
      rw [← hsteps] at h ⊢
      exact plays_nil h
  | cons s rest ih =>
      have hget : steps[read.length]? = some s := by
        rw [hsteps, getElem?_length_append]
      have hread : steps = read ++ [s] ++ rest := by
        rw [hsteps, List.append_assoc, List.singleton_append]
      have hlength : (read ++ [s]).length = read.length + 1 := by
        rw [List.length_append, List.length_singleton]
      cases hmove : s.move with
      | repeatStart =>
          have hplays := ih (stands_start h hmove) hread
          rw [hlength] at hplays
          rw [unrolled, Passage.gather_start hmove]
          exact .step hget (meet_start hmove _) hplays
      | repeatEnd mark =>
          cases opens with
          | nil =>
              cases h with
              | outside _ =>
                  rw [unrolled, gather, hmove]
                  exact .refuse hget (by rw [meet, hmove])
          | cons o outer =>
              rcases reaches_end h hmove hsteps with ⟨starts', copies', hstands, hreaches⟩
              have hplays := ih hstands hread
              rw [hlength] at hplays
              rw [unrolled, Passage.gather_end hmove]
              exact plays_of_reaches hreaches hplays
      | _ =>
          have hmark : s.move.isMark = false := by rw [hmove]; rfl
          have hplays := ih (stands_cons h (.step hmark .nil)) hread
          rw [hlength] at hplays
          rw [unrolled, Passage.gather_step hmark]
          exact .step hget (meet_step hmark _) hplays

/-- Steps are played as they are unrolled, whether their marks are balanced or
    not. -/
theorem plays_iff (steps : List Step) (outcome : Except Diagnostic (List Step)) :
    Plays steps {} outcome ↔ outcome = unrollSteps steps := by
  have hplays : Plays steps {} (unrollSteps steps) :=
    plays_gather stands_nil rfl
  exact ⟨fun h => plays_unique h hplays, fun h => h ▸ hplays⟩

/-- Passages that are gathered are written as the steps they are gathered from. -/
theorem spells_of_gather {opens : List Open} {sofar ps : List Passage} {starts : List (Nat × Nat)}
    {read copies rest : List Step} (h : Stands opens sofar starts read copies)
    (hgather : gather opens sofar rest = .ok ps) : Spells ps (read ++ rest) := by
  induction rest generalizing opens sofar starts read copies with
  | nil =>
      cases h with
      | outside hread =>
          rw [gather, Except.ok.injEq] at hgather
          rw [List.append_nil, ← hgather]
          exact hread
      | inside _ _ _ _ =>
          rw [gather] at hgather
          cases hgather
  | cons s rest ih =>
      have hread : read ++ [s] ++ rest = read ++ s :: rest := by
        rw [List.append_assoc, List.singleton_append]
      rw [← hread]
      cases hmove : s.move with
      | repeatStart =>
          rw [Passage.gather_start hmove] at hgather
          exact ih (stands_start h hmove) hgather
      | repeatEnd mark =>
          cases opens with
          | nil =>
              rw [gather, hmove] at hgather
              cases hgather
          | cons o outer =>
              rcases reaches_end h hmove (rfl : read ++ s :: rest = _) with
                ⟨starts', copies', hstands, -⟩
              rw [Passage.gather_end hmove] at hgather
              exact ih hstands hgather
      | _ =>
          have hmark : s.move.isMark = false := by rw [hmove]; rfl
          rw [Passage.gather_step hmark] at hgather
          exact ih (stands_cons h (.step hmark .nil)) hgather

end Player

/-- Passages are gathered from the steps they are written as, and from no
    others. -/
theorem Passage.ofSteps_eq_ok_iff {steps : List Step} {ps : List Passage} :
    ofSteps steps = .ok ps ↔ Spells ps steps :=
  ⟨fun h => Player.spells_of_gather Player.stands_nil h, ofSteps_of_spells⟩

/-- Steps without marks are unrolled to themselves. -/
theorem unrollSteps_of_forall {steps : List Step} (h : ∀ s ∈ steps, s.move.isMark = false) :
    unrollSteps steps = .ok (steps.map fun s => s.inPass none) := by
  have hspells : Passage.Spells (steps.map .step) steps := by
    induction steps with
    | nil => exact .nil
    | cons s rest ih =>
        rw [List.forall_mem_cons] at h
        exact .step h.1 (ih h.2)
  have hunroll : ∀ ss : List Step,
      Passage.unrollAll (ss.map .step) none false = (ss.map fun s => s.inPass none, false) := by
    intro ss
    induction ss with
    | nil => rfl
    | cons s rest ih =>
        rw [List.map_cons, Passage.unrollAll_cons, Passage.unroll_step, ih]
        rfl
  rw [unrollSteps, Passage.ofSteps_of_spells hspells, Except.map, hunroll]

/-- Whatever is drawn for a text is a copy of a step that is written there. -/
theorem exists_written_of_expand {text : String} {steps : List Step}
    (h : expand text = .ok steps) :
    ∃ written, Step.ofText text = .ok written ∧
      ∀ t ∈ steps, ∃ s ∈ written, ∃ pass, s.IsCopy pass t := by
  unfold expand at h
  cases htext : Step.ofText text with
  | error d =>
      rw [htext] at h
      cases h
  | ok written =>
      rw [htext, Except.bind, unrollSteps] at h
      cases hpassages : Passage.ofSteps written with
      | error d =>
          rw [hpassages] at h
          cases h
      | ok ps =>
          rw [hpassages, Except.map, Except.ok.injEq] at h
          subst h
          refine ⟨written, rfl, fun t ht => ?_⟩
          rcases Passage.exists_of_forall₂ (Passage.forall₂_isCopy_unrollAll ps [] false) ht with
            ⟨c, hc, hcopy⟩
          exact ⟨c.1, (Passage.mem_of_mem_copies (Passage.ofSteps_eq_ok_iff.1 hpassages) hc).1,
            Passage.innermost c.2, hcopy⟩

/-- Balanced steps are unrolled to the copies their passages stand for, up to
    mirror images, as a player plays them. -/
theorem unrollSteps_spells {steps : List Step} {ps : List Passage} (h : Passage.Spells ps steps) :
    ∃ copies, unrollSteps steps = .ok copies ∧
      (∀ outcome, Player.Plays steps {} outcome ↔ outcome = .ok copies) ∧
      List.Forall₂ (fun c t => c.1.IsCopy (Passage.innermost c.2) t) (Passage.copies [] ps) copies ∧
      ∀ t ∈ copies, t.move.isMark = false := by
  have hunroll : unrollSteps steps = .ok (Passage.unrollAll ps none false).1 := by
    rw [unrollSteps, Passage.ofSteps_of_spells h, Except.map]
  have hcopies := Passage.forall₂_isCopy_unrollAll ps [] false
  refine ⟨_, hunroll, fun outcome => ?_, hcopies, fun t ht => ?_⟩
  · rw [Player.plays_iff, hunroll]
  · rcases Passage.exists_of_forall₂ hcopies ht with ⟨c, hc, hcopy⟩
    have hmark := (Passage.mem_of_mem_copies h hc).2
    rcases hcopy.move with hmove | hmove
    · rw [hmove, hmark]
    · rw [hmove, Move.isMark_opposite, hmark]

/-- An edge in front of a block, both inside of another block, on one line. -/
def nestedLine (inner outer : RepeatEnd) : List Step :=
  [{ move := .repeatStart, place := some { row := 0, col := 0 } },
    { outsideEdge .left with place := some { row := 0, col := 3 } },
    { move := .repeatStart, place := some { row := 0, col := 7 } },
    { outsideEdge .right with place := some { row := 0, col := 10 } },
    { move := .repeatEnd inner, place := some { row := 0, col := 14 } },
    { move := .repeatEnd outer, place := some { row := 0, col := 17 } }]

/-- The passages of a nested line. -/
def linePassages (inner outer : RepeatEnd) : List Passage :=
  [.block [.step { outsideEdge .left with place := some { row := 0, col := 3 } },
    .block [.step { outsideEdge .right with place := some { row := 0, col := 10 } }] inner] outer]

theorem unrollSteps_spells_nestedLine :
    Passage.Spells (linePassages { count := 3 } { alternate := true })
        (nestedLine { count := 3 } { alternate := true }) ∧
      ∃ copies, unrollSteps (nestedLine { count := 3 } { alternate := true }) = .ok copies ∧
        (∀ outcome, Player.Plays (nestedLine { count := 3 } { alternate := true }) {} outcome ↔
          outcome = .ok copies) ∧
        List.Forall₂ (fun c t => c.1.IsCopy (Passage.innermost c.2) t)
          (Passage.copies [] (linePassages { count := 3 } { alternate := true })) copies ∧
        ∀ t ∈ copies, t.move.isMark = false := by
  have hspells : Passage.Spells (linePassages { count := 3 } { alternate := true })
      (nestedLine { count := 3 } { alternate := true }) := by
    have hinner := Passage.Spells.step
      (rfl : ({ outsideEdge .right with
        place := some { row := 0, col := 10 } } : Step).move.isMark = false) .nil
    exact .block rfl (.step rfl (.block rfl hinner rfl .nil)) rfl .nil
  exact ⟨hspells, unrollSteps_spells hspells⟩

end IceFigures
