import IceFigures.Step

/-!
# Passages

Repeats turn a list of steps into a list of passages: single steps, and blocks
that are skated several times. Whether the marks of a list are balanced is
settled when it is put into this form (`Passage.ofSteps`), so unrolling it
cannot fail.

Unrolling carries along whether steps are being flipped onto the other foot.
An alternating block turns this around from one pass to the next, and any block
turns it off when its last pass ends. Each copy of a step is marked with the
pass of the innermost block around it.

## Main definitions

* `Passage`: A step, or a block of passages with its end mark.
* `Open`: A block whose end has not been found yet.
* `Passage.ofSteps`: The passages of a list of steps.
* `Passage.unrollAll`: The copies of steps that passages stand for.
* `expand`: The steps of a text with its repeats unrolled.
-/

namespace IceFigures

/-- A step, or a block of passages with its end mark. -/
inductive Passage
  | step (s : Step)
  | block (body : List Passage) (mark : RepeatEnd)

/-- A block whose end has not been found yet: where it starts, and the passages
    before it, last one first. -/
structure Open where
  place : Option Place
  earlier : List Passage

namespace Passage

/-- The passages of the remaining steps, given the open blocks and the passages
    of the innermost one so far, last one first. -/
def gather : List Open → List Passage → List Step → Except Diagnostic (List Passage)
  | [], sofar, [] => .ok sofar.reverse
  | o :: _, _, [] => .error { place := o.place.getD {}, fault := .unmatchedStart }
  | opens, sofar, s :: rest =>
    match s.move with
    | .repeatStart => gather ({ place := s.place, earlier := sofar } :: opens) [] rest
    | .repeatEnd mark =>
      match opens with
      | [] => .error { place := s.place.getD {}, fault := .unmatchedEnd }
      | o :: outer => gather outer (.block sofar.reverse mark :: o.earlier) rest
    | _ => gather opens (.step s :: sofar) rest

/-- The passages of a list of steps. -/
def ofSteps (steps : List Step) : Except Diagnostic (List Passage) :=
  gather [] [] steps

/-- A copy of a step in a pass, flipped or not. -/
def copy (s : Step) (pass : Option Nat) (flipped : Bool) : Step :=
  (if flipped then s.opposite else s).inPass pass

/-- The passes of a block from number `pass` on, of which `more` are left after
    it, with the flag that holds in the end. -/
def passes (body : Option Nat → Bool → List Step × Bool) (alternate : Bool) :
    Nat → Nat → Bool → List Step × Bool
  | 0, pass, flipped => ((body (some pass) flipped).1, false)
  | more + 1, pass, flipped =>
    let (copies, after) := body (some pass) flipped
    let (later, last) := passes body alternate more (pass + 1) (after != alternate)
    (copies ++ later, last)

mutual

/-- The copies that a passage stands for, with the flag that holds after it. -/
def unroll : Passage → Option Nat → Bool → List Step × Bool
  | step s, pass, flipped => ([copy s pass flipped], flipped)
  | block body mark, _, flipped =>
    passes (unrollAll body) mark.alternate (mark.count.toNat - 1) 1 flipped

/-- The copies that passages stand for, with the flag that holds after them. -/
def unrollAll : List Passage → Option Nat → Bool → List Step × Bool
  | [], _, flipped => ([], flipped)
  | p :: ps, pass, flipped =>
    let (first, between) := unroll p pass flipped
    let (later, after) := unrollAll ps pass between
    (first ++ later, after)

end

end Passage

/-- The steps that a list of steps with repeat marks stands for. -/
def unrollSteps (steps : List Step) : Except Diagnostic (List Step) :=
  (Passage.ofSteps steps).map fun ps => (Passage.unrollAll ps none false).1

/-- The steps of a text with its repeats unrolled. -/
def expand (text : String) : Except Diagnostic (List Step) :=
  (Step.ofText text).bind unrollSteps

end IceFigures
