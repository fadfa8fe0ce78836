import IceFigures.Passage

/-!
# Following Passages

How a property of passages is carried through their nesting, and what one step
of unrolling does. Everything else about repeats is proved from these.

## Theorems

* `passages_induction`: Induction over passages and into blocks.
* `unrollAll_cons`, `unroll_step`, `unroll_block`: The copies of a passage come
  before those of the passages behind it.
* `passes_succ`: The copies of a pass come before those of later passes.
* `passes_snd`: The flag is down after the last pass.
-/

namespace IceFigures

namespace Passage

-- The nesting is followed down into blocks: a property of passages holds if it
-- holds of none and can be carried past a step and past a block.
theorem passages_induction {Q : List Passage → Prop} (nil : Q [])
    (step : ∀ s ps, Q ps → Q (.step s :: ps))
    (block : ∀ body mark ps, Q body → Q ps → Q (.block body mark :: ps)) : ∀ ps, Q ps
  | [] => nil
  | .step s :: ps => step s ps (passages_induction nil step block ps)
  | .block body mark :: ps =>
    block body mark ps (passages_induction nil step block body)
      (passages_induction nil step block ps)

theorem unroll_step (s : Step) (pass : Option Nat) (flag : Bool) :
    unroll (step s) pass flag = ([copy s pass flag], flag) := rfl

theorem unroll_block (body : List Passage) (mark : RepeatEnd) (pass : Option Nat) (flag : Bool) :
    unroll (block body mark) pass flag =
      passes (unrollAll body) mark.alternate (mark.count.toNat - 1) 1 flag := rfl

theorem unrollAll_cons (p : Passage) (ps : List Passage) (pass : Option Nat) (flag : Bool) :
    unrollAll (p :: ps) pass flag =
      ((unroll p pass flag).1 ++ (unrollAll ps pass (unroll p pass flag).2).1,
        (unrollAll ps pass (unroll p pass flag).2).2) := rfl

theorem passes_succ (body : Option Nat → Bool → List Step × Bool) (alternate : Bool)
    (more pass : Nat) (flag : Bool) :
    passes body alternate (more + 1) pass flag =
      ((body (some pass) flag).1 ++
        (passes body alternate more (pass + 1) ((body (some pass) flag).2 != alternate)).1,
        (passes body alternate more (pass + 1) ((body (some pass) flag).2 != alternate)).2) := rfl

theorem passes_snd (body : Option Nat → Bool → List Step × Bool) (alternate : Bool)
    (more pass : Nat) (flag : Bool) : (passes body alternate more pass flag).2 = false := by
  induction more generalizing pass flag with
  | zero => rfl
  | succ more ih => rw [passes_succ, ih]

end Passage

end IceFigures
