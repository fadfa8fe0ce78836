import IceFigures.Proofs.Passages
import Mathlib.Logic.Basic

/-!
# Alternating Passes

An alternating repeat skates every other pass on the opposite foot. A copy of a
step should then be mirrored exactly if the repeats around it that alternate
and are in an even pass are odd in number (`Passage.alternated`).

Unrolling does not count repeats. It carries one flag along and drops it
whenever a block ends, so a block inside another one disturbs what follows it.
`unrollSteps_eq_alternated_iff` says exactly when no harm is done.

The flag of the unrolling and the parity that it should have make four cases,
and each has its own condition on the passages that follow: none of the two is
set (`Upright`), both (`Flipped`), only the parity (`Symmetric`) or only the
flag (`Tilted`). After a block the flag is down. From the second pass on, a body
with a block in it is therefore entered with the flag that alternation alone
gives, which is right in the second pass of an upright block and wrong in its
third.

## Main definitions

* `Passage.copies`: The copies of steps with the repeats around each of them.
* `Passage.isTurned`: Whether a copy should be on the opposite foot.
* `Passage.alternated`: The copies as they should be.
* `Passage.Symmetric`: Passages that look the same on either foot.
* `Passage.Upright`, `Passage.Flipped`, `Passage.Tilted`: Passages that are
  copied as they should be, entered in one of the other three cases.

## Theorems

* `unrollAll_snd`: The flag after passages.
* `passes_eq_iff`: Passes agree if each of them does.
* `unrollAll_eq_iff`: The four cases.
* `unrollSteps_eq_alternated_iff`: When unrolling alternates as it should.
-/

namespace IceFigures

namespace Passage

/-! ### What copies should be -/

/-- The copies of steps, each with the repeats around it and the passes they are
    in, the innermost one first. -/
def copies : List (RepeatEnd × Nat) → List Passage → List (Step × List (RepeatEnd × Nat))
  | _, [] => []
  | around, step s :: ps => (s, around) :: copies around ps
  | around, block body mark :: ps =>
    ((List.range' 1 (max 1 mark.count.toNat)).flatMap fun pass =>
      copies ((mark, pass) :: around) body) ++ copies around ps

/-- Whether the alternating repeats in an even pass are odd in number. -/
def isTurned (around : List (RepeatEnd × Nat)) : Bool :=
  (around.countP fun r => r.1.alternate && r.2 % 2 == 0) % 2 == 1

/-- The pass of the innermost repeat. -/
def innermost (around : List (RepeatEnd × Nat)) : Option Nat :=
  around.head?.map Prod.snd

/-- A copy as it should be, given the repeats around it. -/
def turnedCopy (c : Step × List (RepeatEnd × Nat)) : Step :=
  copy c.1 (innermost c.2) (isTurned c.2)

/-- The copies of passages as they should be. -/
def alternated (ps : List Passage) : List Step :=
  (copies [] ps).map turnedCopy

/-! ### Conditions on passages -/

/-- Whether there is a block among passages. -/
def hasBlock : List Passage → Bool
  | [] => false
  | step _ :: ps => hasBlock ps
  | block _ _ :: _ => true

/-- Passages whose steps look the same on either foot. -/
def Symmetric : List Passage → Prop
  | [] => True
  | step s :: ps => s.move.opposite = s.move ∧ Symmetric ps
  | block body _ :: ps => Symmetric body ∧ Symmetric ps

/-- Passages that are mirrored as they should be if they are entered mirrored.
    Only steps before the first block are sure to be. -/
def Flipped : List Passage → Prop
  | [] => True
  | step _ :: ps => Flipped ps
  | block body mark :: ps =>
    (Flipped body ∧ (2 ≤ mark.count → hasBlock body = true → Symmetric body)) ∧ Symmetric ps

/-- Passages that are mirrored as they should be if they are entered upright. -/
def Upright : List Passage → Prop
  | [] => True
  | step _ :: ps => Upright ps
  | block body mark :: ps =>
    (Upright body ∧ (mark.alternate = true → 2 ≤ mark.count → Flipped body) ∧
      (mark.alternate = true → 3 ≤ mark.count → hasBlock body = true → Symmetric body)) ∧
    Upright ps

/-- Passages that are mirrored as they should be although they are entered
    mirrored and should not. -/
def Tilted : List Passage → Prop
  | [] => True
  | step s :: ps => s.move.opposite = s.move ∧ Tilted ps
  | block body mark :: ps =>
    (Tilted body ∧ (2 ≤ mark.count → if mark.alternate then Flipped body else Upright body)) ∧
    Upright ps

theorem flipped_of_symmetric (ps : List Passage) : Symmetric ps → Flipped ps := by
  induction ps using passages_induction with
  | nil => intro _; rw [Flipped]; trivial
  | step s ps ih =>
      rw [Symmetric, Flipped]
      exact fun h => ih h.2
  | block body mark ps hbody _ =>
      rw [Symmetric, Flipped]
      exact fun h => ⟨⟨hbody h.1, fun _ _ => h.1⟩, h.2⟩

theorem upright_of_symmetric (ps : List Passage) : Symmetric ps → Upright ps := by
  induction ps using passages_induction with
  | nil => intro _; rw [Upright]; trivial
  | step s ps ih =>
      rw [Symmetric, Upright]
      exact fun h => ih h.2
  | block body mark ps hbody ih =>
      rw [Symmetric, Upright]
      exact fun h =>
        ⟨⟨hbody h.1, fun _ _ => flipped_of_symmetric body h.1, fun _ _ _ => h.1⟩, ih h.2⟩

theorem tilted_of_symmetric (ps : List Passage) : Symmetric ps → Tilted ps := by
  induction ps using passages_induction with
  | nil => intro _; rw [Tilted]; trivial
  | step s ps ih =>
      rw [Symmetric, Tilted]
      exact fun h => ⟨h.1, ih h.2⟩
  | block body mark ps hbody _ =>
      rw [Symmetric, Tilted]
      intro h
      refine ⟨⟨hbody h.1, fun _ => ?_⟩, upright_of_symmetric ps h.2⟩
      by_cases halternate : mark.alternate = true
      · rw [if_pos halternate]
        exact flipped_of_symmetric body h.1
      · rw [if_neg halternate]
        exact upright_of_symmetric body h.1

-- With the flag up, what is right for both parities looks the same on either foot.
theorem symmetric_of_flipped_of_tilted (ps : List Passage) :
    Flipped ps → Tilted ps → Symmetric ps := by
  induction ps using passages_induction with
  | nil => intro _ _; rw [Symmetric]; trivial
  | step s ps ih =>
      rw [Flipped, Tilted, Symmetric]
      exact fun hflipped htilted => ⟨htilted.1, ih hflipped htilted.2⟩
  | block body mark ps hbody _ =>
      rw [Flipped, Tilted, Symmetric]
      exact fun hflipped htilted => ⟨hbody hflipped.1.1 htilted.1.1, hflipped.2⟩

-- Without a block the flag never changes, so it is right throughout or wrong
-- throughout.
theorem steps_only (ps : List Passage) :
    hasBlock ps = false → Upright ps ∧ Flipped ps ∧ (Tilted ps → Symmetric ps) := by
  induction ps using passages_induction with
  | nil => intro _; rw [Upright, Flipped, Symmetric]; exact ⟨trivial, trivial, fun _ => trivial⟩
  | step s ps ih =>
      rw [hasBlock, Upright, Flipped, Symmetric, Tilted]
      intro h
      rcases ih h with ⟨hupright, hflipped, hsymmetric⟩
      exact ⟨hupright, hflipped, fun htilted => ⟨htilted.1, hsymmetric htilted.2⟩⟩
  | block body mark ps _ _ =>
      intro h
      rw [hasBlock] at h
      exact Bool.noConfusion h

/-- The condition for a flag and a parity that passages are entered with. -/
def Fits : Bool → Bool → List Passage → Prop
  | false, false => Upright
  | true, true => Flipped
  | false, true => Symmetric
  | true, false => Tilted

theorem fits_of_symmetric {ps : List Passage} (h : Symmetric ps) (flag parity : Bool) :
    Fits flag parity ps := by
  cases flag <;> cases parity
  · exact upright_of_symmetric ps h
  · exact h
  · exact tilted_of_symmetric ps h
  · exact flipped_of_symmetric ps h

theorem fits_nil (flag parity : Bool) : Fits flag parity [] :=
  fits_of_symmetric (by rw [Symmetric]; trivial) flag parity

theorem fits_step (flag parity : Bool) (s : Step) (ps : List Passage) :
    Fits flag parity (step s :: ps) ↔
      (flag = parity ∨ s.move.opposite = s.move) ∧ Fits flag parity ps := by
  cases flag <;> cases parity
  · rw [Fits, Upright]
    exact ⟨fun h => ⟨Or.inl rfl, h⟩, fun h => h.2⟩
  · rw [Fits, Symmetric]
    exact ⟨fun h => ⟨Or.inr h.1, h.2⟩, fun h => ⟨h.1.resolve_left Bool.noConfusion, h.2⟩⟩
  · rw [Fits, Tilted]
    exact ⟨fun h => ⟨Or.inr h.1, h.2⟩, fun h => ⟨h.1.resolve_left Bool.noConfusion, h.2⟩⟩
  · rw [Fits, Flipped]
    exact ⟨fun h => ⟨Or.inl rfl, h⟩, fun h => h.2⟩

/-- After a block the flag is down. -/
theorem fits_block (flag parity : Bool) (body : List Passage) (mark : RepeatEnd)
    (ps : List Passage) :
    Fits flag parity (block body mark :: ps) ↔
      Fits flag parity [block body mark] ∧ Fits false parity ps := by
  cases flag <;> cases parity <;>
    simp only [Fits, Upright, Symmetric, Tilted, Flipped, and_true]

/-! ### Passes of a block -/

/-- The flag that a pass of a block is entered with, the first pass being `0`. -/
def flagAt (alternate blocks : Bool) : Bool → Nat → Bool
  | flag, 0 => flag
  | flag, j + 1 => flagAt alternate blocks ((!blocks && flag) != alternate) j

/-- The parity of a pass of a block, the first pass being `0`. -/
def parityAt (alternate parity : Bool) (j : Nat) : Bool :=
  parity != (alternate && (1 + j) % 2 == 0)

theorem flagAt_succ_of_blocks (alternate flag : Bool) (j : Nat) :
    flagAt alternate true flag (j + 1) = alternate := by
  induction j generalizing flag with
  | zero => cases alternate <;> rfl
  | succ j ih => rw [flagAt, ih]

-- Without blocks flag and parity turn around together.
theorem flagAt_eq_parityAt_iff (alternate flag parity : Bool) (j : Nat) :
    flagAt alternate false flag j = parityAt alternate parity j ↔ flag = parity := by
  have hflag : flagAt alternate false flag j = parityAt alternate flag j := by
    unfold parityAt
    induction j generalizing flag with
    | zero => cases alternate <;> cases flag <;> rfl
    | succ j ih =>
        rw [flagAt, ih]
        have hparity : (1 + (j + 1)) % 2 = 1 - (1 + j) % 2 := by omega
        rcases Nat.mod_two_eq_zero_or_one (1 + j) with hj | hj <;> rw [hparity, hj] <;>
          cases alternate <;> cases flag <;> rfl
  rw [hflag, parityAt, parityAt]
  cases flag <;> cases parity <;> cases alternate && (1 + j) % 2 == 0 <;> decide

-- What repeats itself from the second of a row on is settled by the first three.
theorem forall_lt_iff_of_period {Y : Nat → Prop} (hperiod : ∀ j, Y (j + 3) ↔ Y (j + 1)) {n : Nat}
    (hn : 1 ≤ n) : (∀ j < n, Y j) ↔ Y 0 ∧ (2 ≤ n → Y 1) ∧ (3 ≤ n → Y 2) := by
  constructor
  · intro h
    exact ⟨h 0 (by omega), fun h2 => h 1 (by omega), fun h3 => h 2 (by omega)⟩
  · rintro ⟨h0, h1, h2⟩ j
    induction j using Nat.strongRecOn with
    | ind j ih =>
        intro hj
        match j, ih, hj with
        | 0, _, _ => exact h0
        | 1, _, hj => exact h1 (by omega)
        | 2, _, hj => exact h2 (by omega)
        | j + 3, ih, hj => exact (hperiod j).2 (ih (j + 1) (by omega) (by omega))

/-- Without blocks passages fit if flag and parity agree. -/
theorem fits_iff_of_steps_only {ps : List Passage} (h : hasBlock ps = false)
    (flag parity : Bool) : Fits flag parity ps ↔ flag = parity ∨ Symmetric ps := by
  rcases steps_only ps h with ⟨hupright, hflipped, hsymmetric⟩
  constructor
  · intro hfits
    cases flag <;> cases parity
    · exact Or.inl rfl
    · exact Or.inr hfits
    · exact Or.inr (hsymmetric hfits)
    · exact Or.inl rfl
  · rintro (rfl | hsame)
    · cases flag
      · exact hupright
      · exact hflipped
    · exact fits_of_symmetric hsame flag parity

-- The first pass is entered as the block is, the second one with the flag that
-- alternation alone gives, and so is the third, but for the other parity.
theorem fits_singleton_of_blocks (flag parity : Bool) {body : List Passage} (mark : RepeatEnd)
    (h : hasBlock body = true) :
    Fits flag parity [block body mark] ↔ Fits flag parity body ∧
      (2 ≤ mark.count → Fits mark.alternate (parity != mark.alternate) body) ∧
      (3 ≤ mark.count → Fits mark.alternate parity body) := by
  have hsymmetric : Symmetric body → ∀ flag parity, Fits flag parity body := fits_of_symmetric
  have htilted := tilted_of_symmetric body
  have hboth := symmetric_of_flipped_of_tilted body
  have hthree : 3 ≤ mark.count → 2 ≤ mark.count := by omega
  cases flag <;> cases parity <;>
    simp only [Fits, Upright, Flipped, Symmetric, Tilted, h, and_true, forall_const]
  · cases mark.alternate
    · change _ ↔ Upright body ∧ (_ → Upright body) ∧ (_ → Upright body)
      exact ⟨fun hu => ⟨hu.1, fun _ => hu.1, fun _ => hu.1⟩,
        fun hu => ⟨hu.1, fun hf => Bool.noConfusion hf, fun hf => Bool.noConfusion hf⟩⟩
    · change _ ↔ Upright body ∧ (_ → Flipped body) ∧ (_ → Tilted body)
      constructor
      · exact fun hu => ⟨hu.1, hu.2.1 rfl, fun h3 => htilted (hu.2.2 rfl h3)⟩
      · exact fun hu =>
          ⟨hu.1, fun _ => hu.2.1, fun _ h3 => hboth (hu.2.1 (hthree h3)) (hu.2.2 h3)⟩
  · exact ⟨fun hs => ⟨hs, fun _ => hsymmetric hs _ _, fun _ => hsymmetric hs _ _⟩, fun hs => hs.1⟩
  · cases mark.alternate
    · change _ ↔ Tilted body ∧ (_ → Upright body) ∧ (_ → Upright body)
      exact ⟨fun ht => ⟨ht.1, ht.2, fun h3 => ht.2 (hthree h3)⟩, fun ht => ⟨ht.1, ht.2.1⟩⟩
    · change _ ↔ Tilted body ∧ (_ → Flipped body) ∧ (_ → Tilted body)
      exact ⟨fun ht => ⟨ht.1, ht.2, fun _ => ht.1⟩, fun ht => ⟨ht.1, ht.2.1⟩⟩
  · cases mark.alternate
    · change _ ↔ Flipped body ∧ (_ → Symmetric body) ∧ (_ → Symmetric body)
      exact ⟨fun hf => ⟨hf.1, hf.2, fun h3 => hf.2 (hthree h3)⟩, fun hf => ⟨hf.1, hf.2.1⟩⟩
    · change _ ↔ Flipped body ∧ (_ → Tilted body) ∧ (_ → Flipped body)
      exact ⟨fun hf => ⟨hf.1, fun h2 => htilted (hf.2 h2), fun _ => hf.1⟩,
        fun hf => ⟨hf.1, fun h2 => hboth hf.1 (hf.2.1 h2)⟩⟩

-- Without blocks in its body a block fits as its first pass does.
theorem fits_singleton_of_steps_only (flag parity : Bool) {body : List Passage}
    (mark : RepeatEnd) (h : hasBlock body = false) :
    Fits flag parity [block body mark] ↔ flag = parity ∨ Symmetric body := by
  rcases steps_only body h with ⟨hu, hf, hs⟩
  cases flag <;> cases parity
  · simp only [Fits, Upright, h, hu, hf, Bool.false_eq_true, false_imp_iff, implies_true,
      true_or, and_self]
  · simp only [Fits, Symmetric, Bool.false_eq_true, false_or, and_true]
  · simp only [Fits, Tilted, Upright, hu, hf, ite_self, implies_true, and_true,
      Bool.true_eq_false, false_or]
    exact ⟨hs, tilted_of_symmetric body⟩
  · simp only [Fits, Flipped, Symmetric, h, hf, Bool.false_eq_true, false_imp_iff,
      implies_true, true_or, and_self]

/-- A block fits if each of its passes does. -/
theorem fits_singleton_iff (flag parity : Bool) (body : List Passage) (mark : RepeatEnd) :
    Fits flag parity [block body mark] ↔
      ∀ j < max 1 mark.count.toNat,
        Fits (flagAt mark.alternate (hasBlock body) flag j) (parityAt mark.alternate parity j)
          body := by
  cases hblock : hasBlock body with
  | false =>
      simp only [fits_singleton_of_steps_only flag parity mark hblock,
        fits_iff_of_steps_only hblock, flagAt_eq_parityAt_iff]
      exact ⟨fun h _ _ => h, fun h => h 0 (by omega)⟩
  | true =>
      have hperiod : ∀ j, parityAt mark.alternate parity (j + 3) =
          parityAt mark.alternate parity (j + 1) := by
        intro j
        rw [parityAt, parityAt, show (1 + (j + 3)) % 2 = (1 + (j + 1)) % 2 by omega]
      have hfirst : parityAt mark.alternate parity 0 = parity := by
        rw [parityAt]
        cases mark.alternate <;> cases parity <;> rfl
      have hsecond : parityAt mark.alternate parity 1 = (parity != mark.alternate) := by
        rw [parityAt]
        cases mark.alternate <;> cases parity <;> rfl
      have hthird : parityAt mark.alternate parity 2 = parity := by
        rw [parityAt]
        cases mark.alternate <;> cases parity <;> rfl
      have htwo : 2 ≤ max 1 mark.count.toNat ↔ 2 ≤ mark.count := by omega
      have hthree : 3 ≤ max 1 mark.count.toNat ↔ 3 ≤ mark.count := by omega
      rw [fits_singleton_of_blocks flag parity mark hblock, forall_lt_iff_of_period ?_ (by omega),
        flagAt_succ_of_blocks, flagAt_succ_of_blocks, hfirst, hsecond, hthird, htwo, hthree, flagAt]
      intro j
      rw [flagAt_succ_of_blocks, flagAt_succ_of_blocks, hperiod]

/-! ### Unrolling -/

/-- The flag is down after a block and stays as it is otherwise. -/
theorem unrollAll_snd (ps : List Passage) (pass : Option Nat) (flag : Bool) :
    (unrollAll ps pass flag).2 = (!hasBlock ps && flag) := by
  induction ps using passages_induction generalizing flag with
  | nil => cases flag <;> rfl
  | step s ps ih => rw [unrollAll_cons, unroll_step, hasBlock, ih]
  | block body mark ps _ ih =>
      rw [unrollAll_cons, unroll_block, passes_snd, ih, hasBlock, Bool.and_false]
      rfl

/-- Two equal stretches in front leave two equal rests, and only these do. -/
theorem append_eq_append_iff_of_length {α : Type} {as bs cs ds : List α}
    (h : as.length = cs.length) : as ++ bs = cs ++ ds ↔ as = cs ∧ bs = ds :=
  ⟨fun happend => List.append_inj happend h, fun hparts => by rw [hparts.1, hparts.2]⟩

-- By induction on the passes that are left. There are as many copies in a pass
-- as there should be, so the first pass can be compared on its own.
theorem passes_eq_iff {body : Option Nat → Bool → List Step × Bool} {blocks : Bool}
    (hflag : ∀ pass flag, (body pass flag).2 = (!blocks && flag)) {claimed : Nat → List Step}
    (hlength : ∀ pass flag, (body (some pass) flag).1.length = (claimed pass).length)
    (alternate : Bool) (more pass : Nat) (flag : Bool) :
    (passes body alternate more pass flag).1 = (List.range' pass (more + 1)).flatMap claimed ↔
      ∀ j < more + 1, (body (some (pass + j)) (flagAt alternate blocks flag j)).1 =
        claimed (pass + j) := by
  induction more generalizing pass flag with
  | zero =>
      rw [passes, List.range'_one, List.flatMap_singleton]
      constructor
      · intro h j hj
        rw [show j = 0 by omega]
        exact h
      · intro h
        exact h 0 (by omega)
  | succ more ih =>
      rw [passes_succ, List.range'_succ, List.flatMap_cons,
        append_eq_append_iff_of_length (hlength pass flag), hflag, ih]
      constructor
      · rintro ⟨hfirst, hlater⟩ j hj
        cases j with
        | zero => exact hfirst
        | succ j =>
            have := hlater j (by omega)
            rwa [show pass + 1 + j = pass + (j + 1) by omega] at this
      · intro h
        refine ⟨h 0 (by omega), fun j hj => ?_⟩
        have := h (j + 1) (by omega)
        rwa [show pass + (j + 1) = pass + 1 + j by omega] at this

-- Flags and parities only choose between two copies of a step, so the numbers
-- agree for any flag and any repeats around.
theorem length_unrollAll (ps : List Passage) (pass : Option Nat) (flag : Bool)
    (around : List (RepeatEnd × Nat)) :
    (unrollAll ps pass flag).1.length = (copies around ps).length := by
  induction ps using passages_induction generalizing pass flag around with
  | nil => rw [copies]; rfl
  | step s ps ih =>
      rw [unrollAll_cons, unroll_step, copies, List.length_append, List.length_cons, ih _ _ around]
      simp only [List.length_cons, List.length_nil]
      omega
  | block body mark ps hbody ih =>
      have hpasses : ∀ more pass flag,
          (passes (unrollAll body) mark.alternate more pass flag).1.length =
            ((List.range' pass (more + 1)).flatMap fun k =>
              copies ((mark, k) :: around) body).length := by
        intro more
        induction more with
        | zero =>
            intro pass flag
            rw [passes, List.range'_one, List.flatMap_singleton]
            exact hbody _ _ _
        | succ more hmore =>
            intro pass flag
            rw [passes_succ, List.range'_succ, List.flatMap_cons, List.length_append,
              List.length_append, hmore, hbody _ _ ((mark, pass) :: around)]
      have hcount : mark.count.toNat - 1 + 1 = max 1 mark.count.toNat := by omega
      rw [unrollAll_cons, unroll_block, copies, List.length_append, List.length_append,
        ih _ _ around, hpasses, hcount]

/-- A pass of an alternating repeat turns a copy around if it is even. -/
theorem isTurned_cons (mark : RepeatEnd) (around : List (RepeatEnd × Nat)) (j : Nat) :
    isTurned ((mark, 1 + j) :: around) = parityAt mark.alternate (isTurned around) j := by
  rw [isTurned, isTurned, parityAt, List.countP_cons]
  simp only
  cases mark.alternate && (1 + j) % 2 == 0 with
  | false => rw [if_neg Bool.false_ne_true, Nat.add_zero, Bool.bne_false]
  | true =>
      rw [if_pos rfl]
      generalize (around.countP fun r => r.1.alternate && r.2 % 2 == 0) = n
      have hsucc : (n + 1) % 2 = 1 - n % 2 := by omega
      rcases Nat.mod_two_eq_zero_or_one n with hn | hn <;> rw [hsucc, hn] <;> rfl

/-- Two copies of a step differ only if one of them is mirrored and that can be
    told. -/
theorem copy_eq_copy_iff (s : Step) (pass : Option Nat) (flag parity : Bool) :
    copy s pass flag = copy s pass parity ↔ flag = parity ∨ s.move.opposite = s.move := by
  have hmirrored : copy s pass true = copy s pass false ↔ s.move.opposite = s.move := by
    rcases s with ⟨m, place, count, duration⟩
    simp only [copy, Step.opposite, Step.inPass, if_true, Bool.false_eq_true, if_false,
      Step.mk.injEq, and_true]
  cases flag <;> cases parity
  · exact ⟨fun _ => Or.inl rfl, fun _ => rfl⟩
  · rw [eq_comm, hmirrored]
    exact ⟨Or.inr, fun h => h.resolve_left Bool.noConfusion⟩
  · rw [hmirrored]
    exact ⟨Or.inr, fun h => h.resolve_left Bool.noConfusion⟩
  · exact ⟨fun _ => Or.inl rfl, fun _ => rfl⟩

-- By induction on the passages, for every flag and all repeats around at once:
-- a pass of a block enters its body with another flag and one more repeat.
theorem unrollAll_eq_iff (ps : List Passage) (around : List (RepeatEnd × Nat)) (flag : Bool) :
    (unrollAll ps (innermost around) flag).1 = (copies around ps).map turnedCopy ↔
      Fits flag (isTurned around) ps := by
  induction ps using passages_induction generalizing around flag with
  | nil =>
      rw [copies]
      exact ⟨fun _ => fits_nil flag _, fun _ => rfl⟩
  | step s ps ih =>
      rw [unrollAll_cons, unroll_step, copies, List.map_cons, fits_step, ← ih,
        ← copy_eq_copy_iff s (innermost around)]
      simp only [List.cons_append, List.nil_append, List.cons.injEq]
      rfl
  | block body mark ps hbody ih =>
      have hcount : mark.count.toNat - 1 + 1 = max 1 mark.count.toNat := by omega
      have hpasses : (passes (unrollAll body) mark.alternate (mark.count.toNat - 1) 1 flag).1 =
          (List.range' 1 (max 1 mark.count.toNat)).flatMap
            (fun pass => (copies ((mark, pass) :: around) body).map turnedCopy) ↔
          Fits flag (isTurned around) [block body mark] := by
        rw [← hcount, passes_eq_iff (unrollAll_snd body), fits_singleton_iff, hcount]
        · refine forall_congr' fun j => imp_congr_right fun _ => ?_
          rw [← isTurned_cons]
          exact hbody ((mark, 1 + j) :: around) _
        · intro pass flag
          rw [List.length_map]
          exact length_unrollAll body _ _ _
      have hlength : (unroll (block body mark) (innermost around) flag).1.length =
          (((List.range' 1 (max 1 mark.count.toNat)).flatMap fun pass =>
            copies ((mark, pass) :: around) body).map turnedCopy).length := by
        have hblock := length_unrollAll [block body mark] (innermost around) flag around
        rw [unrollAll_cons, copies, copies, List.append_nil, List.length_append] at hblock
        rw [List.length_map]
        exact hblock
      rw [unrollAll_cons, copies, List.map_append, append_eq_append_iff_of_length hlength,
        fits_block, ← hpasses, List.map_flatMap, unroll_block, passes_snd, ih]

end Passage

/-- Unrolling alternates as it should exactly on upright passages. -/
theorem unrollSteps_eq_alternated_iff {steps : List Step} {ps : List Passage}
    (h : Passage.ofSteps steps = .ok ps) :
    unrollSteps steps = .ok (Passage.alternated ps) ↔ Passage.Upright ps := by
  rw [unrollSteps, h, Passage.alternated]
  simp only [Except.map, Except.ok.injEq]
  exact Passage.unrollAll_eq_iff ps [] false

/-- A forward outside edge on a foot. -/
def outsideEdge (foot : Foot) : Step where
  move := .part (.curve { code := ⟨foot, .forward, .outside⟩ })

/-- A block around another one and an edge behind it, with the end marks of
    both. -/
def nestedSteps (inner outer : RepeatEnd) : List Step :=
  [{ move := .repeatStart }, { move := .repeatStart }, outsideEdge .left,
    { move := .repeatEnd inner }, outsideEdge .right, { move := .repeatEnd outer }]

/-- The passages of nested steps. -/
def nestedPassages (inner outer : RepeatEnd) : List Passage :=
  [.block [.block [.step (outsideEdge .left)] inner, .step (outsideEdge .right)] outer]

theorem ofSteps_nestedSteps (inner outer : RepeatEnd) :
    Passage.ofSteps (nestedSteps inner outer) = .ok (nestedPassages inner outer) := rfl

theorem unrollSteps_eq_alternated_inside :
    Passage.ofSteps (nestedSteps { count := 3, alternate := true } {}) =
        .ok (nestedPassages { count := 3, alternate := true } {}) ∧
      Passage.Upright (nestedPassages { count := 3, alternate := true } {}) ∧
      unrollSteps (nestedSteps { count := 3, alternate := true } {}) =
        .ok (Passage.alternated (nestedPassages { count := 3, alternate := true } {})) := by
  have hupright : Passage.Upright (nestedPassages { count := 3, alternate := true } {}) := by
    simp only [nestedPassages, Passage.Upright, Passage.Flipped, Passage.Symmetric,
      Passage.hasBlock, Bool.false_eq_true, false_imp_iff, implies_true, and_self]
  exact ⟨rfl, hupright, (unrollSteps_eq_alternated_iff rfl).2 hupright⟩

/-- An alternating block with a block inside forgets to turn around what follows
    it in the second pass. -/
theorem unrollSteps_ne_alternated_outside :
    Passage.ofSteps (nestedSteps {} { alternate := true }) =
        .ok (nestedPassages {} { alternate := true }) ∧
      unrollSteps (nestedSteps {} { alternate := true }) ≠
        .ok (Passage.alternated (nestedPassages {} { alternate := true })) := by
  refine ⟨rfl, fun h => ?_⟩
  rw [unrollSteps, ofSteps_nestedSteps] at h
  simp only [Except.map, Except.ok.injEq] at h
  have hupright : Passage.Upright (nestedPassages {} { alternate := true }) :=
    (Passage.unrollAll_eq_iff _ [] false).1 h
  rw [nestedPassages, Passage.Upright, Passage.Flipped] at hupright
  have hlater : Passage.Symmetric [.step (outsideEdge .right)] := (hupright.1.2.1 rfl (by decide)).2
  -- The edge behind the inner block would have to look the same on either foot.
  rw [Passage.Symmetric] at hlater
  exact absurd hlater.1 (by decide)

end IceFigures
