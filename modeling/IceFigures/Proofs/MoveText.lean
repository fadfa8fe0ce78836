import IceFigures.Proofs.GrammarReading

/-!
# Canonical Texts of Moves

The canonical text of a move is one of the texts that the grammar has for it,
and a move that has any text in the grammar is one whose canonical text can be
read. So reading a move, writing it and reading it again always succeeds.

Two numbers are written outside of parameters, the turns of a twizzle and the
passes of a repeat. They have no upper limit of their own, but they can be
read only if they are short enough (`Move.isShort`). The parameters come from an
end of the text (`Move.TakenFrom`): whatever holds of all characters of a text
holds of the texts among the parameters of its move.

## Main definitions

* `Move.InRange`: Moves with parameters in range.
* `Move.Readable`: Moves whose canonical text can be read.
* `Move.TakenFrom`: Moves whose parameters are read at an end of a text.

## Theorems

* `Move.chars_eq_cons`: How the text of a move starts.
* `suffixText_suffix`: The suffix of a figure is one of the grammar.
* `moveText_chars`: Canonical texts are texts of the grammar.
* `readable_of_moveText`: What moves of the grammar are like.
-/

namespace IceFigures

open Text (Stops)

/-! ### Which moves can be read -/

/-- Whether the numbers of a kind are short enough to be read in a suffix. -/
def FigureKind.isShort : FigureKind → Bool
  | twizzle halfTurns => Text.isWritable (halfTurns / 2)
  | _ => true

namespace Move

/-- Whether the numbers outside of parameters are short enough to be read. -/
def isShort : Move → Bool
  | figure f => f.kind.isShort
  | repeatEnd e => Text.isWritable e.count
  | _ => true

/-- Moves with parameters in range. How often a passage is repeated is written
    outside of parameters and may be any number. -/
def InRange : Move → Prop
  | repeatEnd _ => True
  | m => List.Forall₂ Field.Admits m.profile.schema m.params

/-- Moves whose canonical text can be read. -/
structure Readable (m : Move) : Prop where
  sound : m.fault? = none
  inRange : m.InRange
  short : m.isShort = true

/-- Moves whose parameters are read at an end of a text. The count of a repeat
    may be taken from its sign instead. -/
def TakenFrom (cs : List Char) (m : Move) : Prop :=
  (∃ e, m = .repeatEnd e) ∨ ∃ tail, tail <:+ cs ∧ m.profile.schema.populate tail = .ok m.params

theorem TakenFrom.of_suffix {cs cs' : List Char} {m : Move} (h : m.TakenFrom cs)
    (hcs : cs <:+ cs') : m.TakenFrom cs' := by
  rcases h with hmark | ⟨tail, htail, hread⟩
  · exact Or.inl hmark
  · exact Or.inr ⟨tail, htail.trans hcs, hread⟩

end Move

/-! ### Edges of sound moves -/

/-- A code that curves is on an edge. -/
theorem edge_ne_flat_of_turn {code : Code} (h : code.turn ≠ 0) : code.edge ≠ .flat := by
  intro hflat
  rw [Code.turn, hflat, Edge.sign, Int.mul_zero] at h
  exact h rfl

theorem Curve.edge_ne_flat {c : Curve} (h : c.fault? = none) : c.code.edge ≠ .flat := by
  refine edge_ne_flat_of_turn fun hturn => ?_
  rw [Curve.fault?, if_pos hturn] at h
  simp only [reduceCtorEq] at h

theorem Straight.edge_eq_flat {s : Straight} (h : s.fault? = none) : s.code.edge = .flat := by
  by_contra hedge
  rw [Straight.fault?, if_pos hedge] at h
  simp only [reduceCtorEq] at h

theorem Hop.edge_eq_flat {h : Hop} (hsound : h.fault? = none) : h.code.edge = .flat := by
  by_contra hedge
  rw [Hop.fault?, if_pos hedge] at hsound
  simp only [reduceCtorEq] at hsound

/-- No figure is entered on the flat. -/
theorem edge_ne_flat_of_hand? {kind : FigureKind} {entry : Code}
    (h : (kind.hand? entry).isNone = false) : entry.edge ≠ .flat := by
  intro hflat
  rcases entry with ⟨foot, travel, edge⟩
  simp only at hflat
  subst hflat
  have hturn : Code.turn ⟨foot, travel, .flat⟩ = 0 := by
    rw [Code.turn, Edge.sign, Int.mul_zero]
  cases kind with
  | footChange c =>
      change (c.side? _).isNone = false at h
      cases c <;> cases foot <;> cases travel <;> exact absurd h (by decide)
  | jump j n =>
      change (j.sense? _).isNone = false at h
      cases j <;> cases foot <;> cases travel <;> exact absurd h (by decide)
  | turn _ | changeOfEdge | loop | twizzle _ =>
      change (if Code.turn ⟨foot, travel, .flat⟩ = 0 then none
        else some (Code.turn ⟨foot, travel, .flat⟩)).isNone = false at h
      rw [if_pos hturn] at h
      exact absurd h (by decide)

/-- A figure is checked for its parameters, its suffix, its entry and its layout. -/
theorem Figure.fault?_eq_none_iff (f : Figure) :
    f.fault? = none ↔ Schema.fits f.kind.profile.schema f.values = true ∧ f.kind.fault? = none ∧
      (f.kind.hand? f.entry).isNone = false ∧ f.layoutFault? = none := by
  rw [Figure.fault?]
  cases hfits : Schema.fits f.kind.profile.schema f.values with
  | false => simp only [Bool.not_false, if_true, reduceCtorEq, false_and, Bool.false_eq_true]
  | true =>
      cases hhand : (f.kind.hand? f.entry).isNone with
      | false =>
          simp only [Bool.not_true, Bool.false_eq_true, if_false, Option.orElse_eq_none, true_and]
      | true =>
          simp only [Bool.not_true, Bool.false_eq_true, if_false, if_true, Option.orElse_eq_none,
            reduceCtorEq, and_false, false_and]

theorem Figure.edge_ne_flat {f : Figure} (h : f.fault? = none) : f.entry.edge ≠ .flat :=
  edge_ne_flat_of_hand? ((Figure.fault?_eq_none_iff f).1 h).2.2.1

/-! ### The start of a move -/

theorem Hop.chars_eq (h : Hop) :
    h.chars = h.footwork.mark ++ h.code.letters ++
      (suffix ++ Schema.write profile.schema h.params) := by
  rw [chars, List.append_assoc (h.footwork.mark ++ h.code.letters)]

theorem Figure.chars_eq (f : Figure) :
    f.chars = f.footwork.mark ++ f.entry.letters ++
      (f.kind.suffix ++ Schema.write f.kind.profile.schema f.values) := by
  rw [chars, List.append_assoc (f.footwork.mark ++ f.entry.letters)]

/-- The text of a move starts with a letter or a sign of its own. -/
theorem Move.chars_eq_cons (m : Move) : ∃ c cs, m.chars = c :: cs ∧ c ∈ moveOpenings := by
  cases m with
  | part p =>
      cases p with
      | curve c => exact mark_append_letters_eq_cons c.footwork c.code _
      | straight s => exact mark_append_letters_eq_cons s.footwork s.code _
      | hop h =>
          rcases mark_append_letters_eq_cons h.footwork h.code (Hop.suffix ++
            Schema.write Hop.profile.schema h.params) with ⟨c, cs, hcs, hc⟩
          exact ⟨c, cs, h.chars_eq.trans hcs, hc⟩
      | shift s => exact ⟨_, _, rfl, by decide⟩
      | label l => exact ⟨_, _, rfl, by decide⟩
  | figure f =>
      rcases mark_append_letters_eq_cons f.footwork f.entry (f.kind.suffix ++
        Schema.write f.kind.profile.schema f.values) with ⟨c, cs, hcs, hc⟩
      exact ⟨c, cs, f.chars_eq.trans hcs, hc⟩
  | repeatEnd e =>
      rcases e with ⟨n, alternate⟩
      rw [Move.chars, RepeatEnd.chars]
      cases alternate <;> split <;> exact ⟨_, _, rfl, by decide⟩
  | _ => exact ⟨_, _, rfl, by decide⟩

/-- Whatever no move starts with is stopped at by one. -/
theorem stops_moveChars {p : Char → Bool} (hp : ∀ c ∈ moveOpenings, p c = false) (m : Move) :
    Stops p m.chars := by
  rcases m.chars_eq_cons with ⟨c, cs, hcs, hc⟩
  rw [hcs]
  exact Text.stops_cons.2 (hp c hc)

/-! ### Canonical texts are texts of the grammar -/

theorem numeral_toDigits {n : Nat} (h : Text.isWritable (n : Int) = true) :
    Numeral (some Text.maxDigits) (Nat.toDigits 10 n) n :=
  numeral_of_read Nat.toDigits_ne_nil (fun _ hc => Text.isDigit_of_mem_toDigits hc)
    (numberOfDigits_toDigits h)

theorem suffixText_twizzle {n : Int} (hn : 2 ≤ n) (hshort : Text.isWritable (n / 2) = true) :
    SuffixText (some Text.maxDigits) (twizzleMark ++ turnsText n) (.twizzle n) := by
  rcases Int.eq_ofNat_of_zero_le (show 0 ≤ n / 2 by omega) with ⟨whole, hwhole⟩
  rw [hwhole] at hshort
  have hascii : ∀ c ∈ Nat.toDigits 10 whole, Text.isAsciiDigit c = true :=
    fun _ hc => Text.isAsciiDigit_of_mem_toDigits hc
  have hzero : (Nat.toDigits 10 whole).head? ≠ some '0' := by
    rcases toDigits_eq_cons whole with ⟨d, ds, hds, -⟩
    rw [hds, List.head?_cons, ne_eq, Option.some.injEq]
    exact Text.ne_zero_of_toDigits_eq_cons (by omega) hds
  rw [turnsText, hwhole, decimal_ofNat]
  by_cases heven : n % 2 = 0
  · have hturns : n = (2 * whole : Nat) := by omega
    rw [if_pos heven, List.append_nil, hturns]
    exact .twizzle (numeral_toDigits hshort) hascii hzero
  · have hturns : n = (2 * whole + 1 : Nat) := by omega
    rw [if_neg heven, hturns]
    exact .halfTwizzle (numeral_toDigits hshort) hascii hzero

/-- The suffix of a figure is one of the grammar. -/
theorem suffixText_suffix {kind : FigureKind} (hfault : kind.fault? = none)
    (hshort : kind.isShort = true) : SuffixText (some Text.maxDigits) kind.suffix kind := by
  cases kind with
  | turn t => exact .turn t
  | footChange f => exact .footChange f
  | changeOfEdge => exact .changeOfEdge
  | loop => exact .loop
  | twizzle n =>
      have hn : 2 ≤ n := by
        rw [FigureKind.fault?] at hfault
        split at hfault
        · simp only [reduceCtorEq] at hfault
        · omega
      exact suffixText_twizzle hn hshort
  | jump j n =>
      have hn : 1 ≤ n ∧ n ≤ 4 := by
        rw [FigureKind.fault?] at hfault
        split at hfault
        · assumption
        · simp only [reduceCtorEq] at hfault
      have hcases : n = 1 ∨ n = 2 ∨ n = 3 ∨ n = 4 := by omega
      rcases hcases with rfl | rfl | rfl | rfl
      · exact .jump j (d := '1') (by decide) (by decide)
      · exact .jump j (d := '2') (by decide) (by decide)
      · exact .jump j (d := '3') (by decide) (by decide)
      · exact .jump j (d := '4') (by decide) (by decide)

theorem moveText_endSign {e : RepeatEnd} (hpos : e.fault? = none)
    (hshort : Text.isWritable e.count = true) :
    MoveText (some Text.maxDigits) e.chars (.repeatEnd e) := by
  rcases e with ⟨n, alternate⟩
  have hn : 0 < n := by
    rw [RepeatEnd.fault?] at hpos
    split at hpos
    · simp only [reduceCtorEq] at hpos
    · rename_i hle
      exact Int.not_le.1 hle
  rw [RepeatEnd.chars]
  by_cases htwo : n = 2
  · rw [if_pos htwo, htwo]
    exact .endSign alternate
  · rcases Int.eq_ofNat_of_zero_le (Int.le_of_lt hn) with ⟨k, rfl⟩
    rw [if_neg htwo, decimal_ofNat]
    exact .countedEndSign alternate (List.forall_mem_nil _) (List.forall_mem_nil _)
      (numeral_toDigits hshort)

/-- The canonical text of a readable move is one of its texts. -/
theorem moveText_chars {m : Move} (hm : m.Readable) :
    MoveText (some Text.maxDigits) m.chars m := by
  have hwrite : ∀ n : Move, List.Forall₂ Field.Admits n.profile.schema n.params →
      n.profile.schema.populate (Schema.write n.profile.schema n.params) = .ok n.params :=
    fun n => Schema.populate_write_of_admits (wellFormed_profile n)
  cases m with
  | part p =>
      have hps := hwrite (.part p) hm.inRange
      cases p with
      | curve c => exact .curve (Curve.edge_ne_flat hm.sound) hps
      | straight s => exact .straight (Straight.edge_eq_flat hm.sound) hps
      | hop h =>
          rw [Move.chars, Part.chars, h.chars_eq]
          exact .hop (Hop.edge_eq_flat hm.sound) hps
      | shift s => exact .keyword rfl hps
      | label l => exact .keyword rfl hps
  | figure f =>
      have hkind := ((Figure.fault?_eq_none_iff f).1 hm.sound).2.1
      rw [Move.chars, f.chars_eq]
      exact .figure (Figure.edge_ne_flat hm.sound) (suffixText_suffix hkind hm.short)
        (hwrite (.figure f) hm.inRange)
  | warp w => exact .keyword rfl (hwrite (.warp w) hm.inRange)
  | rink r => exact .keyword rfl (hwrite (.rink r) hm.inRange)
  | info i => exact .keyword rfl (hwrite (.info i) hm.inRange)
  | title t => exact .keyword rfl (hwrite (.title t) hm.inRange)
  | text t => exact .keyword rfl (hwrite (.text t) hm.inRange)
  | repeatStart => exact .startSign
  | repeatEnd e => exact moveText_endSign hm.sound hm.short

/-! ### Moves of the grammar are readable -/

theorem SuffixText.isShort {suffix : List Char} {kind : FigureKind}
    (h : SuffixText (some Text.maxDigits) suffix kind) : kind.isShort = true := by
  cases h with
  | @twizzle ds n hn _ _ =>
      have hwhole : ((2 * n : Nat) : Int) / 2 = n := by omega
      rw [FigureKind.isShort, hwhole]
      exact hn.isWritable
  | @halfTwizzle ds n hn _ _ =>
      have hwhole : ((2 * n + 1 : Nat) : Int) / 2 = n := by omega
      rw [FigureKind.isShort, hwhole]
      exact hn.isWritable
  | _ => rfl

/-- A figure whose suffix was read can be labelled with it. -/
theorem SuffixText.labelFault? {suffix : List Char} {kind : FigureKind}
    (h : SuffixText (some Text.maxDigits) suffix kind) : kind.labelFault? = none := by
  have hshort := h.isShort
  cases kind with
  | twizzle n => exact if_pos hshort
  | _ => rfl

/-- The parameters of an end mark in range are short enough to be written. -/
theorem isShort_of_admits {m : Move} (hskated : m.isSkated = false)
    (h : List.Forall₂ Field.Admits m.profile.schema m.params) : m.isShort = true := by
  cases m with
  | figure f => exact Bool.noConfusion hskated
  | repeatEnd e =>
      have hcount : List.Forall₂ Field.Admits RepeatEnd.profile.schema e.params := h
      rw [RepeatEnd.params, RepeatEnd.profile, List.forall₂_cons] at hcount
      exact Value.isWritable_of_isListable hcount.1.2.2
  | _ => rfl

theorem inRange_of_admits {m : Move} (h : List.Forall₂ Field.Admits m.profile.schema m.params) :
    m.InRange := by
  cases m with
  | repeatEnd e => trivial
  | _ => exact h

/-- A sound move of the grammar can be written and read again. -/
theorem readable_of_moveText {cs : List Char} {m : Move}
    (h : MoveText (some Text.maxDigits) cs m) (hsound : m.fault? = none) :
    m.Readable ∧ m.TakenFrom cs := by
  -- Parameters that populate a schema are in range.
  have hadmits : ∀ {tail : List Char}, m.profile.schema.populate tail = .ok m.params →
      List.Forall₂ Field.Admits m.profile.schema m.params :=
    fun hps => Schema.admits_of_populate (wellFormed_profile m) hps
  cases h with
  | curve _ hps =>
      exact ⟨⟨hsound, hadmits hps, rfl⟩, Or.inr ⟨_, List.suffix_append _ _, hps⟩⟩
  | straight _ hps =>
      exact ⟨⟨hsound, hadmits hps, rfl⟩, Or.inr ⟨_, List.suffix_append _ _, hps⟩⟩
  | hop _ hps =>
      refine ⟨⟨hsound, hadmits hps, rfl⟩, Or.inr ⟨_, ?_, hps⟩⟩
      exact (List.suffix_append _ _).trans (List.suffix_append _ _)
  | figure _ hsuffix hps =>
      refine ⟨⟨hsound, hadmits hps, hsuffix.isShort⟩, Or.inr ⟨_, ?_, hps⟩⟩
      exact (List.suffix_append _ _).trans (List.suffix_append _ _)
  | keyword hword hps =>
      have hskated : m.isSkated = false := by
        by_contra hskated
        rw [Move.keyword?_eq_none (Bool.not_eq_false _ ▸ hskated)] at hword
        simp only [reduceCtorEq] at hword
      exact ⟨⟨hsound, inRange_of_admits (hadmits hps), isShort_of_admits hskated (hadmits hps)⟩,
        Or.inr ⟨_, List.suffix_append _ _, hps⟩⟩
  | startSign => exact ⟨⟨hsound, List.Forall₂.nil, rfl⟩, Or.inr ⟨[], List.nil_suffix, rfl⟩⟩
  | endSign alternate =>
      have htwo : Text.isWritable 2 = true := by decide
      exact ⟨⟨hsound, trivial, htwo⟩, Or.inl ⟨_, rfl⟩⟩
  | countedEndSign alternate _ _ hn => exact ⟨⟨hsound, trivial, hn.isWritable⟩, Or.inl ⟨_, rfl⟩⟩

end IceFigures
