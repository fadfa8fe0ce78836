import IceFigures.Proofs.ParameterRange

/-!
# Moves That Can Be Written

A number may be too long to be written, and what has such a number in it can be neither
written nor drawn. Long before that an angle is too large for an arc to have an end. No text
gives such a number to a move, since a parameter has ten digits at most.

That is not all there is to it. The lengths and angles of the parts of a figure and the
distances of the lines of a rink are computed from the parameters, and what is computed may
be longer than what it is computed from. Layouts add parameters up and take fixed shares and
multiples of them, so no number grows by more than four digits. A twizzle has any number of
parts, but they all are parts of one and the same half-turn.

How many digits the parameters have is a parameter of all this, up to 300.

## Main definitions

* `Part.IsShort`: The numbers of a part have at most some digits.
* `TwoPart.IsShort`, `Twist.IsShort`, `Leap.IsShort`: So have those of one layout.

## Theorems

* `Turn.short_parts`, `FootChange.short_parts`, `short_changeOfEdgeParts`, `short_loopParts`,
  `short_twizzleParts`, `Jump.short_parts`: The numbers of each layout.
* `Figure.short_parts_of_holds`: The numbers of the parts of a figure.
* `Move.isFinite_of_holds`, `Move.isWritable_of_holds`: Moves with short parameters have an
  end and can be written.
-/

namespace IceFigures

/-! ### Numbers of parts -/

/-- The numbers of a part have at most some digits. -/
def Part.IsShort (digits : Nat) : Part → Prop
  | curve c =>
    Text.IsShort digits c.angle ∧ Text.IsShort digits c.length ∧ Text.IsShort digits c.labelOffset
  | straight s => Text.IsShort digits s.length
  | hop h => Text.IsShort digits h.size ∧ Text.IsShort digits h.labelOffset
  | shift s =>
    Text.IsShort digits s.side ∧ Text.IsShort digits s.forward ∧ Text.IsShort digits s.rotation
  | label l =>
    Text.IsShort digits l.side ∧ Text.IsShort digits l.forward ∧ Text.IsShort digits l.fontSize ∧
      Text.IsShort digits l.rotation

/-- Angles of at most 304 digits have an end. -/
theorem Curve.pow_le_maxAngle {digits : Nat} (h : digits ≤ 304) :
    (10 : Int) ^ digits ≤ maxAngle :=
  Int.le_trans (Text.pow_le_pow_of_le h) (by decide +kernel)

theorem Part.isFinite_of_isShort {digits : Nat} (hdigits : digits ≤ 304) {p : Part}
    (h : p.IsShort digits) : p.isFinite = true := by
  cases p with
  | curve c =>
      exact decide_eq_true
        (Int.le_trans (Int.le_of_lt h.1.2) (Curve.pow_le_maxAngle hdigits))
  | _ => rfl

theorem Part.isWritable_of_isShort {digits : Nat} (hdigits : digits ≤ Text.maxDigits) {p : Part}
    (h : p.IsShort digits) : p.isWritable = true := by
  have hshort : ∀ {n : Int}, Text.IsShort digits n → (Value.number n).isWritable = true :=
    fun hn => hn.isWritable hdigits
  have htext : ∀ s, (Value.text s).isWritable = true := fun _ => rfl
  cases p with
  | curve c =>
      rcases h with ⟨hangle, hlength, hoffset⟩
      simp only [isWritable, params, Curve.params, Param.areWritable, List.all_cons, List.all_nil,
        hshort hangle, hshort hlength, hshort hoffset, htext, Bool.and_self]
  | straight s =>
      simp only [isWritable, params, Straight.params, Param.areWritable, List.all_cons,
        List.all_nil, hshort h, htext, Bool.and_self]
  | hop h' =>
      simp only [isWritable, params, Hop.params, Param.areWritable, List.all_cons, List.all_nil,
        hshort h.1, hshort h.2, htext, Bool.and_self]
  | shift s =>
      rcases h with ⟨hside, hforward, hrotation⟩
      simp only [isWritable, params, Shift.params, Param.areWritable, List.all_cons, List.all_nil,
        hshort hside, hshort hforward, hshort hrotation, htext, Bool.and_self]
  | label l =>
      rcases h with ⟨hside, hforward, hsize, hrotation⟩
      simp only [isWritable, params, Label.params, Param.areWritable, List.all_cons, List.all_nil,
        hshort hside, hshort hforward, hshort hsize, hshort hrotation, htext, Bool.and_self]

/-! ### Numbers of layouts -/

/-- The parameters of a figure with an entry and an exit have at most some digits. -/
structure TwoPart.IsShort (digits : Nat) (v : TwoPart) : Prop where
  angle1 : Text.IsShort digits v.angle1
  len1 : Text.IsShort digits v.len1
  angle2 : Text.IsShort digits v.angle2
  len2 : Text.IsShort digits v.len2
  labelOffset : Text.IsShort digits v.labelOffset

/-- The parameters of a twizzle have at most some digits. -/
structure Twist.IsShort (digits : Nat) (v : Twist) : Prop where
  angle : Text.IsShort digits v.angle
  len : Text.IsShort digits v.len
  preAngle : Text.IsShort digits v.preAngle
  preLen : Text.IsShort digits v.preLen
  postAngle : Text.IsShort digits v.postAngle
  postLen : Text.IsShort digits v.postLen

/-- The parameters of a jump have at most some digits. -/
structure Leap.IsShort (digits : Nat) (v : Leap) : Prop where
  entryAngle : Text.IsShort digits v.entryAngle
  entryLen : Text.IsShort digits v.entryLen
  exitAngle : Text.IsShort digits v.exitAngle
  exitLen : Text.IsShort digits v.exitLen
  labelOffset : Text.IsShort digits v.labelOffset

/-! ### Signs of layouts -/

theorem Code.turn_cases (c : Code) : c.turn = 0 ∨ c.turn = 1 ∨ c.turn = -1 := by
  rcases c with ⟨_ | _ | _, _ | _, _ | _ | _⟩ <;> decide

/-- A layout on a legal entry has one of two signs. -/
theorem FigureKind.hand?_cases {kind : FigureKind} {c : Code} {sense : Int}
    (h : kind.hand? c = some sense) : sense = 1 ∨ sense = -1 := by
  have hcurving : (if c.turn = 0 then none else some c.turn) = some sense →
      sense = 1 ∨ sense = -1 := by
    split
    · intro hnone
      cases hnone
    · intro hsome
      exact Option.some.inj hsome ▸ c.turn_cases.resolve_left ‹_›
  cases kind with
  | footChange f =>
      simp only [hand?, FootChange.side?] at h
      split at h <;> first
        | exact Or.inl (Option.some.inj h).symm
        | exact Or.inr (Option.some.inj h).symm
        | cases h
  | jump j n =>
      simp only [hand?, Jump.sense?] at h
      split at h <;> first
        | exact Or.inl (Option.some.inj h).symm
        | exact Or.inr (Option.some.inj h).symm
        | cases h
  | _ => exact hcurving h

theorem Figure.hand_of_legal {f : Figure} (h : (f.kind.hand? f.entry).isNone = false) :
    f.hand = 1 ∨ f.hand = -1 := by
  rcases Option.isSome_iff_exists.1 (Option.isNone_eq_false_iff.1 h) with ⟨sense, hsense⟩
  rw [hand, hsense]
  exact FigureKind.hand?_cases hsense

theorem Figure.hand_cases (f : Figure) : f.hand = 0 ∨ f.hand = 1 ∨ f.hand = -1 := by
  cases h : (f.kind.hand? f.entry).isNone with
  | true =>
      rw [hand, Option.isNone_iff_eq_none.1 h]
      exact Or.inl rfl
  | false => exact Or.inr (hand_of_legal h)

/-! ### Layouts -/

section Layouts

variable (footwork : Footwork) (c : Code)

section TwoPart

variable {digits : Nat} {v : TwoPart} (h : v.IsShort digits)

include h

theorem Turn.short_parts (t : Turn) : ∀ p ∈ t.parts v footwork c, p.IsShort (digits + 3) := by
  have hturn := c.turn_cases
  rcases h with ⟨hangle1, hlen1, hangle2, hlen2, hoffset⟩
  unfold Text.IsShort at hangle1 hlen1 hangle2 hlen2 hoffset
  have hone : (0 : Int) < 10 ^ digits := Int.pow_pos (by decide)
  cases t
  all_goals
    simp only [parts, layout, threeLayout, bracketLayout, rockerLayout, counterLayout,
      TwoPart.entry, TwoPart.plain, TwoPart.flat, TwoPart.exit, cusp, cuspLabel, cuspRotation,
      lobeAngle, bracketFlat, rockerFlat, threeQuarters, longShare, cuspShare, List.map_cons,
      List.map_nil, List.forall_mem_cons, List.not_mem_nil, false_imp_iff, implies_true, and_true,
      Part.IsShort, Text.IsShort, pow_succ]
    omega

theorem FootChange.short_parts (f : FootChange) {side : Int}
    (hside : side = 0 ∨ side = 1 ∨ side = -1) :
    ∀ p ∈ f.parts v footwork side c, p.IsShort (digits + 3) := by
  rcases h with ⟨hangle1, hlen1, hangle2, hlen2, hoffset⟩
  unfold Text.IsShort at hangle1 hlen1 hangle2 hlen2 hoffset
  have hone : (0 : Int) < 10 ^ digits := Int.pow_pos (by decide)
  cases f
  all_goals
    simp only [parts, layout, stepLayout, TwoPart.entry, TwoPart.exit, List.cons_append,
      List.nil_append, List.map_cons, List.map_nil, List.forall_mem_cons, List.not_mem_nil,
      false_imp_iff, implies_true, and_true, Part.IsShort, Text.IsShort, pow_succ]
    omega

theorem short_changeOfEdgeParts {flatLen : Int} (hflat : Text.IsShort digits flatLen) :
    ∀ p ∈ changeOfEdgeParts v flatLen footwork c, p.IsShort (digits + 3) := by
  rcases h with ⟨hangle1, hlen1, hangle2, hlen2, hoffset⟩
  unfold Text.IsShort at hangle1 hlen1 hangle2 hlen2 hoffset hflat
  have hone : (0 : Int) < 10 ^ digits := Int.pow_pos (by decide)
  simp only [changeOfEdgeParts, changeOfEdgeLayout, TwoPart.entry, TwoPart.flat, TwoPart.exit,
    List.map_cons, List.map_nil, List.forall_mem_cons, List.not_mem_nil, false_imp_iff,
    implies_true, and_true, Part.IsShort, Text.IsShort, pow_succ]
  omega

theorem short_loopParts : ∀ p ∈ loopParts v footwork c, p.IsShort (digits + 3) := by
  rcases h with ⟨hangle1, hlen1, hangle2, hlen2, hoffset⟩
  unfold Text.IsShort at hangle1 hlen1 hangle2 hlen2 hoffset
  have hone : (0 : Int) < 10 ^ digits := Int.pow_pos (by decide)
  simp only [loopParts, loopLayout, loopArcs, TwoPart.entry, TwoPart.plain, TwoPart.exit,
    List.map_cons, List.map_nil, List.cons_append, List.nil_append, List.forall_mem_cons,
    List.not_mem_nil, false_imp_iff, implies_true, and_true, Part.IsShort, Text.IsShort, pow_succ]
  omega

end TwoPart

section Twizzle

variable {digits : Nat} {v : Twist} (h : v.IsShort digits)

include h

theorem Twist.short_halfTurn (label : String) (total index : Nat) :
    ∀ p ∈ v.halfTurn label total index c, p.IsShort (digits + 3) := by
  rcases h with ⟨hangle, hlen, -, -, -, -⟩
  unfold Text.IsShort at hangle hlen
  have hone : (0 : Int) < 10 ^ digits := Int.pow_pos (by decide)
  -- The rotation at the cusp is one of three multiples of the angle.
  have hcusp : -(10 ^ digits * 10) < -c.turn * 2 * v.angle ∧
      -c.turn * 2 * v.angle < 10 ^ digits * 10 := by
    rcases c.turn_cases with hturn | hturn | hturn <;> rw [hturn] <;> omega
  rw [halfTurn, halfTurnLayout]
  split <;> split
  all_goals
    simp only [List.map_cons, List.map_nil, List.cons_append, List.nil_append, List.append_nil,
      List.forall_mem_cons, List.not_mem_nil, false_imp_iff, implies_true, and_true, far, near,
      arc, cusp, threeQuarters, cuspShare, Part.IsShort, Text.IsShort, pow_succ]
    omega

-- By induction on the half-turns left, all of which are alike.
theorem Twist.short_halfTurns (label : String) (total rest index : Nat) :
    ∀ p ∈ v.halfTurns label total rest index c, p.IsShort (digits + 3) := by
  induction rest generalizing index c with
  | zero => exact fun _ hp => absurd hp List.not_mem_nil
  | succ rest ih =>
      rw [halfTurns_succ, List.forall_mem_append]
      exact ⟨short_halfTurn c h label total index, ih c.reversed (index + 1)⟩

theorem short_twizzleParts (halfTurns : Int) :
    ∀ p ∈ twizzleParts v halfTurns footwork c, p.IsShort (digits + 3) := by
  have hmiddle := Twist.short_halfTurns c h
    (codeWithSuffix c (twizzleMark ++ turnsText halfTurns)) halfTurns.toNat halfTurns.toNat 0
  rcases h with ⟨-, -, hpreAngle, hpreLen, hpostAngle, hpostLen⟩
  unfold Text.IsShort at hpreAngle hpreLen hpostAngle hpostLen
  have hone : (0 : Int) < 10 ^ digits := Int.pow_pos (by decide)
  rw [twizzleParts_eq, List.forall_mem_append, List.forall_mem_cons]
  refine ⟨⟨?_, hmiddle⟩, ?_⟩
  all_goals
    simp only [Twist.entry, Twist.arc, List.forall_mem_cons, List.not_mem_nil, false_imp_iff,
      implies_true, and_true, Part.IsShort, Text.IsShort, pow_succ]
    omega

end Twizzle

theorem Jump.short_parts {digits : Nat} {v : Leap} (h : v.IsShort digits) (j : Jump)
    (rotations : Int) {sense : Int}
    (hsense : sense = 0 ∨ sense = 1 ∨ sense = -1) :
    ∀ p ∈ j.parts v rotations footwork sense c, p.IsShort (digits + 3) := by
  rcases h with ⟨hentryAngle, hentryLen, hexitAngle, hexitLen, hoffset⟩
  unfold Text.IsShort at hentryAngle hentryLen hexitAngle hexitLen hoffset
  have hone : (0 : Int) < 10 ^ digits := Int.pow_pos (by decide)
  cases j
  all_goals
    simp only [parts, layout, isToeJump, pick, Bool.false_eq_true, if_true, if_false,
      Leap.tighteningLayout, arcs, Leap.entry, Leap.plain, Leap.takeOff, Leap.landing,
      List.map_cons, List.map_nil, List.cons_append, List.nil_append, List.forall_mem_cons,
      List.not_mem_nil, false_imp_iff, implies_true, and_true, Part.IsShort, Text.IsShort, pow_succ]
    omega

end Layouts

/-! ### Parameters with short numbers -/

namespace Schema

variable {schema : Schema} {values : List Param} {digits : Nat}

theorem areWritable_of_holds (hdigits : digits ≤ Text.maxDigits)
    (h : List.Forall₂ (Field.Holds digits) schema values) : Param.areWritable values = true := by
  induction h with
  | nil => rfl
  | @cons f p _ _ hp _ ih =>
      have hwritable : p.value.isWritable = true := by
        have hshort := hp.2.2
        cases hv : p.value with
        | number n =>
            rw [hv] at hshort
            exact Text.IsShort.isWritable hshort hdigits
        | _ => rfl
      rw [Param.areWritable, List.all_cons, hwritable, Bool.true_and]
      exact ih

/-- A field that holds no texts has a number of no more digits. -/
theorem isShort_number_of_holds (hdigits : 1 ≤ digits) (hnames : schema.names.Nodup)
    (h : List.Forall₂ (Field.Holds digits) schema values) {name : String}
    (hname : ∃ f ∈ schema, f.name = name ∧ f.range ≠ .text) :
    Text.IsShort digits (Param.number values name) := by
  rcases hname with ⟨f, hf, rfl, hrange⟩
  rcases value?_of_forall₂ hnames
    (R := fun f v => f.range.accepts v = true ∧ v.IsShort digits) h hf with
    ⟨v, hv, haccepts, hshort⟩
  rw [Param.number, hv]
  cases v with
  | number n => exact hshort
  | flag b =>
      have hflag : Text.IsShort 1 (if b then 1 else 0) := by cases b <;> decide
      exact hflag.mono hdigits
  | text s => exact absurd (Range.eq_text_of_accepts haccepts) hrange

end Schema

theorem TwoPart.isShort_ofParams {digits : Nat} {ps : List Param}
    (h : ∀ name ∈ ["angle", "len", "delta-angle", "delta-len", "label-offset"],
      Text.IsShort digits (Param.number ps name)) : (TwoPart.ofParams ps).IsShort (digits + 1) := by
  simp only [List.forall_mem_cons, List.not_mem_nil, false_imp_iff, implies_true, and_true,
    Text.IsShort] at h
  have hone : (0 : Int) < 10 ^ digits := Int.pow_pos (by decide)
  constructor <;> simp only [ofParams, Text.IsShort, pow_succ] <;> omega

theorem Twist.isShort_ofParams {digits : Nat} {ps : List Param}
    (h : ∀ name ∈ ["angle", "len", "pre-angle", "pre-len", "post-angle", "post-len"],
      Text.IsShort digits (Param.number ps name)) : (Twist.ofParams ps).IsShort (digits + 1) := by
  simp only [List.forall_mem_cons, List.not_mem_nil, false_imp_iff, implies_true, and_true,
    Text.IsShort] at h
  have hone : (0 : Int) < 10 ^ digits := Int.pow_pos (by decide)
  constructor <;> simp only [ofParams, Text.IsShort, pow_succ] <;> omega

theorem Leap.isShort_ofParams {digits : Nat} {ps : List Param}
    (h : ∀ name ∈ ["entry-angle", "entry-len", "label-offset", "exit-angle", "exit-len"],
      Text.IsShort digits (Param.number ps name)) : (Leap.ofParams ps).IsShort (digits + 1) := by
  simp only [List.forall_mem_cons, List.not_mem_nil, false_imp_iff, implies_true, and_true,
    Text.IsShort] at h
  have hone : (0 : Int) < 10 ^ digits := Int.pow_pos (by decide)
  constructor <;> simp only [ofParams, Text.IsShort, pow_succ] <;> omega

variable {digits : Nat}

namespace Figure

/-- What a figure reads as a number is no text. -/
theorem range_of_mem_numbers (kind : FigureKind) :
    ∀ name ∈ numbersFirst kind ++ numbersNext kind ++ numbersLast kind,
      ∃ f ∈ kind.profile.schema, f.name = name ∧ f.range ≠ .text := by
  cases kind with
  | turn t =>
      rw [FigureKind.profile, t.profile_schema]
      change ∀ name ∈ ["angle", "len", "delta-angle", "delta-len", "label-offset"], _
      decide
  | footChange g =>
      rw [FigureKind.profile, g.profile_schema]
      change ∀ name ∈ ["angle", "len", "delta-angle", "delta-len", "label-offset"], _
      decide
  | twizzle n =>
      change ∀ name ∈ ["angle", "len", "pre-angle", "pre-len", "post-angle", "post-len"],
        ∃ f ∈ twizzleSchema, _
      decide
  | jump j n =>
      rw [FigureKind.profile, j.profile_schema]
      change ∀ name ∈ ["entry-angle", "entry-len", "label-offset", "exit-angle", "exit-len"], _
      decide
  | _ => decide

/-- The numbers of the parts have four digits more than the parameters at most. -/
theorem short_parts_of_holds (hmin : 1 ≤ digits) {f : Figure}
    (h : List.Forall₂ (Field.Holds digits) f.kind.profile.schema f.values) :
    ∀ p ∈ f.parts, p.IsShort (digits + 1 + 3) := by
  have hnumber : ∀ name ∈ numbersFirst f.kind ++ numbersNext f.kind ++ numbersLast f.kind,
      Text.IsShort digits (Param.number f.values name) := fun name hname =>
    Schema.isShort_number_of_holds hmin (wellFormed_figureKind f.kind).names_nodup h
      (range_of_mem_numbers f.kind name hname)
  have hhand := f.hand_cases
  rcases f with ⟨kind, entry, values, footwork⟩
  simp only at hnumber
  cases kind with
  | turn t => exact t.short_parts footwork entry (TwoPart.isShort_ofParams hnumber)
  | footChange g =>
      exact g.short_parts footwork entry (TwoPart.isShort_ofParams hnumber) hhand
  | changeOfEdge =>
      have hnumbers := List.forall_mem_append.1 hnumber
      have hflat : Text.IsShort (digits + 1) (Param.number values "flat-len") :=
        (hnumbers.2 "flat-len" List.mem_cons_self).mono (Nat.le_succ digits)
      exact short_changeOfEdgeParts footwork entry (TwoPart.isShort_ofParams hnumbers.1) hflat
  | loop => exact short_loopParts footwork entry (TwoPart.isShort_ofParams hnumber)
  | twizzle n => exact short_twizzleParts footwork entry (Twist.isShort_ofParams hnumber) n
  | jump j n =>
      exact j.short_parts footwork entry (Leap.isShort_ofParams hnumber) n hhand

variable (hmin : 1 ≤ digits) (hmax : digits ≤ 300) {f : Figure}
  (h : List.Forall₂ (Field.Holds digits) f.kind.profile.schema f.values)

include hmin hmax h

theorem isFinite_of_holds : f.isFinite = true := by
  rw [isFinite, List.all_eq_true]
  exact fun p hp => Part.isFinite_of_isShort (by omega) (short_parts_of_holds hmin h p hp)

theorem isWritable_of_holds : f.isWritable = true := by
  have hdigits : digits + 1 + 3 ≤ Text.maxDigits :=
    Nat.le_trans (Nat.add_le_add_right hmax 4) (by decide)
  rw [isWritable, Schema.areWritable_of_holds (by omega) h, Bool.true_and, List.all_eq_true]
  exact fun p hp => Part.isWritable_of_isShort hdigits (short_parts_of_holds hmin h p hp)

end Figure

theorem Rink.isWritable_of_holds (hmax : digits ≤ 300) {r : Rink}
    (h : List.Forall₂ (Field.Holds digits) profile.schema r.params) : r.isWritable = true := by
  have hdigits : digits + 1 ≤ Text.maxDigits :=
    Nat.le_trans (Nat.add_le_add_right hmax 1) (by decide)
  have hwritable : ∀ {n : Int}, -(10 ^ digits * 10) < n ∧ n < 10 ^ digits * 10 →
      Text.isWritable n = true := by
    intro n hn
    rw [← pow_succ] at hn
    exact Text.IsShort.isWritable hn hdigits
  simp only [profile, params, List.forall₂_cons] at h
  rcases h with ⟨⟨-, -, hwidth⟩, ⟨-, -, hlength⟩, -, -, -, ⟨-, -, hmid⟩, ⟨-, -, hgoal⟩, -⟩
  simp only [Value.IsShort, Text.IsShort] at hwidth hlength hmid hgoal
  have hlong : -10 ^ digits < r.longSide ∧ r.longSide < 10 ^ digits := by
    unfold longSide
    split <;> assumption
  rw [isWritable, pairedLines, List.all_append, Bool.and_eq_true]
  constructor
  all_goals
    split
    · simp only [List.all_cons, List.all_nil, Bool.and_true, Bool.and_eq_true]
      exact ⟨hwritable (by omega), hwritable (by omega)⟩
    · rfl

namespace Move

variable (hmin : 1 ≤ digits) (hmax : digits ≤ 300) {m : Move}
  (h : List.Forall₂ (Field.Holds digits) m.profile.schema m.params)

include hmin hmax h

/-- Moves whose parameters have 300 digits at most have an end. -/
theorem isFinite_of_holds : m.isFinite = true := by
  cases m with
  | part p =>
      cases p with
      | curve c =>
          have hangle : c.angle < 10 ^ digits := (List.forall₂_cons.1 h).1.2.2.2
          exact decide_eq_true
            (Int.le_trans (Int.le_of_lt hangle) (Curve.pow_le_maxAngle (by omega)))
      | _ => rfl
  | figure f => exact f.isFinite_of_holds hmin hmax h
  | _ => rfl

/-- Moves whose parameters have 300 digits at most can be written. -/
theorem isWritable_of_holds : m.isWritable = true := by
  have hdigits : digits ≤ Text.maxDigits := Nat.le_trans hmax (by decide)
  have hparams := Schema.areWritable_of_holds hdigits h
  cases m with
  | figure f => exact f.isWritable_of_holds hmin hmax h
  | rink r =>
      rw [isWritable, Rink.isWritable_of_holds hmax h, Bool.and_true]
      exact hparams
  | _ => exact hparams

end Move

end IceFigures
