import IceFigures.Proofs.Suffixes
import IceFigures.Proofs.WritableMoves
import IceFigures.Step

/-!
# The Grammar of Fragments

What a fragment may be written as, apart from how it is read. A fragment is a
move, with a count and a duration in front of it if the move is skated, and a
move is given by its parts: footwork, code and suffix, or a keyword or a sign,
and a text that populates the schema of its kind with the values it has
(`MoveText`).

The reader tries suffixes one after another and never goes back, so each of
them has to be told apart from what could stand in its place. Parameters start
with no letter and no digit, and neither does what follows a hyphen in them
(`ParameterText`); suffixes go on with one of these. That suffices in all cases
(`readEdgeMove_append`), and every text of the grammar is read as what it stands
for (`read_of_fragmentText`).

How many digits a number may have is a parameter of the grammar. A number of
more digits than `maxDigits` would be refused.

## Main definitions

* `Numeral`: Digits and the number they stand for.
* `CountText`, `DurationText`: Counts and durations as they are written.
* `SuffixText`: Suffixes of figures.
* `MoveText`: Moves as they are written.
* `FragmentText`: Steps as they are written.

## Theorems

* `Move.checked_eq_ok_iff`: Moves that are accepted are sound, end and can be written.
* `readEdgeMove_append`: Suffixes are recognised in front of parameters.
* `readSkated?_of_moveText`, `readDirective_of_moveText`: Moves of the grammar
  are read.
* `read_of_fragmentText`: Steps of the grammar are read.
-/

namespace IceFigures

open Text (Stops)

/-! ### The grammar -/

section Grammar

variable (most : Option Nat)

/-- Digits of any script, as many as there may be at most, and the number they
    stand for. -/
structure Numeral (ds : List Char) (n : Nat) : Prop where
  nonempty : ds ≠ []
  digits : ∀ c ∈ ds, Text.isDigit c = true
  short : ∀ k ∈ most, ds.length ≤ k
  value : Text.ofDigits ds = n

/-- A count in front of a move, or none. -/
inductive CountText : List Char → Option Nat → Prop
  | none : CountText [] none
  | some {ds blanks : List Char} {n : Nat} (hn : Numeral most ds n)
      (hblanks : ∀ c ∈ blanks, Text.isBlank c = true) : CountText (ds ++ ')' :: blanks) (some n)

/-- A duration in front of a move, or none. -/
inductive DurationText : List Char → Option Nat → Prop
  | none : DurationText [] none
  | some {ds blanks : List Char} {n : Nat} (hn : Numeral most ds n)
      (hblanks : ∀ c ∈ blanks, Text.isBlank c = true) :
      DurationText ('/' :: (ds ++ blanks)) (some n)

/-- The suffix of a figure. The whole turns of a twizzle and the rotations of a
    jump are written in ASCII digits and without leading zeros. -/
inductive SuffixText : List Char → FigureKind → Prop
  | turn (t : Turn) : SuffixText t.suffix (.turn t)
  | footChange (f : FootChange) : SuffixText f.suffix (.footChange f)
  | changeOfEdge : SuffixText ['-', 'C', 'o', 'E'] .changeOfEdge
  | changeOfEdgeCapitals : SuffixText ['-', 'C', 'O', 'E'] .changeOfEdge
  | loop : SuffixText ['-', 'L', 'o', 'o', 'p'] .loop
  | twizzle {ds : List Char} {n : Nat} (hn : Numeral most ds n)
      (hascii : ∀ c ∈ ds, Text.isAsciiDigit c = true) (hzero : ds.head? ≠ some '0') :
      SuffixText (twizzleMark ++ ds) (.twizzle (2 * n : Nat))
  | halfTwizzle {ds : List Char} {n : Nat} (hn : Numeral most ds n)
      (hascii : ∀ c ∈ ds, Text.isAsciiDigit c = true) (hzero : ds.head? ≠ some '0') :
      SuffixText (twizzleMark ++ (ds ++ ['.', '5'])) (.twizzle (2 * n + 1 : Nat))
  | jump (j : Jump) {d : Char} (hascii : Text.isAsciiDigit d = true) (hzero : d ≠ '0') :
      SuffixText ('-' :: d :: j.letters) (.jump j (Text.ofDigits [d]))

/-- The keyword of a directive. -/
def Move.keyword? : Move → Option (List Char)
  | part (.shift _) => some Shift.keyword
  | part (.label _) => some Label.keyword
  | warp _ => some Warp.keyword
  | rink _ => some Rink.keyword
  | info _ => some Info.keyword
  | title _ => some Title.keyword
  | text _ => some FixedText.keyword
  | repeatStart => some repeatStartKeyword
  | repeatEnd _ => some RepeatEnd.keyword
  | _ => none

/-- A move as it is written, with parameters that populate its schema with the
    values it has. -/
inductive MoveText : List Char → Move → Prop
  | curve {c : Curve} {cs : List Char} (hedge : c.code.edge ≠ .flat)
      (hps : Curve.profile.schema.populate cs = .ok c.params) :
      MoveText (c.footwork.mark ++ c.code.letters ++ cs) (.part (.curve c))
  | straight {s : Straight} {cs : List Char} (hflat : s.code.edge = .flat)
      (hps : Straight.profile.schema.populate cs = .ok s.params) :
      MoveText (s.footwork.mark ++ s.code.letters ++ cs) (.part (.straight s))
  | hop {h : Hop} {cs : List Char} (hflat : h.code.edge = .flat)
      (hps : Hop.profile.schema.populate cs = .ok h.params) :
      MoveText (h.footwork.mark ++ h.code.letters ++ (['-', 'H', 'o', 'p'] ++ cs)) (.part (.hop h))
  | figure {f : Figure} {suffix cs : List Char} (hedge : f.entry.edge ≠ .flat)
      (hsuffix : SuffixText most suffix f.kind)
      (hps : f.kind.profile.schema.populate cs = .ok f.values) :
      MoveText (f.footwork.mark ++ f.entry.letters ++ (suffix ++ cs)) (.figure f)
  | keyword {m : Move} {word cs : List Char} (hword : m.keyword? = some word)
      (hps : m.profile.schema.populate cs = .ok m.params) : MoveText (word ++ cs) m
  | startSign : MoveText ['|', ':'] .repeatStart
  | endSign (alternate : Bool) :
      MoveText (RepeatEnd.sign alternate) (.repeatEnd { count := 2, alternate := alternate })
  | countedEndSign (alternate : Bool) {before behind ds : List Char} {n : Nat}
      (hbefore : ∀ c ∈ before, Text.isBlank c = true)
      (hbehind : ∀ c ∈ behind, Text.isBlank c = true) (hn : Numeral most ds n) :
      MoveText (RepeatEnd.sign alternate ++ (before ++ 'x' :: (behind ++ ds)))
        (.repeatEnd { count := n, alternate := alternate })

/-- A step as it is written: a sound move, with a count and a duration only if
    the move is skated. -/
inductive FragmentText : List Char → Step → Prop
  | skated {counted timed cs : List Char} {count duration : Option Nat} {m : Move}
      (hcount : CountText most counted count) (hduration : DurationText most timed duration)
      (hm : MoveText most cs m) (hskated : m.isSkated = true) (hsound : m.fault? = none) :
      FragmentText (counted ++ (timed ++ cs)) { move := m, count := count, duration := duration }
  | directive {cs : List Char} {m : Move} (hm : MoveText most cs m) (hskated : m.isSkated = false)
      (hsound : m.fault? = none) : FragmentText cs { move := m }

end Grammar

/-! ### Numbers -/

theorem numberOfDigits_eq_ok_iff {ds : List Char} {n : Nat} :
    numberOfDigits ds = .ok n ↔ ds.length ≤ Text.maxDigits ∧ Text.ofDigits ds = n := by
  rw [numberOfDigits, ← Nat.not_lt]
  split
  · simp only [reduceCtorEq, not_true_eq_false, false_and, *]
  · simp only [Except.ok.injEq, not_false_eq_true, true_and, *]

theorem Numeral.read {ds : List Char} {n : Nat} (h : Numeral (some Text.maxDigits) ds n) :
    numberOfDigits ds = .ok n :=
  numberOfDigits_eq_ok_iff.2 ⟨h.short _ rfl, h.value⟩

theorem Numeral.isWritable {ds : List Char} {n : Nat} (h : Numeral (some Text.maxDigits) ds n) :
    Text.isWritable (n : Int) = true :=
  isWritable_of_numberOfDigits h.read

theorem numeral_of_read {ds : List Char} {n : Nat} (hne : ds ≠ [])
    (hdigits : ∀ c ∈ ds, Text.isDigit c = true) (h : numberOfDigits ds = .ok n) :
    Numeral (some Text.maxDigits) ds n := by
  rcases numberOfDigits_eq_ok_iff.1 h with ⟨hshort, hvalue⟩
  refine ⟨hne, hdigits, ?_, hvalue⟩
  intro k hk
  rw [Option.mem_some_iff] at hk
  rwa [← hk]

/-- What is read as digits are digits, and there are some. -/
theorem Text.readDigits?_cases {cs ds rest : List Char}
    (h : Text.readDigits? cs = some (ds, rest)) :
    ds ≠ [] ∧ (∀ c ∈ ds, Text.isDigit c = true) ∧ cs = ds ++ rest := by
  have hcut := Text.readDigits?_eq_some h
  unfold Text.readDigits? at h
  split at h
  · simp only [reduceCtorEq] at h
  · rename_i hne
    rw [Option.some.injEq, Prod.mk.injEq] at h
    rw [List.isEmpty_iff, h.1] at hne
    refine ⟨hne, fun c hc => ?_, hcut⟩
    rw [← h.1] at hc
    exact List.mem_takeWhile_imp hc

theorem Text.dropBlanks_append_of_stops {blanks rest : List Char}
    (hblanks : ∀ c ∈ blanks, Text.isBlank c = true) (hrest : Stops Text.isBlank rest) :
    Text.dropBlanks (blanks ++ rest) = rest :=
  Text.dropWhile_append_of_stops hblanks hrest

/-- Blanks that are dropped stand in front of what is left. -/
theorem Text.exists_blanks (cs : List Char) :
    ∃ blanks, (∀ c ∈ blanks, Text.isBlank c = true) ∧ cs = blanks ++ Text.dropBlanks cs :=
  ⟨cs.takeWhile Text.isBlank, fun _ hc => List.mem_takeWhile_imp hc,
    List.takeWhile_append_dropWhile.symm⟩

theorem Move.keyword?_eq_none {m : Move} (h : m.isSkated = true) : m.keyword? = none := by
  cases m with
  | part p => cases p <;> first | rfl | exact Bool.noConfusion h
  | figure f => rfl
  | _ => exact Bool.noConfusion h

/-! ### Moves of the grammar are read -/

/-- A move passes its check if it is sound, has an end and can be written. -/
theorem Move.checked_eq_ok_iff {m m' : Move} :
    m.checked = .ok m' ↔
      m' = m ∧ m.fault? = none ∧ m.isFinite = true ∧ m.isWritable = true := by
  unfold checked
  split
  · simp only [reduceCtorEq, false_and, and_false, *]
  · cases m.isFinite <;> cases m.isWritable <;>
      simp only [Bool.not_false, Bool.not_true, Bool.false_eq_true, if_true, if_false,
        reduceCtorEq, and_false, and_true, Except.ok.injEq, eq_comm, *]

theorem Move.exists_checked_eq_error {m : Move} (h : m.fault? ≠ none) :
    ∃ fault, m.checked = .error fault := by
  rcases Option.ne_none_iff_exists'.1 h with ⟨fault, hfault⟩
  refine ⟨fault, ?_⟩
  rw [checked, hfault]

/-- A sound move whose parameters have 300 digits at most passes its check. -/
theorem Move.checked_of_holds {digits : Nat} (hmin : 1 ≤ digits) (hmax : digits ≤ 300) {m : Move}
    (h : List.Forall₂ (Field.Holds digits) m.profile.schema m.params) (hsound : m.fault? = none) :
    m.checked = .ok m :=
  checked_eq_ok_iff.2
    ⟨rfl, hsound, isFinite_of_holds hmin hmax h, isWritable_of_holds hmin hmax h⟩

/-- A sound move with parameters in range passes its check. -/
theorem Move.checked_of_admits {m : Move}
    (h : List.Forall₂ Field.Admits m.profile.schema m.params) (hsound : m.fault? = none) :
    m.checked = .ok m :=
  checked_of_holds (by decide) (by decide) (h.imp fun _ _ hp => hp.holds (Nat.le_refl 10)) hsound

theorem Move.checked_of_populate {m : Move} {cs : List Char}
    (hps : m.profile.schema.populate cs = .ok m.params) (hsound : m.fault? = none) :
    m.checked = .ok m :=
  checked_of_admits (Schema.admits_of_populate (wellFormed_profile m) hps) hsound

theorem readPart_of_populate {p : Part} {cs : List Char}
    (hps : p.profile.schema.populate cs = .ok p.params) (hsound : p.fault? = none)
    {build : List Param → Part} (hbuild : build p.params = p) :
    readPart p.profile.schema build cs = .ok (.part p) := by
  unfold readPart
  rw [hps]
  simp only [bind, Except.bind, hbuild]
  exact Move.checked_of_populate (m := .part p) hps hsound

/-- The parameters of a figure in range are not empty. -/
theorem ofValues_eq {kind : FigureKind} {values : List Param} {R : Field → Param → Prop}
    (h : List.Forall₂ R kind.profile.schema values) (entry : Code) (footwork : Footwork) :
    Figure.ofValues kind entry values footwork =
      { kind := kind, entry := entry, values := values, footwork := footwork } := by
  have hne : kind.profile.schema ≠ [] := by
    cases kind with
    | turn t => cases t <;> exact List.cons_ne_nil _ _
    | footChange c => cases c <;> exact List.cons_ne_nil _ _
    | jump j n => cases j <;> exact List.cons_ne_nil _ _
    | _ => exact List.cons_ne_nil _ _
  cases values with
  | nil => exact absurd (List.forall₂_nil_right_iff.1 h) hne
  | cons p ps => rfl

/-- A figure whose parameters populate its schema is checked. -/
theorem readFigure_of_populate {f : Figure} {cs : List Char}
    (hps : f.kind.profile.schema.populate cs = .ok f.values) :
    readFigure f.footwork f.entry f.kind cs = (Move.figure f).checked := by
  have hadmits := Schema.admits_of_populate (wellFormed_figureKind f.kind) hps
  unfold readFigure
  rw [hps]
  simp only [bind, Except.bind]
  rw [ofValues_eq hadmits]

/-- Digits behind the mark of a twizzle, with or without a half, are its number of turns. -/
theorem readEdgeMove_twizzle {ds cs : List Char} (hne : ds ≠ [])
    (hascii : ∀ c ∈ ds, Text.isAsciiDigit c = true) (hzero : ds.head? ≠ some '0')
    (h : ParameterText cs) (footwork : Footwork) (code : Code) :
    readEdgeMove footwork code (twizzleMark ++ ds ++ cs) =
        (numberOfDigits ds).bind (fun n => readFigure footwork code (.twizzle (2 * n : Nat)) cs) ∧
      readEdgeMove footwork code (twizzleMark ++ (ds ++ ['.', '5']) ++ cs) =
        (numberOfDigits ds).bind fun n =>
          readFigure footwork code (.twizzle (2 * n + 1 : Nat)) cs := by
  rcases List.exists_cons_of_ne_nil hne with ⟨d, ds, rfl⟩
  have hread := readHalfTurns?_append h hascii rfl fun hd => hzero (congrArg some hd)
  -- No fixed suffix starts like that of a twizzle.
  have htwizzle : ∀ {turns rest} (text : List Char), readHalfTurns? text = some (turns, rest) →
      readEdgeMove footwork code (twizzleMark ++ text) =
        turns.bind fun n => readFigure footwork code (.twizzle n) rest := by
    intro turns rest text hread
    have hfixed : readFixedSuffix? (twizzleMark ++ text) = none := rfl
    rw [readEdgeMove, hfixed]
    simp only [List.isPrefixOf?_eq_some_iff_append_eq.2 rfl, hread]
  rw [List.append_assoc, List.append_assoc, List.append_assoc]
  refine ⟨(htwizzle _ hread.1).trans ?_, (htwizzle _ hread.2).trans ?_⟩
  all_goals cases numberOfDigits (d :: ds) <;> simp only [Except.map, Except.bind]

/-- The suffix of a figure is recognised in front of parameters. -/
theorem readEdgeMove_append {suffix cs : List Char} {kind : FigureKind}
    (hsuffix : SuffixText (some Text.maxDigits) suffix kind) (h : ParameterText cs)
    (footwork : Footwork) (code : Code) :
    readEdgeMove footwork code (suffix ++ cs) = readFigure footwork code kind cs := by
  cases hsuffix with
  | turn t => cases t <;> rfl
  | footChange f => cases f <;> rfl
  | changeOfEdge => rfl
  | changeOfEdgeCapitals => rfl
  | loop => rfl
  | twizzle hn hascii hzero =>
      rw [(readEdgeMove_twizzle hn.nonempty hascii hzero h footwork code).1, hn.read]
      rfl
  | halfTwizzle hn hascii hzero =>
      rw [(readEdgeMove_twizzle hn.nonempty hascii hzero h footwork code).2, hn.read]
      rfl
  | @jump j d hascii hzero =>
      rw [List.cons_append, List.cons_append]
      exact readEdgeMove_jump hascii hzero j footwork code cs

theorem readSkated?_of_moveText {cs : List Char} {m : Move}
    (h : MoveText (some Text.maxDigits) cs m) (hskated : m.isSkated = true)
    (hsound : m.fault? = none) : readSkated? cs = some (.ok m) := by
  cases h with
  | @curve c cs hedge hps =>
      rw [readSkated?_append _ _ fun hflat => absurd hflat hedge, if_neg hedge,
        readEdgeMove_of_parameterText (parameterText_of_populate hps)]
      exact congrArg some (readPart_of_populate (p := .curve c) hps hsound rfl)
  | @straight s cs hflat hps =>
      have htext := parameterText_of_populate hps
      rw [readSkated?_append _ _ fun _ => htext.stops_edge, if_pos hflat,
        readFlatMove_of_parameterText htext]
      exact congrArg some (readPart_of_populate (p := .straight s) hps hsound rfl)
  | @hop h cs hflat hps =>
      have hstop : Stops (fun c => (Edge.ofLetter? c).isSome) (['-', 'H', 'o', 'p'] ++ cs) :=
        Text.stops_cons.2 (by decide)
      rw [readSkated?_append _ _ fun _ => hstop, if_pos hflat]
      exact congrArg some (readPart_of_populate (p := .hop h) hps hsound rfl)
  | @figure f suffix cs hedge hsuffix hps =>
      rw [readSkated?_append _ _ fun hflat => absurd hflat hedge, if_neg hedge,
        readEdgeMove_append hsuffix (parameterText_of_populate hps),
        readFigure_of_populate hps, Move.checked_of_populate (m := .figure f) hps hsound]
  | @keyword m word cs hword hps =>
      rw [Move.keyword?_eq_none hskated] at hword
      simp only [reduceCtorEq] at hword
  | startSign => exact Bool.noConfusion hskated
  | endSign => exact Bool.noConfusion hskated
  | countedEndSign => exact Bool.noConfusion hskated

/-! ### Directives of the grammar are read -/

theorem readKeyword_of_populate {m : Move} {cs : List Char}
    (hps : m.profile.schema.populate cs = .ok m.params) (hsound : m.fault? = none)
    {build : List Param → Except Fault Move} (hbuild : build m.params = .ok m) :
    readKeyword m.profile.schema build cs = .ok m := by
  unfold readKeyword
  rw [hps]
  simp only [bind, Except.bind, hbuild, Move.checked_of_populate hps hsound]

theorem Warp.ofParams_params (w : Warp) : Warp.ofParams w.params = .ok w := by
  change (optionalCode (optionalCodeText w.code)).map _ = _
  rw [optionalCode_optionalCodeText]
  rfl

theorem Shift.ofParams_params (s : Shift) : Shift.ofParams s.params = .ok s := by
  change (optionalCode (optionalCodeText s.code)).map _ = _
  rw [optionalCode_optionalCodeText]
  rfl

/-- Keywords are told apart. -/
theorem readDirective_keyword {m : Move} {word cs : List Char} (hword : m.keyword? = some word)
    (hps : m.profile.schema.populate cs = .ok m.params) (hsound : m.fault? = none) :
    readSkated? (word ++ cs) = none ∧ readDirective (word ++ cs) = .ok m := by
  cases m with
  | part p =>
      cases p with
      | shift s =>
          cases hword
          have hbuild : ((Shift.ofParams s.params).map fun t => Move.part (.shift t)) =
              .ok (.part (.shift s)) := by
            rw [Shift.ofParams_params]
            rfl
          exact ⟨rfl, readKeyword_of_populate hps hsound hbuild⟩
      | label l =>
          cases hword
          exact ⟨rfl, readKeyword_of_populate hps hsound rfl⟩
      | _ => simp only [Move.keyword?, reduceCtorEq] at hword
  | figure f => simp only [Move.keyword?, reduceCtorEq] at hword
  | warp w =>
      cases hword
      have hbuild : (Warp.ofParams w.params).map Move.warp = .ok (.warp w) := by
        rw [Warp.ofParams_params]
        rfl
      exact ⟨rfl, readKeyword_of_populate hps hsound hbuild⟩
  | _ =>
      cases hword
      exact ⟨rfl, readKeyword_of_populate hps hsound rfl⟩

theorem RepeatEnd.readCount?_append {before behind ds : List Char} {n : Nat}
    (hbefore : ∀ c ∈ before, Text.isBlank c = true)
    (hbehind : ∀ c ∈ behind, Text.isBlank c = true) (hn : Numeral (some Text.maxDigits) ds n) :
    RepeatEnd.readCount? (before ++ 'x' :: (behind ++ ds)) = some (.ok n) := by
  have hne : (before ++ 'x' :: (behind ++ ds)).isEmpty = false := by
    cases before <;> rfl
  have hstop : Stops Text.isBlank ds := by
    rcases List.exists_cons_of_ne_nil hn.nonempty with ⟨d, tail, rfl⟩
    exact Text.stops_cons.2 (Text.isBlank_of_isDigit (hn.digits d List.mem_cons_self))
  have hdigits := Text.readDigits?_append hn.nonempty hn.digits (Text.stops_nil _)
  rw [List.append_nil] at hdigits
  rw [RepeatEnd.readCount?, hne,
    Text.dropBlanks_append_of_stops hbefore (Text.stops_cons.2 (by decide))]
  simp only [Bool.false_eq_true, if_false, Text.dropBlanks_append_of_stops hbehind hstop, hdigits,
    hn.read]

theorem readDirective_endSign {alternate : Bool} {cs : List Char} {n : Nat}
    (hcs : RepeatEnd.readCount? cs = some (.ok n)) (hn : Text.isWritable (n : Int) = true)
    (hsound : (Move.repeatEnd ⟨n, alternate⟩).fault? = none) :
    readSkated? (RepeatEnd.sign alternate ++ cs) = none ∧
      readDirective (RepeatEnd.sign alternate ++ cs) = .ok (.repeatEnd ⟨n, alternate⟩) := by
  have hread : RepeatEnd.read? (RepeatEnd.sign alternate ++ cs) =
      (RepeatEnd.readCount? cs).map (RepeatEnd.ofCount alternate) := by
    cases alternate <;> rfl
  have hstart : RepeatEnd.sign alternate ++ cs ≠ startSign := by
    cases alternate <;> exact fun h => absurd (List.cons.inj h).1 (by decide)
  refine ⟨by cases alternate <;> rfl, ?_⟩
  have hwritable : (Move.repeatEnd ⟨n, alternate⟩).isWritable = true := by
    simp only [Move.isWritable, Move.params, RepeatEnd.params, Param.areWritable, List.all_cons,
      List.all_nil, Value.isWritable, hn, Bool.and_self]
  rw [readDirective, if_neg hstart, hread, hcs]
  exact Move.checked_eq_ok_iff.2 ⟨rfl, hsound, rfl, hwritable⟩

theorem readDirective_of_moveText {cs : List Char} {m : Move}
    (h : MoveText (some Text.maxDigits) cs m) (hskated : m.isSkated = false)
    (hsound : m.fault? = none) : readSkated? cs = none ∧ readDirective cs = .ok m := by
  cases h with
  | curve => exact Bool.noConfusion hskated
  | straight => exact Bool.noConfusion hskated
  | hop => exact Bool.noConfusion hskated
  | figure => exact Bool.noConfusion hskated
  | keyword hword hps => exact readDirective_keyword hword hps hsound
  | startSign => exact ⟨rfl, rfl⟩
  | endSign alternate =>
      rw [← List.append_nil (RepeatEnd.sign alternate)]
      exact readDirective_endSign rfl (by decide) hsound
  | countedEndSign alternate hbefore hbehind hn =>
      exact readDirective_endSign (RepeatEnd.readCount?_append hbefore hbehind hn) hn.isWritable
        hsound

/-! ### Steps of the grammar are read -/

/-- A move starts with a letter or a sign of its own, and not as a count or a
    duration do. -/
theorem MoveText.eq_cons {most : Option Nat} {cs : List Char} {m : Move} (h : MoveText most cs m) :
    ∃ c tail, cs = c :: tail ∧ c ∈ moveOpenings := by
  cases h with
  | curve => exact mark_append_letters_eq_cons _ _ _
  | straight => exact mark_append_letters_eq_cons _ _ _
  | hop => exact mark_append_letters_eq_cons _ _ _
  | figure => exact mark_append_letters_eq_cons _ _ _
  | @keyword m word cs hword _ =>
      cases m with
      | part p =>
          cases p <;> first
            | (cases hword; exact ⟨_, _, rfl, by decide⟩)
            | simp only [Move.keyword?, reduceCtorEq] at hword
      | figure f => simp only [Move.keyword?, reduceCtorEq] at hword
      | _ =>
          cases hword
          exact ⟨_, _, rfl, by decide⟩
  | startSign => exact ⟨_, _, rfl, by decide⟩
  | endSign alternate => cases alternate <;> exact ⟨_, _, rfl, by decide⟩
  | countedEndSign alternate => cases alternate <;> exact ⟨_, _, rfl, by decide⟩

theorem MoveText.stops {most : Option Nat} {cs : List Char} {m : Move} (h : MoveText most cs m)
    {p : Char → Bool} (hp : ∀ c ∈ moveOpenings, p c = false) : Stops p cs := by
  rcases h.eq_cons with ⟨c, tail, rfl, hc⟩
  exact Text.stops_cons.2 (hp c hc)

theorem readCount_of_countText {counted rest : List Char} {count : Option Nat}
    (h : CountText (some Text.maxDigits) counted count) (hdigit : Stops Text.isDigit rest)
    (hblank : Stops Text.isBlank rest) :
    Step.readCount (counted ++ rest) = .ok (count, rest) := by
  cases h with
  | none => rw [List.nil_append, Step.readCount, Text.readDigits?_of_stops hdigit]
  | @some ds blanks n hn hblanks =>
      have hstop : Stops Text.isDigit (')' :: (blanks ++ rest)) := Text.stops_cons.2 (by decide)
      rw [List.append_assoc, List.cons_append, Step.readCount,
        Text.readDigits?_append hn.nonempty hn.digits hstop]
      simp only [hn.read, Except.map, Text.dropBlanks_append_of_stops hblanks hblank]

theorem readDuration_of_opening {c : Char} (hc : c ∈ moveOpenings) (tail : List Char) :
    Step.readDuration (c :: tail) = .ok (none, c :: tail) := by
  refine Step.readDuration.eq_2 _ fun tail' hslash => ?_
  rw [(List.cons.inj hslash).1] at hc
  exact absurd hc (by decide)

theorem readDuration_of_durationText {timed cs : List Char} {duration : Option Nat} {m : Move}
    (h : DurationText (some Text.maxDigits) timed duration)
    (hm : MoveText (some Text.maxDigits) cs m) :
    Step.readDuration (timed ++ cs) = .ok (duration, cs) := by
  cases h with
  | none =>
      rcases hm.eq_cons with ⟨c, tail, rfl, hc⟩
      exact readDuration_of_opening hc tail
  | @some ds blanks n hn hblanks =>
      have hstop : Stops Text.isDigit (blanks ++ cs) := by
        cases blanks with
        | nil => exact hm.stops (by decide)
        | cons b blanks =>
            rw [List.cons_append, Text.stops_cons]
            exact Text.isDigit_of_isBlank (hblanks b List.mem_cons_self)
      rw [List.cons_append, List.append_assoc, Step.readDuration,
        Text.readDigits?_append hn.nonempty hn.digits hstop]
      simp only [hn.read, Except.map,
        Text.dropBlanks_append_of_stops hblanks (hm.stops (by decide))]

/-- Steps of the grammar are read. -/
theorem read_of_fragmentText {cs : List Char} {s : Step}
    (h : FragmentText (some Text.maxDigits) cs s) : Step.read cs = .ok s := by
  cases h with
  | @skated counted timed cs count duration m hcount hduration hm hskated hsound =>
      have hstops : ∀ {p : Char → Bool}, p '/' = false → (∀ c ∈ moveOpenings, p c = false) →
          Stops p (timed ++ cs) := by
        intro p hslash hmove
        cases hduration with
        | none => exact hm.stops hmove
        | some _ _ => exact Text.stops_cons.2 hslash
      unfold Step.read
      rw [readCount_of_countText hcount (hstops (by decide) (by decide))
        (hstops (by decide) (by decide))]
      simp only [bind, Except.bind]
      rw [readDuration_of_durationText hduration hm]
      simp only [readSkated?_of_moveText hm hskated hsound, Except.map]
  | @directive cs m hm hskated hsound =>
      rcases readDirective_of_moveText hm hskated hsound with ⟨hnone, hread⟩
      have hcount := readCount_of_countText .none (hm.stops (by decide)) (hm.stops (by decide))
      have hduration := readDuration_of_durationText .none hm
      rw [List.nil_append] at hcount hduration
      unfold Step.read
      rw [hcount]
      simp only [bind, Except.bind]
      rw [hduration]
      simp only [hnone, Option.isSome_none, Bool.or_self, Bool.false_eq_true, if_false, hread,
        Except.map]

end IceFigures
