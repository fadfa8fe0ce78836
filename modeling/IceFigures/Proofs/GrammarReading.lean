import IceFigures.Proofs.Grammar

/-!
# Reading by the Grammar

Whatever is read as a move or as a step is written as the grammar says, so a
fragment is read exactly if it is a text of the grammar, and as the step that
it stands for there. Since reading is a function and finds every text of the
grammar, no text stands for two steps.

Fragments are read with at most `maxDigits` digits in a number, leading zeros
included, and a number of more digits is refused
(`not_ofFragment_of_fragmentText`).

## Theorems

* `moveText_of_readSkated?`, `moveText_of_readDirective`: Moves that are read are
  moves of the grammar.
* `fragmentText_of_read`: Steps that are read are steps of the grammar.
* `read_eq_ok_iff`: What texts are read as.
* `ofFragment_eq_ok_iff`: What fragments are read as.
-/

namespace IceFigures

open Text (Stops)

/-! ### Moves that are read are moves of the grammar -/

/-- A move that passes its check is the one that was built, and sound. -/
theorem checked_cases {m m' : Move} (h : m.checked = .ok m') : m' = m ∧ m.fault? = none := by
  rcases Move.checked_eq_ok_iff.1 h with ⟨hm, hsound, -⟩
  exact ⟨hm, hsound⟩

/-- What is read as a part has the parameters that it was read with. -/
theorem readPart_populate {schema : Schema} {build : List Param → Part} {cs : List Char} {m : Move}
    (h : readPart schema build cs = .ok m) (hs : schema.WellFormed)
    (hparams : ∀ ps, (build ps).params = schema.collect ps) :
    ∃ ps, m = .part (build ps) ∧ schema.populate cs = .ok (build ps).params ∧ m.fault? = none := by
  unfold readPart at h
  rcases bind_eq_ok.1 h with ⟨ps, hps, h⟩
  rcases checked_cases h with ⟨rfl, hsound⟩
  refine ⟨ps, rfl, ?_, hsound⟩
  rw [hparams, Schema.collect_eq_self hs.names_nodup (Schema.admits_of_populate hs hps), hps]

theorem readFigure_populate {footwork : Footwork} {entry : Code} {kind : FigureKind}
    {cs : List Char} {m : Move} (h : readFigure footwork entry kind cs = .ok m) :
    ∃ ps, m = .figure { kind := kind, entry := entry, values := ps, footwork := footwork } ∧
      kind.profile.schema.populate cs = .ok ps ∧ m.fault? = none := by
  unfold readFigure at h
  rcases bind_eq_ok.1 h with ⟨ps, hps, h⟩
  rw [ofValues_eq (Schema.admits_of_populate (wellFormed_figureKind kind) hps)] at h
  rcases checked_cases h with ⟨rfl, hsound⟩
  exact ⟨ps, rfl, hps, hsound⟩

theorem suffixText_of_readFixedSuffix? {cs rest : List Char} {kind : FigureKind}
    (h : readFixedSuffix? cs = some (kind, rest)) (most : Option Nat) :
    ∃ suffix, SuffixText most suffix kind ∧ cs = suffix ++ rest := by
  rcases List.exists_of_findSome?_eq_some h with ⟨entry, hentry, hafter⟩
  rcases Option.map_eq_some_iff.1 hafter with ⟨r, hr, hpair⟩
  rw [Prod.mk.injEq] at hpair
  rcases hpair with ⟨rfl, rfl⟩
  refine ⟨entry.1, ?_, (List.append_eq_of_isPrefixOf?_eq_some hr).symm⟩
  simp only [fixedSuffixes, List.mem_cons, List.not_mem_nil, or_false] at hentry
  rcases hentry with rfl | rfl | rfl | rfl | rfl | rfl | rfl | rfl | rfl | rfl
  · exact .turn .three
  · exact .footChange .openMohawk
  · exact .footChange .closedMohawk
  · exact .turn .bracket
  · exact .turn .rocker
  · exact .turn .counter
  · exact .footChange .openChoctaw
  · exact .footChange .closedChoctaw
  · exact .changeOfEdge
  · exact .changeOfEdgeCapitals

theorem suffixText_of_readHalfTurns? {cs rest : List Char} {turns : Except Fault Nat} {n : Nat}
    (h : readHalfTurns? cs = some (turns, rest)) (hn : turns = .ok n) :
    ∃ suffix, SuffixText (some Text.maxDigits) (twizzleMark ++ suffix) (.twizzle n) ∧
      cs = suffix ++ rest := by
  unfold readHalfTurns? at h
  split at h
  · simp only [reduceCtorEq] at h
  · rename_i c tail
    split at h
    · rename_i hfirst
      rw [Bool.and_eq_true, bne_iff_ne] at hfirst
      have hcut := List.takeWhile_append_dropWhile (p := Text.isAsciiDigit) (l := c :: tail)
      have hwhole : ∀ w, numberOfDigits ((c :: tail).takeWhile Text.isAsciiDigit) = .ok w →
          Numeral (some Text.maxDigits) ((c :: tail).takeWhile Text.isAsciiDigit) w := by
        intro w hw
        refine numeral_of_read ?_ (fun d hd => ?_) hw
        · rw [List.takeWhile_cons_of_pos hfirst.1]
          exact List.cons_ne_nil _ _
        · exact Text.isDigit_of_isAsciiDigit (List.mem_takeWhile_imp hd)
      have hascii : ∀ d ∈ (c :: tail).takeWhile Text.isAsciiDigit, Text.isAsciiDigit d = true :=
        fun _ hd => List.mem_takeWhile_imp hd
      have hzero : ((c :: tail).takeWhile Text.isAsciiDigit).head? ≠ some '0' := by
        rw [List.takeWhile_cons_of_pos hfirst.1, List.head?_cons, ne_eq, Option.some.injEq]
        exact hfirst.2
      simp only at h
      split at h
      · rename_i rest' hafter
        rw [Option.some.injEq, Prod.mk.injEq] at h
        rcases h with ⟨hturns, rfl⟩
        rw [← hturns] at hn
        rcases map_eq_ok.1 hn with ⟨w, hw, rfl⟩
        refine ⟨_, .halfTwizzle (hwhole w hw) hascii hzero, ?_⟩
        rw [List.append_assoc, List.append_eq_of_isPrefixOf?_eq_some hafter, hcut]
      · rw [Option.some.injEq, Prod.mk.injEq] at h
        rcases h with ⟨hturns, rfl⟩
        rw [← hturns] at hn
        rcases map_eq_ok.1 hn with ⟨w, hw, rfl⟩
        exact ⟨_, .twizzle (hwhole w hw) hascii hzero, hcut.symm⟩
    · simp only [reduceCtorEq] at h

theorem suffixText_of_readJump? {cs rest : List Char} {kind : FigureKind}
    (h : readJump? cs = some (kind, rest)) (most : Option Nat) :
    ∃ suffix, SuffixText most suffix kind ∧ cs = suffix ++ rest := by
  unfold readJump? at h
  split at h
  · rename_i d tail
    split at h
    · rename_i hfirst
      rw [Bool.and_eq_true, bne_iff_ne] at hfirst
      rcases Option.map_eq_some_iff.1 h with ⟨⟨j, r⟩, hj, hpair⟩
      rw [Prod.mk.injEq] at hpair
      rcases hpair with ⟨rfl, rfl⟩
      rcases List.exists_of_findSome?_eq_some hj with ⟨j', -, hafter⟩
      rcases Option.map_eq_some_iff.1 hafter with ⟨r', hr', hpair⟩
      rw [Prod.mk.injEq] at hpair
      rcases hpair with ⟨rfl, rfl⟩
      refine ⟨_, .jump j' hfirst.1 hfirst.2, ?_⟩
      rw [← List.append_eq_of_isPrefixOf?_eq_some hr']
      rfl
    · simp only [reduceCtorEq] at h
  · simp only [reduceCtorEq] at h

theorem Footwork.mark_append_of_read (cs : List Char) :
    cs = (Footwork.read cs).1.mark ++ (Footwork.read cs).2 := by
  unfold Footwork.read
  split <;> rfl

theorem moveText_of_readFlatMove {footwork : Footwork} {code : Code} {cs : List Char} {m : Move}
    (hflat : code.edge = .flat) (h : readFlatMove footwork code cs = .ok m) :
    MoveText (some Text.maxDigits) (footwork.mark ++ code.letters ++ cs) m ∧ m.isSkated = true ∧
      m.fault? = none := by
  unfold readFlatMove at h
  split at h
  · rename_i rest hrest
    rcases readPart_populate h (by decide) (fun _ => rfl) with ⟨ps, rfl, hps, hsound⟩
    rw [← List.append_eq_of_isPrefixOf?_eq_some hrest]
    exact ⟨.hop hflat hps, rfl, hsound⟩
  · rcases readPart_populate h (by decide) (fun _ => rfl) with ⟨ps, rfl, hps, hsound⟩
    exact ⟨.straight hflat hps, rfl, hsound⟩

theorem moveText_of_readEdgeMove {footwork : Footwork} {code : Code} {cs : List Char} {m : Move}
    (hedge : code.edge ≠ .flat) (h : readEdgeMove footwork code cs = .ok m) :
    MoveText (some Text.maxDigits) (footwork.mark ++ code.letters ++ cs) m ∧ m.isSkated = true ∧
      m.fault? = none := by
  have hfigure : ∀ {kind : FigureKind} {suffix rest : List Char},
      SuffixText (some Text.maxDigits) suffix kind → cs = suffix ++ rest →
      readFigure footwork code kind rest = .ok m →
      MoveText (some Text.maxDigits) (footwork.mark ++ code.letters ++ cs) m ∧ m.isSkated = true ∧
        m.fault? = none := by
    intro kind suffix rest hsuffix hcs hread
    rcases readFigure_populate hread with ⟨ps, rfl, hps, hsound⟩
    have hm := MoveText.figure
      (f := { kind := kind, entry := code, values := ps, footwork := footwork }) hedge hsuffix hps
    rw [hcs]
    exact ⟨hm, rfl, hsound⟩
  unfold readEdgeMove at h
  -- Suffixes are tried in the order of the reader: fixed ones, twizzles, jumps.
  split at h
  · rename_i kind rest hfixed
    rcases suffixText_of_readFixedSuffix? hfixed (some Text.maxDigits) with ⟨suffix, hsuffix, hcs⟩
    exact hfigure hsuffix hcs h
  split at h
  · rename_i rest hmark
    split at h
    · rename_i turns rest' hturns
      rcases bind_eq_ok.1 h with ⟨n, rfl, h⟩
      rcases suffixText_of_readHalfTurns? hturns rfl with ⟨suffix, hsuffix, hrest⟩
      refine hfigure hsuffix ?_ h
      rw [← List.append_eq_of_isPrefixOf?_eq_some hmark, hrest, List.append_assoc]
    · simp only [reduceCtorEq] at h
  split at h
  · rename_i kind rest hjump
    rcases suffixText_of_readJump? hjump (some Text.maxDigits) with ⟨suffix, hsuffix, hcs⟩
    exact hfigure hsuffix hcs h
  split at h
  · rename_i rest hloop
    exact hfigure .loop (List.append_eq_of_isPrefixOf?_eq_some hloop).symm h
  · rcases readPart_populate h (by decide) (fun _ => rfl) with ⟨ps, rfl, hps, hsound⟩
    exact ⟨.curve hedge hps, rfl, hsound⟩

/-- Skated moves that are read are moves of the grammar. -/
theorem moveText_of_readSkated? {cs : List Char} {m : Move} (h : readSkated? cs = some (.ok m)) :
    MoveText (some Text.maxDigits) cs m ∧ m.isSkated = true ∧ m.fault? = none := by
  have hfootwork := Footwork.mark_append_of_read cs
  unfold readSkated? at h
  split at h
  rename_i footwork rest hread
  rw [hread] at hfootwork
  split at h
  · split at h
    · simp only [reduceCtorEq] at h
    · simp only [Option.some.injEq, reduceCtorEq] at h
  · rename_i code rest' hcode
    rw [hfootwork, letters_append_of_read? hcode, ← List.append_assoc]
    rw [Option.some.injEq] at h
    split at h
    · rename_i hflat
      exact moveText_of_readFlatMove hflat h
    · rename_i hedge
      exact moveText_of_readEdgeMove hedge h

theorem readKeyword_cases {schema : Schema} {build : List Param → Except Fault Move}
    {cs : List Char} {m : Move} (h : readKeyword schema build cs = .ok m) :
    ∃ ps, schema.populate cs = .ok ps ∧ build ps = .ok m ∧ m.fault? = none := by
  unfold readKeyword at h
  rcases bind_eq_ok.1 h with ⟨ps, hps, h⟩
  rcases bind_eq_ok.1 h with ⟨m', hbuild, h⟩
  rcases checked_cases h with ⟨rfl, hsound⟩
  exact ⟨ps, hps, hbuild, hsound⟩

theorem Warp.params_of_ofParams {ps : List Param} {w : Warp} (h : Warp.ofParams ps = .ok w) :
    w.params = Schema.collect Warp.profile.schema ps := by
  unfold Warp.ofParams at h
  rcases map_eq_ok.1 h with ⟨code, hcode, rfl⟩
  rw [Warp.params, optionalCodeText_of_optionalCode hcode]
  rfl

theorem Shift.params_of_ofParams {ps : List Param} {s : Shift} (h : Shift.ofParams ps = .ok s) :
    s.params = Schema.collect Shift.profile.schema ps := by
  unfold Shift.ofParams at h
  rcases map_eq_ok.1 h with ⟨code, hcode, rfl⟩
  rw [Shift.params, optionalCodeText_of_optionalCode hcode]
  rfl

/-- Directives that are built from parameters in range keep them. -/
theorem directives_build {entry : List Char × Schema × (List Param → Except Fault Move)}
    (hentry : entry ∈ directives) :
    entry.2.1.WellFormed ∧ ∀ ps m, entry.2.2 ps = .ok m →
      m.isSkated = false ∧ m.profile.schema = entry.2.1 ∧ m.params = entry.2.1.collect ps := by
  simp only [directives, List.mem_cons, List.not_mem_nil, or_false] at hentry
  rcases hentry with rfl | rfl | rfl | rfl | rfl | rfl | rfl | rfl | rfl
  · refine ⟨by decide, fun ps m h => ?_⟩
    rcases map_eq_ok.1 h with ⟨w, hw, rfl⟩
    exact ⟨rfl, rfl, Warp.params_of_ofParams hw⟩
  · refine ⟨by decide, fun ps m h => ?_⟩
    rcases map_eq_ok.1 h with ⟨s, hs, rfl⟩
    exact ⟨rfl, rfl, Shift.params_of_ofParams hs⟩
  -- The others are built without fail, field by field.
  all_goals
    refine ⟨by decide, fun ps m h => ?_⟩
    simp only [Except.ok.injEq] at h
    rw [← h]
    exact ⟨rfl, rfl, rfl⟩

theorem moveText_of_readKeywordMove? {cs : List Char} {m : Move}
    (h : readKeywordMove? cs = some (.ok m)) (most : Option Nat) :
    MoveText most cs m ∧ m.isSkated = false ∧ m.fault? = none := by
  rcases List.exists_of_findSome?_eq_some h with ⟨⟨keyword, schema, build⟩, hentry, hread⟩
  rcases Option.map_eq_some_iff.1 hread with ⟨rest, hafter, hkeyword⟩
  rcases readKeyword_cases hkeyword with ⟨ps, hps, hbuild, hsound⟩
  rcases directives_build hentry with ⟨hs, hkeep⟩
  rcases hkeep ps m hbuild with ⟨hskated, hschema, hparams⟩
  rw [Schema.collect_eq_self hs.names_nodup (Schema.admits_of_populate hs hps)] at hparams
  have hword : m.keyword? = some keyword := by
    simp only [directives, List.mem_cons, List.not_mem_nil, or_false, Prod.mk.injEq] at hentry
    rcases hentry with ⟨rfl, rfl, rfl⟩ | ⟨rfl, rfl, rfl⟩ | ⟨rfl, rfl, rfl⟩ | ⟨rfl, rfl, rfl⟩ |
      ⟨rfl, rfl, rfl⟩ | ⟨rfl, rfl, rfl⟩ | ⟨rfl, rfl, rfl⟩ | ⟨rfl, rfl, rfl⟩ | ⟨rfl, rfl, rfl⟩
    · rcases map_eq_ok.1 hbuild with ⟨w, -, rfl⟩
      rfl
    · rcases map_eq_ok.1 hbuild with ⟨s, -, rfl⟩
      rfl
    all_goals
      cases hbuild
      rfl
  simp only at hschema hps
  rw [← hschema, ← hparams] at hps
  rw [← List.append_eq_of_isPrefixOf?_eq_some hafter]
  exact ⟨.keyword hword hps, hskated, hsound⟩

theorem RepeatEnd.readCount?_cases {cs : List Char} {n : Nat}
    (h : RepeatEnd.readCount? cs = some (.ok n)) :
    (cs = [] ∧ n = 2) ∨ ∃ before behind ds, (∀ c ∈ before, Text.isBlank c = true) ∧
      (∀ c ∈ behind, Text.isBlank c = true) ∧ Numeral (some Text.maxDigits) ds n ∧
      cs = before ++ 'x' :: (behind ++ ds) := by
  unfold RepeatEnd.readCount? at h
  split at h
  · rename_i hempty
    simp only [Option.some.injEq, Except.ok.injEq] at h
    exact Or.inl ⟨List.isEmpty_iff.1 hempty, h.symm⟩
  · rcases Text.exists_blanks cs with ⟨before, hbefore, hcs⟩
    split at h
    · rename_i rest hx
      rcases Text.exists_blanks rest with ⟨behind, hbehind, hrest⟩
      split at h
      · rename_i ds hds
        rw [Option.some.injEq] at h
        rcases Text.readDigits?_cases hds with ⟨hne, hdigits, hcut⟩
        refine Or.inr ⟨before, behind, ds, hbefore, hbehind, numeral_of_read hne hdigits h, ?_⟩
        rw [List.append_nil] at hcut
        rw [← hcut, ← hrest, ← hx]
        exact hcs
      · simp only [reduceCtorEq] at h
    · simp only [reduceCtorEq] at h

theorem moveText_of_readEndSign {cs : List Char} {e : RepeatEnd}
    (h : RepeatEnd.read? cs = some (.ok e)) :
    MoveText (some Text.maxDigits) cs (.repeatEnd e) := by
  have hsign : ∀ alternate tail,
      (RepeatEnd.readCount? tail).map (RepeatEnd.ofCount alternate) = some (.ok e) →
      MoveText (some Text.maxDigits) (RepeatEnd.sign alternate ++ tail) (.repeatEnd e) := by
    intro alternate tail htail
    rcases Option.map_eq_some_iff.1 htail with ⟨count, hread, hof⟩
    rcases map_eq_ok.1 hof with ⟨k, hk, rfl⟩
    rcases bind_eq_ok.1 hk with ⟨n, rfl, hn⟩
    rw [← Except.ok.inj hn]
    rcases RepeatEnd.readCount?_cases hread with ⟨rfl, rfl⟩ |
      ⟨before, behind, ds, hbefore, hbehind, hn, rfl⟩
    · rw [List.append_nil]
      exact .endSign alternate
    · exact .countedEndSign alternate hbefore hbehind hn
  unfold RepeatEnd.read? at h
  split at h
  · exact hsign false _ h
  · exact hsign true _ h
  · simp only [reduceCtorEq] at h

/-- Directives that are read are directives of the grammar. -/
theorem moveText_of_readDirective {cs : List Char} {m : Move} (h : readDirective cs = .ok m) :
    MoveText (some Text.maxDigits) cs m ∧ m.isSkated = false ∧ m.fault? = none := by
  unfold readDirective at h
  split at h
  · rename_i hstart
    rw [Except.ok.injEq] at h
    rw [hstart, ← h]
    exact ⟨.startSign, rfl, rfl⟩
  · split at h
    · rename_i mark hmark
      rcases bind_eq_ok.1 h with ⟨e, rfl, h⟩
      rcases checked_cases h with ⟨rfl, hsound⟩
      exact ⟨moveText_of_readEndSign hmark, rfl, hsound⟩
    · cases hkeyword : readKeywordMove? cs with
      | none =>
          rw [hkeyword] at h
          simp only [Option.getD_none, reduceCtorEq] at h
      | some result =>
          rw [hkeyword, Option.getD_some] at h
          subst h
          exact moveText_of_readKeywordMove? hkeyword _

/-! ### Steps that are read are steps of the grammar -/

theorem countText_of_readCount {cs rest : List Char} {count : Option Nat}
    (h : Step.readCount cs = .ok (count, rest)) :
    ∃ counted, CountText (some Text.maxDigits) counted count ∧ cs = counted ++ rest := by
  unfold Step.readCount at h
  split at h
  · rename_i ds tail hread
    rcases map_eq_ok.1 h with ⟨n, hn, heq⟩
    rw [Prod.mk.injEq] at heq
    rcases heq with ⟨rfl, rfl⟩
    rcases Text.readDigits?_cases hread with ⟨hne, hdigits, hcs⟩
    rcases Text.exists_blanks tail with ⟨blanks, hblanks, htail⟩
    refine ⟨_, .some (numeral_of_read hne hdigits hn) hblanks, ?_⟩
    rw [hcs, List.append_assoc, List.cons_append, ← htail]
  · rw [Except.ok.injEq, Prod.mk.injEq] at h
    rw [← h.1, ← h.2]
    exact ⟨[], .none, rfl⟩

theorem durationText_of_readDuration {cs rest : List Char} {duration : Option Nat}
    (h : Step.readDuration cs = .ok (duration, rest)) :
    ∃ timed, DurationText (some Text.maxDigits) timed duration ∧ cs = timed ++ rest := by
  unfold Step.readDuration at h
  split at h
  · rename_i tail
    split at h
    · rename_i ds behind hread
      rcases map_eq_ok.1 h with ⟨n, hn, heq⟩
      rw [Prod.mk.injEq] at heq
      rcases heq with ⟨rfl, rfl⟩
      rcases Text.readDigits?_cases hread with ⟨hne, hdigits, hcs⟩
      rcases Text.exists_blanks behind with ⟨blanks, hblanks, hbehind⟩
      refine ⟨_, .some (numeral_of_read hne hdigits hn) hblanks, ?_⟩
      rw [List.cons_append, List.append_assoc, ← hbehind, hcs]
    · rw [Except.ok.injEq, Prod.mk.injEq] at h
      rw [← h.1, ← h.2]
      exact ⟨[], .none, rfl⟩
  · rw [Except.ok.injEq, Prod.mk.injEq] at h
    rw [← h.1, ← h.2]
    exact ⟨[], .none, rfl⟩

/-- Steps that are read are steps of the grammar. -/
theorem fragmentText_of_read {cs : List Char} {s : Step} (h : Step.read cs = .ok s) :
    FragmentText (some Text.maxDigits) cs s := by
  unfold Step.read at h
  rcases bind_eq_ok.1 h with ⟨⟨count, afterCount⟩, hcount, h⟩
  rcases bind_eq_ok.1 h with ⟨⟨duration, rest⟩, hduration, h⟩
  simp only at h
  rcases countText_of_readCount hcount with ⟨counted, hcounted, hcs⟩
  rcases durationText_of_readDuration hduration with ⟨timed, htimed, hafter⟩
  rw [hcs, hafter]
  split at h
  · rename_i result hread
    rcases map_eq_ok.1 h with ⟨m, rfl, rfl⟩
    rcases moveText_of_readSkated? hread with ⟨hm, hskated, hsound⟩
    exact .skated hcounted htimed hm hskated hsound
  · split at h
    · simp only [reduceCtorEq] at h
    · rename_i huntimed
      rcases map_eq_ok.1 h with ⟨m, hread, rfl⟩
      rcases moveText_of_readDirective hread with ⟨hm, hskated, hsound⟩
      rw [Bool.or_eq_true, not_or, Bool.not_eq_true, Bool.not_eq_true] at huntimed
      cases hcounted with
      | none =>
          cases htimed with
          | none => exact .directive hm hskated hsound
          | some _ _ => exact Bool.noConfusion huntimed.2
      | some _ _ => exact Bool.noConfusion huntimed.1

/-- Texts are read as the steps that they stand for in the grammar. -/
theorem read_eq_ok_iff {cs : List Char} {s : Step} :
    Step.read cs = .ok s ↔ FragmentText (some Text.maxDigits) cs s :=
  ⟨fragmentText_of_read, read_of_fragmentText⟩

/-! ### Fragments -/

/-- Fragments are read as the steps that they stand for in the grammar, and no
    fragment stands for two. -/
theorem ofFragment_eq_ok_iff (f : Fragment) :
    (∀ s, Step.ofFragment f = .ok s ↔
      ∃ t, FragmentText (some Text.maxDigits) f.text.toList t ∧ s = t.withPlace (some f.place)) ∧
    ∀ t t', FragmentText (some Text.maxDigits) f.text.toList t →
      FragmentText (some Text.maxDigits) f.text.toList t' → t = t' := by
  constructor
  · intro s
    unfold Step.ofFragment
    constructor
    · intro h
      split at h
      · simp only [reduceCtorEq] at h
      · rename_i t hread
        rw [Except.ok.injEq] at h
        exact ⟨t, read_eq_ok_iff.1 hread, h.symm⟩
    · rintro ⟨t, ht, rfl⟩
      rw [read_eq_ok_iff.2 ht]
  · intro t t' ht ht'
    have hread := read_eq_ok_iff.2 ht
    rw [read_eq_ok_iff.2 ht', Except.ok.injEq] at hread
    exact hread.symm

/-- A left forward outside edge with a duration of seven counts, written with
    zeros in front. -/
def paddedEdge (zeros : Nat) : List Char :=
  '/' :: (List.replicate zeros '0' ++ ['7', ' ', 'L', 'F', 'O'])

theorem ofDigits_zeros_append (zeros : Nat) (ds : List Char) :
    Text.ofDigits (List.replicate zeros '0' ++ ds) = Text.ofDigits ds := by
  induction zeros with
  | zero => rfl
  | succ zeros ih =>
      rw [List.replicate_succ, List.cons_append, ← ih]
      rfl

theorem numeral_zeros (zeros : Nat) : Numeral none (List.replicate zeros '0' ++ ['7']) 7 := by
  refine ⟨List.append_ne_nil_of_right_ne_nil _ (List.cons_ne_nil _ _), fun c hc => ?_, ?_, ?_⟩
  · rw [List.mem_append, List.mem_singleton] at hc
    rcases hc with hc | rfl
    · rw [List.eq_of_mem_replicate hc]
      decide
    · decide
  · intro k hk
    simp only [Option.mem_def, reduceCtorEq] at hk
  · rw [ofDigits_zeros_append]
    rfl

theorem fragmentText_paddedEdge (zeros : Nat) :
    FragmentText none (paddedEdge zeros)
      { move := .part (.curve { code := ⟨.left, .forward, .outside⟩ }), duration := some 7 } := by
  have hedge : MoveText none ['L', 'F', 'O']
      (.part (.curve { code := ⟨.left, .forward, .outside⟩ })) :=
    .curve (c := { code := ⟨.left, .forward, .outside⟩ }) (by decide)
      (rfl : Curve.profile.schema.populate [] = _)
  have hblank : ∀ c ∈ [' '], Text.isBlank c = true := by decide
  have hfragment := FragmentText.skated .none (.some (numeral_zeros zeros) hblank) hedge rfl rfl
  rw [List.nil_append, List.cons_append, List.append_assoc, List.append_assoc] at hfragment
  exact hfragment

theorem ofFragment_paddedEdge {zeros : Nat} (h : Text.maxDigits ≤ zeros) (place : Place) :
    Step.ofFragment ⟨place, String.ofList (paddedEdge zeros)⟩ =
      .error ⟨place, .tooManyDigits (zeros + 1)⟩ := by
  have hdigits : Text.readDigits? (List.replicate zeros '0' ++ ['7', ' ', 'L', 'F', 'O']) =
      some (List.replicate zeros '0' ++ ['7'], [' ', 'L', 'F', 'O']) := by
    rw [← Text.readDigits?_append (numeral_zeros zeros).nonempty (numeral_zeros zeros).digits
      (Text.stops_cons.2 (by decide)), List.append_assoc]
    rfl
  have hlength : (List.replicate zeros '0' ++ ['7']).length = zeros + 1 := by
    rw [List.length_append, List.length_replicate, List.length_singleton]
  have hnumber : numberOfDigits (List.replicate zeros '0' ++ ['7']) =
      .error (.tooManyDigits (zeros + 1)) := by
    rw [numberOfDigits, hlength, if_pos (by omega)]
  have hduration : Step.readDuration (paddedEdge zeros) = .error (.tooManyDigits (zeros + 1)) := by
    rw [paddedEdge, Step.readDuration, hdigits]
    simp only [hnumber, Except.map]
  have hcount : Step.readCount (paddedEdge zeros) = .ok (none, paddedEdge zeros) := by
    have hstop : Stops Text.isDigit (paddedEdge zeros) := Text.stops_cons.2 (by decide)
    rw [Step.readCount, Text.readDigits?_of_stops hstop]
  unfold Step.ofFragment Step.read
  simp only [String.toList_ofList, hcount, hduration, bind, Except.bind]

/-- A duration of more digits than a number may have has no other fault, but is
    not read. -/
theorem not_ofFragment_of_fragmentText :
    FragmentText none (paddedEdge Text.maxDigits)
        { move := .part (.curve { code := ⟨.left, .forward, .outside⟩ }), duration := some 7 } ∧
      Step.ofFragment ⟨{}, String.ofList (paddedEdge Text.maxDigits)⟩ =
        .error ⟨{}, .tooManyDigits 4301⟩ :=
  ⟨fragmentText_paddedEdge _, ofFragment_paddedEdge (Nat.le_refl _) {}⟩

end IceFigures
