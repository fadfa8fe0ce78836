import IceFigures.Proofs.ParameterMeaning
import IceFigures.Proofs.SoundFigures

/-!
# Figures Written in Short Codes

Short codes are there so that nobody has to write numbers. Of a figure that is written
in short codes, with nothing listed but its labels, every number is a default or a detent
of its schema. So whether it can be skated is a finite question (`Field.offers`), whatever
the labels may say.

Detents belong to schemas and bounds to layouts, and several kinds of figures share one
schema. All detents stay within the bounds, with one exception: three minus signs are a
length of 100 centimetres, which is enough for all turns but the bracket, whose two
flats are 40 centimetres each (`FigureKind.fits_iff_of_onlyLabels`). A bracket
of that length is refused although the schema offers it.

What can still go wrong is that a suffix counts the turns of a twizzle in more digits
than a number may have (`readEdgeMove_of_tooLong`).

## Main definitions

* `Field.offers`: The numbers that a field has without being listed.
* `Schema.OnlyLabels`: Lists that set texts and label offsets only.
* `tripleMinus`: The run of three minus signs.

## Theorems

* `Schema.means_of_unlisted`: What is not listed is a default or a detent.
* `Schema.number_of_onlyLabels`: What holds of the numbers that a field offers.
* `FigureKind.fits_iff_of_onlyLabels`: Which figures in short codes fit.
* `Step.read_append_edge`: A fragment that starts with footwork and an edge.
* `ofFragment_shortCodes`: Which figures in short codes are read.
* `ofFragment_bracket_tripleMinus`: The bracket of three minus signs is refused.
-/

namespace IceFigures

open Text (Stops)

/-! ### Numbers that are not listed -/

/-- The numbers that a field has without being listed: its default and its detents. -/
def Field.offers (f : Field) : List Int :=
  f.default.asNumber?.toList ++ (f.short.map fun s => Level.all.map s.detents.value).getD []

/-- Entries that set texts and the distance of labels, and nothing else. -/
def Schema.OnlyLabels (schema : Schema) (entries : List Param) : Prop :=
  ∀ p ∈ entries, p.name = labelOffsetField.name ∨ ∃ f ∈ schema, f.name = p.name ∧ f.range = .text

namespace Schema

variable {schema : Schema} {runs : List Run} {entries : List Param}

/-- What is not listed is a default or the detent of a run. -/
theorem means_of_unlisted (hnames : schema.names.Nodup) {f : Field} (hf : f ∈ schema) {v : Value}
    (hunlisted : ∀ p ∈ entries, p.name ≠ f.name) (h : schema.Means runs entries f v) :
    v = f.default ∨ ∃ s l, f.short = some s ∧ Run.ofCode (s.kind, l) ∈ runs ∧
      v = .number (s.detents.value l) := by
  cases h with
  | listed hlast => exact absurd rfl (hunlisted _ (mem_of_value? hlast))
  | @detent code v hnone hrun hentry =>
      rcases entryOf?_cases hentry with ⟨g, hg, s, hs, hkind, hp⟩
      rw [Param.mk.injEq] at hp
      obtain rfl : f = g := List.inj_on_of_nodup_map hnames hf hg hp.1
      refine Or.inr ⟨s, code.2, hs, ?_, hp.2⟩
      rwa [hkind]
  | default hnone hruns => exact Or.inl rfl

variable {cs : List Char} {values : List Param}

/-- Fields that hold no texts are not listed, except for the label offset. -/
theorem OnlyLabels.unlisted (hnames : schema.names.Nodup) (honly : schema.OnlyLabels entries)
    {f : Field} (hf : f ∈ schema) (hoffset : f.name ≠ labelOffsetField.name)
    (htext : f.range ≠ .text) : ∀ p ∈ entries, p.name ≠ f.name := by
  intro p hp heq
  rcases honly p hp with hp | ⟨g, hg, hgname, hgtext⟩
  · exact hoffset (heq ▸ hp)
  · obtain rfl : g = f := List.inj_on_of_nodup_map hnames hg hf (hgname.trans heq)
    exact htext hgtext

/-- A number that is no label offset is among those that its field offers. -/
theorem number_of_onlyLabels (hnames : schema.names.Nodup) (hreads : ReadsAs cs runs entries)
    (hvalues : schema.populate cs = .ok values) (honly : schema.OnlyLabels entries)
    {name : String} {P : Int → Prop}
    (hname : ∃ f ∈ schema, f.name = name ∧ f.name ≠ labelOffsetField.name ∧ f.range ≠ .text ∧
      f.default.asNumber?.isSome = true ∧ ∀ n ∈ f.offers, P n) :
    P (Param.number values name) := by
  rcases hname with ⟨f, hf, rfl, hoffset, htext, hdefault, hoffers⟩
  have hmeans := ((populate_eq_ok_iff hnames hreads).1 hvalues).2
  rcases value?_of_forall₂ hnames hmeans hf with ⟨v, hv, hmeans⟩
  rw [Param.number, hv, Option.bind_some]
  rcases means_of_unlisted hnames hf (honly.unlisted hnames hf hoffset htext) hmeans with
    rfl | ⟨s, l, hs, -, rfl⟩
  · rcases Option.isSome_iff_exists.1 hdefault with ⟨d, hd⟩
    rw [hd]
    refine hoffers d (List.mem_append_left _ ?_)
    rw [hd]
    exact List.mem_singleton_self d
  · refine hoffers _ (List.mem_append_right _ ?_)
    rw [hs]
    exact List.mem_map_of_mem (by cases l <;> decide)

end Schema

/-! ### Figures that fit -/

/-- The run of three minus signs. -/
def tripleMinus : Run :=
  { kind := .plusMinus, up := false, length := 3 }

section Fits

variable {cs : List Char} {runs : List Run} {entries values : List Param}

/-- Apart from the bracket, figures fit whatever short codes they are written in. -/
theorem FigureKind.fits_of_onlyLabels {kind : FigureKind} (hkind : kind.fault? = none)
    (hlabel : kind.labelFault? = none) (hreads : ReadsAs cs runs entries)
    (hvalues : kind.profile.schema.populate cs = .ok values)
    (honly : kind.profile.schema.OnlyLabels entries) (hbracket : kind ≠ .turn .bracket) :
    kind.Fits values := by
  have hnumber : ∀ (name : String) (P : Int → Prop), _ → P (Param.number values name) :=
    fun name P => Schema.number_of_onlyLabels (wellFormed_figureKind kind).names_nodup hreads
      hvalues honly
  -- For each kind the least of the numbers that its schema offers.
  cases kind with
  | turn t =>
      rw [FigureKind.profile, t.profile_schema] at hnumber
      have hangle := hnumber "angle" (60 ≤ ·) (by decide)
      have hlen := hnumber "len" (100 ≤ ·) (by decide)
      have hdeltaAngle := hnumber "delta-angle" (· = 0) (by decide)
      have hdeltaLen := hnumber "delta-len" (· = 0) (by decide)
      cases t with
      | bracket => exact absurd rfl hbracket
      | three | rocker | counter =>
          simp only [Fits, Turn.Fits, TwoPart.ofParams]
          omega
  | footChange g =>
      rw [FigureKind.profile, g.profile_schema] at hnumber
      have hangle := hnumber "angle" (60 ≤ ·) (by decide)
      have hlen := hnumber "len" (100 ≤ ·) (by decide)
      have hdeltaAngle := hnumber "delta-angle" (· = 0) (by decide)
      have hdeltaLen := hnumber "delta-len" (· = 0) (by decide)
      simp only [Fits, TwoPart.ofParams]
      omega
  | changeOfEdge | loop =>
      have hangle := hnumber "angle" (30 ≤ ·) (by decide)
      have hlen := hnumber "len" (100 ≤ ·) (by decide)
      have hdeltaAngle := hnumber "delta-angle" (· = 0) (by decide)
      have hdeltaLen := hnumber "delta-len" (· = 0) (by decide)
      simp only [Fits, TwoPart.ofParams]
      omega
  | twizzle n =>
      rw [FigureKind.profile] at hnumber
      have hangle := hnumber "angle" (30 ≤ ·) (by decide)
      have hlen := hnumber "len" (80 ≤ ·) (by decide)
      have hcount := (fault?_twizzle_eq_none_iff n).1 hkind
      have hwhole := (labelFault?_twizzle_eq_none_iff (by omega)).1 hlabel
      simp only [Fits, Twist.Fits, Twist.ofParams]
      omega
  | jump j n =>
      rw [FigureKind.profile, j.profile_schema] at hnumber
      have hentryAngle := hnumber "entry-angle" (15 ≤ ·) (by decide)
      have hentryLen := hnumber "entry-len" (200 ≤ ·) (by decide)
      have hexitAngle := hnumber "exit-angle" (· = 40) (by decide)
      have hexitLen := hnumber "exit-len" (· = 400) (by decide)
      have hcount := (fault?_jump_eq_none_iff j n).1 hkind
      cases j
      all_goals
        simp only [Fits, Jump.Fits, Leap.ofParams, and_true]
        omega

/-- Of the lengths that a turn may have in short codes only one is less than 161
    centimetres. -/
theorem turn_length_iff (hreads : ReadsAs cs runs entries)
    (hvalues : turnSchema.populate cs = .ok values)
    (honly : Schema.OnlyLabels turnSchema entries) :
    161 ≤ Param.number values "len" ↔ tripleMinus ∉ runs := by
  have hnames : turnSchema.names.Nodup := by decide
  rcases (Schema.populate_eq_ok_iff hnames hreads).1 hvalues with ⟨haccepts, hmeans⟩
  have hlen : ∃ f ∈ turnSchema, f.name = "len" ∧ f.range ≠ .text ∧ f.default = .number 450 ∧
      f.short = plusMinus 600 850 1000 300 240 100 :=
    ⟨_, List.mem_cons_of_mem _ List.mem_cons_self, rfl, by decide, rfl, rfl⟩
  rcases hlen with ⟨f, hf, hname, htext, hdefault, hshort⟩
  have hunlisted := honly.unlisted hnames hf (by rw [hname]; decide) htext
  rcases Schema.value?_of_forall₂ hnames hmeans hf with ⟨v, hv, hmeans⟩
  have hnumber : Param.number values "len" = (v.asNumber?).getD 0 := by
    rw [Param.number, ← hname, hv, Option.bind_some]
  rw [hnumber]
  -- The length is settled by its run, so no other run can stand in for three minus signs.
  by_cases hrun : tripleMinus ∈ runs
  · have hdetent : Schema.Means turnSchema runs entries f (.number 100) :=
      .detent hunlisted (show Run.ofCode (.plusMinus, .less3) ∈ runs from hrun) (by rw [hname]; rfl)
    rw [hmeans.unique hnames hreads.runs haccepts hdetent]
    exact iff_of_false (by decide) (not_not_intro hrun)
  · refine iff_of_true ?_ hrun
    rcases Schema.means_of_unlisted hnames hf hunlisted hmeans with rfl | ⟨s, l, hs, hmem, rfl⟩
    · rw [hdefault]
      decide
    · rw [hshort, plusMinus, Option.some.injEq] at hs
      subst hs
      cases l with
      | less3 => exact absurd hmem hrun
      | _ => decide

/-- In short codes all figures fit but one: the bracket of three minus signs. -/
theorem FigureKind.fits_iff_of_onlyLabels {kind : FigureKind} (hkind : kind.fault? = none)
    (hlabel : kind.labelFault? = none) (hreads : ReadsAs cs runs entries)
    (hvalues : kind.profile.schema.populate cs = .ok values)
    (honly : kind.profile.schema.OnlyLabels entries) :
    kind.Fits values ↔ ¬(kind = .turn .bracket ∧ tripleMinus ∈ runs) := by
  by_cases hbracket : kind = .turn .bracket
  · subst hbracket
    have hnumber : ∀ (name : String) (P : Int → Prop), _ → P (Param.number values name) :=
      fun name P => Schema.number_of_onlyLabels (wellFormed_figureKind _).names_nodup hreads
        hvalues honly
    have hangle := hnumber "angle" (60 ≤ ·) (by decide)
    have hdeltaAngle := hnumber "delta-angle" (· = 0) (by decide)
    have hdeltaLen := hnumber "delta-len" (· = 0) (by decide)
    rw [and_iff_right rfl, ← turn_length_iff hreads hvalues honly]
    simp only [Fits, Turn.Fits, TwoPart.ofParams]
    omega
  · refine iff_of_true (fits_of_onlyLabels hkind hlabel hreads hvalues honly hbracket) ?_
    exact fun h => hbracket h.1

end Fits

/-! ### Reading -/

/-- A fragment that starts with footwork and an edge is read as a skated move. -/
theorem Step.read_append_edge (footwork : Footwork) {code : Code} (hedge : code.edge ≠ .flat)
    (cs : List Char) :
    read (footwork.mark ++ code.letters ++ cs) =
      (readEdgeMove footwork code cs).map fun m => { move := m } := by
  have hskated : readSkated? (footwork.mark ++ code.letters ++ cs) =
      some (readEdgeMove footwork code cs) := by
    rw [readSkated?_append footwork code fun hflat => absurd hflat hedge, if_neg hedge]
  rcases mark_append_letters_eq_cons footwork code cs with ⟨c, tail, hcons, hc⟩
  rw [hcons] at hskated ⊢
  -- What a move starts with is neither a digit nor a blank nor a slash.
  have hstops : ∀ {p : Char → Bool}, (∀ c ∈ moveOpenings, p c = false) → Stops p (c :: tail) :=
    fun hp => Text.stops_cons.2 (hp c hc)
  have hcount := readCount_of_countText .none (hstops (by decide)) (hstops (by decide))
  rw [List.nil_append] at hcount
  unfold read
  rw [hcount]
  simp only [bind, Except.bind]
  rw [readDuration_of_opening hc]
  simp only [hskated]

/-- Digits that are no number only because there are too many of them are refused. -/
theorem Numeral.exists_read_eq_error {ds : List Char} {n : Nat} (h : Numeral none ds n)
    (hlong : ¬ Numeral (some Text.maxDigits) ds n) :
    ∃ fault, numberOfDigits ds = .error fault := by
  cases hread : numberOfDigits ds with
  | error fault => exact ⟨fault, rfl⟩
  | ok m =>
      obtain rfl : m = n := (numberOfDigits_eq_ok_iff.1 hread).2.symm.trans h.value
      exact absurd (numeral_of_read h.nonempty h.digits hread) hlong

/-- A suffix that counts its turns in more digits than a number may have is refused. -/
theorem readEdgeMove_of_tooLong {suffix cs : List Char} {kind : FigureKind}
    (hsuffix : SuffixText none suffix kind)
    (hlong : ¬ SuffixText (some Text.maxDigits) suffix kind) (h : ParameterText cs)
    (footwork : Footwork) (code : Code) :
    ∃ fault, readEdgeMove footwork code (suffix ++ cs) = .error fault := by
  -- Only the turns of a twizzle are written in any number of digits.
  cases hsuffix with
  | twizzle hn hascii hzero =>
      rcases hn.exists_read_eq_error fun hn => hlong (.twizzle hn hascii hzero) with ⟨fault, hfault⟩
      rw [(readEdgeMove_twizzle hn.nonempty hascii hzero h footwork code).1, hfault]
      exact ⟨fault, rfl⟩
  | halfTwizzle hn hascii hzero =>
      rcases hn.exists_read_eq_error fun hn => hlong (.halfTwizzle hn hascii hzero) with
        ⟨fault, hfault⟩
      rw [(readEdgeMove_twizzle hn.nonempty hascii hzero h footwork code).2, hfault]
      exact ⟨fault, rfl⟩
  | turn t => exact absurd (.turn t) hlong
  | footChange f => exact absurd (.footChange f) hlong
  | changeOfEdge => exact absurd .changeOfEdge hlong
  | changeOfEdgeCapitals => exact absurd .changeOfEdgeCapitals hlong
  | loop => exact absurd .loop hlong
  | jump j hascii hzero => exact absurd (.jump j hascii hzero) hlong

section Figures

variable {kind : FigureKind} {suffix cs : List Char} {runs : List Run} {entries values : List Param}

/-- Behind a code on an edge a figure in short codes is read, if its suffix is not too long
    and it is not the bracket of three minus signs. -/
theorem readEdgeMove_of_onlyLabels (hkind : kind.fault? = none) {entry : Code}
    (hentry : entry ∈ kind.entries) (footwork : Footwork) (hsuffix : SuffixText none suffix kind)
    (hreads : ReadsAs cs runs entries) (hvalues : kind.profile.schema.populate cs = .ok values)
    (honly : kind.profile.schema.OnlyLabels entries) :
    (SuffixText (some Text.maxDigits) suffix kind →
      ¬(kind = .turn .bracket ∧ tripleMinus ∈ runs) →
      readEdgeMove footwork entry (suffix ++ cs) =
        .ok (.figure { kind, entry, values, footwork })) ∧
    (¬ SuffixText (some Text.maxDigits) suffix kind ∨
        kind = .turn .bracket ∧ tripleMinus ∈ runs →
      ∃ fault, readEdgeMove footwork entry (suffix ++ cs) = .error fault) := by
  have htext := parameterText_of_populate hvalues
  have hadmits := Schema.admits_of_populate (wellFormed_figureKind kind) hvalues
  let f : Figure := { kind, entry, values, footwork }
  -- Behind a suffix that is read, the check of the figure decides alone.
  have hsound : SuffixText (some Text.maxDigits) suffix kind →
      (f.fault? = none ↔ ¬(kind = .turn .bracket ∧ tripleMinus ∈ runs)) := by
    intro hshort
    rw [Figure.fault?_eq_none_iff_fits (hadmits.imp fun _ _ hp => hp.takes), and_iff_right hentry,
      FigureKind.fits_iff_of_onlyLabels hkind hshort.labelFault? hreads hvalues honly]
  have hread : SuffixText (some Text.maxDigits) suffix kind →
      readEdgeMove footwork entry (suffix ++ cs) = (Move.figure f).checked := by
    intro hshort
    rw [readEdgeMove_append hshort htext]
    exact readFigure_of_populate (f := f) hvalues
  constructor
  · intro hshort hfits
    rw [hread hshort]
    exact Move.checked_of_admits hadmits ((hsound hshort).2 hfits)
  · intro hbad
    by_cases hshort : SuffixText (some Text.maxDigits) suffix kind
    · rw [hread hshort]
      refine Move.exists_checked_eq_error fun hnone => ?_
      exact (hsound hshort).1 hnone (hbad.resolve_left (not_not_intro hshort))
    · exact readEdgeMove_of_tooLong hsuffix hshort htext footwork entry

/-- Figures on legal entries are read however they are written in short codes. Refused are
    only those whose suffix has too many digits and the bracket of three minus signs. -/
theorem ofFragment_shortCodes (hkind : kind.fault? = none) {entry : Code}
    (hentry : entry ∈ kind.entries) (footwork : Footwork) (hsuffix : SuffixText none suffix kind)
    (hreads : ReadsAs cs runs entries) (hvalues : kind.profile.schema.populate cs = .ok values)
    (honly : kind.profile.schema.OnlyLabels entries) (place : Place) :
    let fragment : Fragment :=
      ⟨place, String.ofList (footwork.mark ++ entry.letters ++ (suffix ++ cs))⟩
    (SuffixText (some Text.maxDigits) suffix kind →
      ¬(kind = .turn .bracket ∧ tripleMinus ∈ runs) →
      Step.ofFragment fragment =
        .ok { move := .figure { kind, entry, values, footwork }, place := some place }) ∧
    (¬ SuffixText (some Text.maxDigits) suffix kind ∨
        kind = .turn .bracket ∧ tripleMinus ∈ runs →
      ∃ d, Step.ofFragment fragment = .error d) := by
  intro fragment
  have hedge := edge_ne_flat_of_turn (FigureKind.turn_ne_zero hentry)
  have hread := readEdgeMove_of_onlyLabels hkind hentry footwork hsuffix hreads hvalues honly
  have hstep : Step.ofFragment fragment = match (readEdgeMove footwork entry (suffix ++ cs)) with
      | .error fault => .error { place := place, fault := fault }
      | .ok m => .ok { move := m, place := some place } := by
    unfold Step.ofFragment
    rw [String.toList_ofList, Step.read_append_edge footwork hedge]
    cases readEdgeMove footwork entry (suffix ++ cs) <;> rfl
  constructor
  · intro hshort hfits
    rw [hstep, hread.1 hshort hfits]
  · intro hbad
    rcases hread.2 hbad with ⟨fault, hfault⟩
    rw [hstep, hfault]
    exact ⟨_, rfl⟩

end Figures

theorem readsAs_tripleMinus : ReadsAs ['-', '-', '-'] [tripleMinus] [] :=
  ⟨.run (r := tripleMinus) (by decide) (by decide) .nil, Or.inl ⟨rfl, rfl⟩⟩

theorem populate_tripleMinus :
    Schema.populate turnSchema ['-', '-', '-'] = .ok (turnOfLength 100) := by
  rfl

/-- A three turn is read with three minus signs. -/
theorem ofFragment_three_tripleMinus :
    FigureKind.fault? (.turn .three) = none ∧
    ⟨.left, .forward, .outside⟩ ∈ FigureKind.entries (.turn .three) ∧
    SuffixText none ['3'] (.turn .three) ∧ ReadsAs ['-', '-', '-'] [tripleMinus] [] ∧
    Schema.populate turnSchema ['-', '-', '-'] = .ok (turnOfLength 100) ∧
    Schema.OnlyLabels turnSchema [] ∧
    Step.ofFragment ⟨{}, "LFO3---"⟩ = .ok
      { move := .figure
          { kind := .turn .three, entry := ⟨.left, .forward, .outside⟩,
            values := turnOfLength 100 },
        place := some {} } := by
  have hkind : FigureKind.fault? (.turn .three) = none := rfl
  have hentry : ⟨.left, .forward, .outside⟩ ∈ FigureKind.entries (.turn .three) := by decide
  have honly : Schema.OnlyLabels turnSchema [] := fun _ hp => absurd hp List.not_mem_nil
  refine ⟨hkind, hentry, .turn .three, readsAs_tripleMinus, populate_tripleMinus, honly, ?_⟩
  exact (ofFragment_shortCodes hkind hentry .normal (.turn .three) readsAs_tripleMinus
    populate_tripleMinus honly {}).1 (.turn .three) fun h => absurd h.1 (by decide)

/-- A bracket is refused with three minus signs, although its schema offers them. -/
theorem ofFragment_bracket_tripleMinus :
    FigureKind.fault? (.turn .bracket) = none ∧
    ⟨.left, .forward, .outside⟩ ∈ FigureKind.entries (.turn .bracket) ∧
    SuffixText none ['-', 'B', 'r'] (.turn .bracket) ∧
    ReadsAs ['-', '-', '-'] [tripleMinus] [] ∧
    Schema.populate turnSchema ['-', '-', '-'] = .ok (turnOfLength 100) ∧
    Schema.OnlyLabels turnSchema [] ∧
    Step.ofFragment ⟨{}, "LFO-Br---"⟩ =
      .error ⟨{}, .unacceptable .positive (.number (-15))⟩ := by
  refine ⟨rfl, by decide, .turn .bracket, readsAs_tripleMinus, populate_tripleMinus,
    fun _ hp => absurd hp List.not_mem_nil, ?_⟩
  rfl

end IceFigures
