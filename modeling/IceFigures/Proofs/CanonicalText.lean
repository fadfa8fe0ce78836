import IceFigures.Proofs.Segments
import IceFigures.Proofs.StepText

/-!
# Canonical Texts

The canonical form of a text is cut into the texts of its steps again, and these
are read back. So it has the same steps at other places, and it is its own
canonical form.

A step that was read holds no separator: in the parameters it has only
characters of its fragment, and what is written around them is made of letters,
digits and a few signs (`isPlain_chars`). It has nothing to trim either: it
starts with a digit, a slash, a letter or a bar, and ends with a letter, a
digit, a bar, the sign of a short code or a closing bracket (`inked_moveChars`).

## Main definitions

* `Move.TextIn`: Moves with only characters of a kind in their texts.
* `Inked`: Texts that end with a character that is no blank.

## Theorems

* `isPlain_write`: Parameters are written without separators.
* `isPiece_chars`: The text of a step is a piece.
* `ofText_cases`: What the steps of a text are like.
* `places_ofText`: No two steps of a text stand at the same place.
* `ofText_canonical`: The canonical form has the same steps.
* `canonical_canonical`: The canonical form is its own canonical form.
-/

namespace IceFigures

open Text (Stops)

/-! ### No separators -/

theorem isPlainChar_of_isNameChar {c : Char} (h : isNameChar c = true) : isPlainChar c = true := by
  rw [isPlainChar, Bool.and_eq_true, Bool.and_eq_true, bne_iff_ne, bne_iff_ne, bne_iff_ne]
  refine ⟨⟨?_, ?_⟩, ?_⟩ <;> intro heq <;> subst heq <;> exact absurd h (by decide)

theorem isPlainChar_of_isAsciiDigit {c : Char} (h : Text.isAsciiDigit c = true) :
    isPlainChar c = true := by
  refine isPlainChar_of_isNameChar ?_
  rw [isNameChar, Char.isAlphanum, show c.isDigit = true from h, Bool.or_true, Bool.true_or,
    Bool.true_or]

theorem IsPlain.append {a b : List Char} (ha : IsPlain a) (hb : IsPlain b) : IsPlain (a ++ b) := by
  intro c hc
  rcases List.mem_append.1 hc with hc | hc
  · exact ha c hc
  · exact hb c hc

instance (cs : List Char) : Decidable (IsPlain cs) :=
  inferInstanceAs (Decidable (∀ c ∈ cs, isPlainChar c = true))

theorem isPlain_toDigits (n : Nat) : IsPlain (Nat.toDigits 10 n) :=
  fun _ hc => isPlainChar_of_isAsciiDigit (Text.isAsciiDigit_of_mem_toDigits hc)

theorem isPlain_decimal (n : Int) : IsPlain (Text.decimal n) := by
  rw [decimal_eq]
  refine IsPlain.append ?_ (isPlain_toDigits _)
  split <;> decide

theorem isPlain_value {v : Value} (h : v.TextIn fun c => isPlainChar c = true) :
    IsPlain v.chars := by
  cases v with
  | number n => exact isPlain_decimal n
  | flag b => cases b <;> decide
  | text s =>
      have hescaped : IsPlain (escapeText s.toList) := by
        intro c hc
        rcases List.mem_flatMap.1 hc with ⟨d, hd, hc⟩
        unfold escapeChar at hc
        split at hc
        · rcases List.mem_cons.1 hc with rfl | hc
          · decide
          · rw [List.mem_singleton.1 hc]
            exact h d hd
        · rw [List.mem_singleton.1 hc]
          exact h d hd
      exact IsPlain.append (IsPlain.append (a := ['\x22']) (by decide) hescaped) (by decide)

theorem isPlain_param {p : Param} (hname : isName p.name.toList = true)
    (h : p.value.TextIn fun c => isPlainChar c = true) : IsPlain p.chars := by
  refine IsPlain.append ?_ (IsPlain.append (a := ['=']) (by decide) (isPlain_value h))
  intro c hc
  cases hp : p.name.toList with
  | nil =>
      rw [hp] at hc
      exact absurd hc List.not_mem_nil
  | cons d ds =>
      rw [hp, isName, Bool.and_eq_true, List.all_eq_true] at hname
      rw [hp] at hc
      refine isPlainChar_of_isNameChar ?_
      rcases List.mem_cons.1 hc with rfl | hc
      · rw [isNameChar, Char.isAlphanum, hname.1]
        rfl
      · exact hname.2 c hc

/-- Parameters are written without separators, provided that there are none in
    their texts. -/
theorem isPlain_write {schema : Schema} (hs : schema.Unambiguous) {ps : List Param}
    (h : List.Forall₂ Field.Admits schema ps)
    (htext : ∀ p ∈ ps, p.value.TextIn fun c => isPlainChar c = true) :
    IsPlain (Schema.write schema ps) := by
  -- Short codes are signs; entries are names, signs and values.
  have hshort : IsPlain (Schema.writeShort schema ps) := by
    intro c hc
    rw [Schema.writeShort_eq, List.mem_flatMap] at hc
    rcases hc with ⟨code, -, hmem⟩
    rw [Schema.mem_signsOf_iff.1 hmem]
    rcases code with ⟨_ | _, _ | _ | _ | _ | _ | _⟩ <;> decide
  have hlist : IsPlain (Schema.writeList (Schema.listed schema ps)) := by
    have hentries : IsPlain ([','].intercalate ((Schema.listed schema ps).map Param.chars)) := by
      intro c hc
      rcases Fragment.mem_intercalate hc with rfl | ⟨chars, hchars, hc⟩
      · decide
      · rcases List.mem_map.1 hchars with ⟨p, hp, rfl⟩
        rcases Schema.mem_listed hp with ⟨f, hzip, -⟩
        have hname := ((List.forall₂_iff_zip.1 h).2 hzip).1
        refine isPlain_param ?_ (htext p (List.of_mem_zip hzip).2) c hc
        rw [hname]
        exact hs.isName f (List.of_mem_zip hzip).1
    exact IsPlain.append (IsPlain.append (a := ['[']) (by decide) hentries) (by decide)
  rw [Schema.write]
  by_cases hempty : (Schema.listed schema ps).isEmpty = true
  · rw [if_pos hempty]
    exact hshort
  · rw [if_neg hempty]
    exact IsPlain.append hshort hlist

theorem isPlain_mark (footwork : Footwork) : IsPlain footwork.mark := by
  cases footwork <;> decide

theorem isPlain_letters (code : Code) : IsPlain code.letters := by
  rcases code with ⟨_ | _ | _, _ | _, _ | _ | _⟩ <;> decide

theorem isPlain_suffix (kind : FigureKind) : IsPlain kind.suffix := by
  cases kind with
  | turn t => cases t <;> decide
  | footChange c => cases c <;> decide
  | changeOfEdge => decide
  | loop => decide
  | twizzle n =>
      refine IsPlain.append (by decide) (IsPlain.append (isPlain_decimal _) ?_)
      split <;> decide
  | jump j n =>
      have hletters : IsPlain j.letters := by cases j <;> decide
      exact IsPlain.append (a := ['-']) (by decide) (IsPlain.append (isPlain_decimal _) hletters)

/-- Moves with only characters of a kind in their texts. -/
def Move.TextIn (P : Char → Prop) (m : Move) : Prop :=
  ∀ p ∈ m.params, p.value.TextIn P

/-- Moves are written without separators, provided that there are none in their
    texts. -/
theorem isPlain_moveChars {m : Move} (hrange : m.InRange)
    (htext : m.TextIn fun c => isPlainChar c = true) : IsPlain m.chars := by
  have hs := (wellFormed_profile m).toUnambiguous
  cases m with
  | part p =>
      have hwrite := isPlain_write hs hrange htext
      cases p with
      | curve c =>
          exact IsPlain.append (IsPlain.append (isPlain_mark _) (isPlain_letters _)) hwrite
      | straight s =>
          exact IsPlain.append (IsPlain.append (isPlain_mark _) (isPlain_letters _)) hwrite
      | hop h =>
          refine IsPlain.append (IsPlain.append ?_ (by decide)) hwrite
          exact IsPlain.append (isPlain_mark _) (isPlain_letters _)
      | shift s => exact IsPlain.append (by decide) hwrite
      | label l => exact IsPlain.append (by decide) hwrite
  | figure f =>
      refine IsPlain.append (IsPlain.append ?_ (isPlain_suffix _)) (isPlain_write hs hrange htext)
      exact IsPlain.append (isPlain_mark _) (isPlain_letters _)
  | repeatStart => decide
  | repeatEnd e =>
      have hsign : IsPlain (RepeatEnd.sign e.alternate) := by cases e.alternate <;> decide
      rw [Move.chars, RepeatEnd.chars]
      split
      · exact hsign
      · exact IsPlain.append hsign (IsPlain.append (a := ['x']) (by decide) (isPlain_decimal _))
  | warp w => exact IsPlain.append (by decide) (isPlain_write hs hrange htext)
  | rink r => exact IsPlain.append (by decide) (isPlain_write hs hrange htext)
  | info i => exact IsPlain.append (by decide) (isPlain_write hs hrange htext)
  | title t => exact IsPlain.append (by decide) (isPlain_write hs hrange htext)
  | text t => exact IsPlain.append (by decide) (isPlain_write hs hrange htext)

theorem isPlain_chars {s : Step} (hs : s.Readable)
    (htext : s.move.TextIn fun c => isPlainChar c = true) : IsPlain s.chars := by
  refine IsPlain.append (IsPlain.append ?_ ?_) (isPlain_moveChars hs.move.inRange htext)
  · cases s.count with
    | none => decide
    | some n => exact IsPlain.append (isPlain_toDigits n) (by decide)
  · cases s.duration with
    | none => decide
    | some n =>
        exact IsPlain.append (IsPlain.append (a := ['/']) (by decide) (isPlain_toDigits n))
          (by decide)

/-! ### Nothing to trim -/

/-- Texts that end with a character that is no blank. -/
def Inked (cs : List Char) : Prop :=
  cs.getLast?.any (fun c => !Text.isBlank c) = true

instance (cs : List Char) : Decidable (Inked cs) :=
  inferInstanceAs (Decidable (cs.getLast?.any (fun c => !Text.isBlank c) = true))

theorem Inked.append_left {b : List Char} (hb : Inked b) (a : List Char) : Inked (a ++ b) := by
  unfold Inked at hb ⊢
  rw [List.getLast?_append]
  cases h : b.getLast? with
  | none =>
      rw [h] at hb
      exact Bool.noConfusion hb
  | some c => rwa [h] at hb

theorem Inked.append {a b : List Char} (ha : Inked a) (hb : b = [] ∨ Inked b) :
    Inked (a ++ b) := by
  rcases hb with rfl | hb
  · rwa [List.append_nil]
  · exact hb.append_left a

theorem inked_of_forall {cs : List Char} (hne : cs ≠ [])
    (h : ∀ c ∈ cs, Text.isBlank c = false) : Inked cs := by
  unfold Inked
  rw [List.getLast?_eq_some_getLast hne, Option.any_some, h _ (List.getLast_mem hne)]
  rfl

theorem inked_toDigits (n : Nat) : Inked (Nat.toDigits 10 n) :=
  inked_of_forall Nat.toDigits_ne_nil fun _ hc =>
    Text.isBlank_of_isAsciiDigit (Text.isAsciiDigit_of_mem_toDigits hc)

theorem inked_decimal (n : Int) : Inked (Text.decimal n) := by
  rw [decimal_eq]
  exact (inked_toDigits _).append_left _

theorem inked_write (schema : Schema) (ps : List Param) :
    Schema.write schema ps = [] ∨ Inked (Schema.write schema ps) := by
  rw [Schema.write]
  by_cases hempty : (Schema.listed schema ps).isEmpty = true
  · rw [if_pos hempty]
    by_cases hnone : Schema.writeShort schema ps = []
    · exact Or.inl hnone
    · refine Or.inr (inked_of_forall hnone fun c hc => ?_)
      rw [Schema.writeShort_eq, List.mem_flatMap] at hc
      rcases hc with ⟨code, -, hmem⟩
      rw [Schema.mem_signsOf_iff.1 hmem]
      exact Schema.isBlank_signOf code
  · rw [if_neg hempty]
    exact Or.inr (Inked.append_left (Inked.append_left (b := [']']) (by decide) _) _)

theorem inked_letters (code : Code) : Inked code.letters := by
  rcases code with ⟨_ | _ | _, _ | _, _ | _ | _⟩ <;> decide

theorem inked_suffix (kind : FigureKind) : Inked kind.suffix := by
  cases kind with
  | turn t => cases t <;> decide
  | footChange c => cases c <;> decide
  | changeOfEdge => decide
  | loop => decide
  | twizzle n =>
      refine Inked.append_left ((inked_decimal _).append ?_) _
      split
      · exact Or.inl rfl
      · exact Or.inr (by decide)
  | jump j n =>
      have hletters : Inked j.letters := by cases j <;> decide
      exact (hletters.append_left (Text.decimal n)).append_left ['-']

/-- A move ends with a letter, a digit or a sign. -/
theorem inked_moveChars (m : Move) : Inked m.chars := by
  cases m with
  | part p =>
      have hwrite := inked_write p.profile.schema p.params
      cases p with
      | curve c => exact ((inked_letters _).append_left _).append hwrite
      | straight s => exact ((inked_letters _).append_left _).append hwrite
      | hop h => exact Inked.append (Inked.append_left (by decide) _) hwrite
      | shift s => exact Inked.append (by decide) hwrite
      | label l => exact Inked.append (by decide) hwrite
  | figure f => exact ((inked_suffix _).append_left _).append (inked_write _ _)
  | repeatStart => decide
  | repeatEnd e =>
      have hsign : Inked (RepeatEnd.sign e.alternate) := by cases e.alternate <;> decide
      rw [Move.chars, RepeatEnd.chars]
      split
      · exact hsign
      · exact ((inked_decimal e.count).append_left ['x']).append_left _
  | warp w => exact Inked.append (by decide) (inked_write _ _)
  | rink r => exact Inked.append (by decide) (inked_write _ _)
  | info i => exact Inked.append (by decide) (inked_write _ _)
  | title t => exact Inked.append (by decide) (inked_write _ _)
  | text t => exact Inked.append (by decide) (inked_write _ _)

theorem stops_isBlank_chars (s : Step) : Stops Text.isBlank s.chars := by
  unfold Step.chars
  rw [List.append_assoc]
  cases s.count with
  | none =>
      cases s.duration with
      | none => exact stops_moveChars (by decide) s.move
      | some n => exact Text.stops_cons.2 (by decide)
  | some n =>
      rcases toDigits_eq_cons n with ⟨d, ds, hds, hd⟩
      rw [Step.countChars, hds]
      exact Text.stops_cons.2 (Text.isBlank_of_isAsciiDigit hd)

theorem trim_of_inked {cs : List Char} (hstart : Stops Text.isBlank cs) (hend : Inked cs) :
    Text.trim cs = cs := by
  have hreverse : Stops Text.isBlank cs.reverse := by
    intro c hc
    rw [List.head?_reverse, Option.mem_def] at hc
    rw [Inked, hc, Option.any_some, Bool.not_eq_true'] at hend
    exact hend
  rw [Text.trim, Text.dropBlanks, Text.dropWhile_of_stops hstart, Text.dropBlanksEnd,
    Text.dropWhile_of_stops hreverse, List.reverse_reverse]

/-- The text of a step is a piece, provided that there are no separators in its
    texts. -/
theorem isPiece_chars {s : Step} (hs : s.Readable)
    (htext : s.move.TextIn fun c => isPlainChar c = true) : IsPiece s.chars := by
  have hinked : Inked s.chars := (inked_moveChars s.move).append_left _
  refine ⟨isPlain_chars hs htext, ?_, trim_of_inked (stops_isBlank_chars s) hinked⟩
  intro hnil
  rw [hnil] at hinked
  exact absurd hinked (by decide)

/-! ### Steps of a text -/

/-- The texts of a move are taken from its fragment. -/
theorem textIn_of_takenFrom {m : Move} {cs : List Char} (h : m.TakenFrom cs) {P : Char → Prop}
    (hP : ∀ c ∈ cs, P c) : m.TextIn P := by
  rcases h with ⟨e, rfl⟩ | ⟨tail, htail, hread⟩
  · intro p hp
    change p ∈ e.params at hp
    simp only [RepeatEnd.params, List.mem_cons, List.not_mem_nil, or_false] at hp
    rcases hp with rfl | rfl <;> trivial
  · exact Schema.textIn_of_populate (wellFormed_profile m) (fun c hc => hP c (htail.subset hc))
      hread

theorem mapM_ofFragment_cons (f : Fragment) (fs : List Fragment) :
    (f :: fs).mapM Step.ofFragment =
      (Step.ofFragment f).bind fun s => (fs.mapM Step.ofFragment).bind fun rest =>
        .ok (s :: rest) := by
  rw [List.mapM_cons]
  rfl

/-- The steps of fragments that are all read. -/
theorem mapM_ofFragment_eq_ok {fs : List Fragment} {steps : List Step} :
    fs.mapM Step.ofFragment = .ok steps ↔
      List.Forall₂ (fun f s => Step.ofFragment f = .ok s) fs steps := by
  induction fs generalizing steps with
  | nil =>
      rw [List.mapM_nil, List.forall₂_nil_left_iff]
      exact ⟨fun h => (Except.ok.inj h).symm, fun h => h ▸ rfl⟩
  | cons f fs ih =>
      rw [mapM_ofFragment_cons, List.forall₂_cons_left_iff]
      constructor
      · intro h
        rcases bind_eq_ok.1 h with ⟨s, hs, h⟩
        rcases bind_eq_ok.1 h with ⟨rest, hrest, h⟩
        exact ⟨s, rest, hs, ih.1 hrest, (Except.ok.inj h).symm⟩
      · rintro ⟨s, rest, hs, hrest, rfl⟩
        rw [hs, ih.2 hrest]
        rfl

theorem map_place_of_forall₂ {fs : List Fragment} {steps : List Step}
    (h : List.Forall₂ (fun f s => Step.ofFragment f = .ok s) fs steps) :
    steps.map (·.place) = (fs.map (·.place)).map some := by
  induction h with
  | nil => rfl
  | cons hs _ ih =>
      rw [List.map_cons, List.map_cons, List.map_cons, (Step.ofFragment_cases hs).2.1, ih]

-- Both halves of what the fragments of a text are like carry over to the steps
-- read from them: no separators in the texts, and no place used twice.
theorem ofText_cases {text : String} {steps : List Step} (h : Step.ofText text = .ok steps) :
    ∀ s ∈ steps, s.Readable ∧ s.move.TextIn fun c => isPlainChar c = true := by
  intro s hs
  -- The step was read from the fragment with the same number.
  have hread := mapM_ofFragment_eq_ok.1 h
  rcases List.mem_iff_getElem.1 hs with ⟨i, hi, rfl⟩
  have hlength := hread.length_eq
  have hstep := hread.get (hlength ▸ hi) hi
  rcases Step.ofFragment_cases hstep with ⟨hreadable, -, htaken⟩
  exact ⟨hreadable,
    textIn_of_takenFrom htaken (Fragment.isPlain_of_mem_ofText (List.getElem_mem _)).1⟩

theorem places_ofText {text : String} {steps : List Step} (h : Step.ofText text = .ok steps) :
    ∃ places : List Place, steps.map (·.place) = places.map some ∧ places.Nodup ∧
      ∀ p ∈ places, p.pass = none := by
  refine ⟨_, map_place_of_forall₂ (mapM_ofFragment_eq_ok.1 h), Fragment.nodup_ofText text, ?_⟩
  intro p hp
  rcases List.mem_map.1 hp with ⟨f, hf, rfl⟩
  exact (Fragment.isPlain_of_mem_ofText hf).2

/-! ### The canonical form -/

-- Fragments that hold the texts of steps are read as these steps, each at the
-- place of its fragment.
theorem mapM_ofFragment_of_texts {fs : List Fragment} {steps : List Step}
    (hread : ∀ s ∈ steps, s.Readable) (htext : fs.map (·.text) = steps.map Step.written) :
    ∃ steps', fs.mapM Step.ofFragment = .ok steps' ∧
      steps'.map (·.withPlace none) = steps.map (·.withPlace none) := by
  induction steps generalizing fs with
  | nil =>
      rw [List.map_nil, List.map_eq_nil_iff] at htext
      subst htext
      exact ⟨[], rfl, rfl⟩
  | cons s steps ih =>
      cases fs with
      | nil => exact absurd htext.symm (List.cons_ne_nil _ _)
      | cons f fs =>
          rw [List.map_cons, List.map_cons, List.cons.injEq] at htext
          rcases ih (fun t ht => hread t (List.mem_cons_of_mem s ht)) htext.2 with
            ⟨steps', hsteps', hsame⟩
          have hf : Step.ofFragment f = .ok (s.withPlace (some f.place)) := by
            have := Step.ofFragment_chars (hread s List.mem_cons_self) f.place
            rwa [← htext.1] at this
          refine ⟨s.withPlace (some f.place) :: steps', ?_, ?_⟩
          · rw [mapM_ofFragment_cons, hf, hsteps']
            rfl
          · rw [List.map_cons, List.map_cons, hsame]
            rfl

/-- The canonical form of a text has its steps, at other places. -/
theorem ofText_canonical {text separator c : String}
    (hseparator : separator = ";" ∨ separator = "\n") (h : canonical text separator = .ok c) :
    ∃ steps steps', Step.ofText text = .ok steps ∧ Step.ofText c = .ok steps' ∧
      c = separator.intercalate (steps.map Step.written) ∧
      steps'.map (·.withPlace none) = steps.map (·.withPlace none) := by
  unfold canonical at h
  rcases map_eq_ok.1 h with ⟨steps, hsteps, rfl⟩
  have hcases := ofText_cases hsteps
  have hpieces : ∀ p ∈ steps.map Step.written, IsPiece p.toList := by
    intro p hp
    rcases List.mem_map.1 hp with ⟨s, hs, rfl⟩
    rw [Step.written, String.toList_ofList]
    exact isPiece_chars (hcases s hs).1 (hcases s hs).2
  rcases mapM_ofFragment_of_texts (fun s hs => (hcases s hs).1)
    (Fragment.ofText_intercalate hseparator hpieces) with ⟨steps', hsteps', hsame⟩
  exact ⟨steps, steps', hsteps, hsteps', rfl, hsame⟩

theorem map_written_congr {steps steps' : List Step}
    (h : steps'.map (·.withPlace none) = steps.map (·.withPlace none)) :
    steps'.map Step.written = steps.map Step.written := by
  have hwritten : ∀ ss : List Step,
      (ss.map (·.withPlace none)).map Step.written = ss.map Step.written := by
    intro ss
    rw [List.map_map]
    rfl
  rw [← hwritten steps', h, hwritten]

/-- The canonical form of a text is its own canonical form. -/
theorem canonical_canonical {text separator c : String}
    (hseparator : separator = ";" ∨ separator = "\n") (h : canonical text separator = .ok c) :
    canonical c separator = .ok c := by
  rcases ofText_canonical hseparator h with ⟨steps, steps', -, hsteps', hc, hsame⟩
  rw [canonical, hsteps', Except.map, map_written_congr hsame, ← hc]

end IceFigures
