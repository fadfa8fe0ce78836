import IceFigures.Proofs.MoveText

/-!
# Steps Read Back

The canonical text of a fragment is read back as the step it was written for,
count and duration included, and every step that is read is of the kind whose
text can be read back. Both follow from the grammar: canonical texts belong to
it, and its steps are readable.

Numbers have to be short enough to be written. That limit is the only one on
counts and durations (`ofFragment_written_of_long_count`).

## Main definitions

* `Step.Readable`: Steps whose canonical text can be read.

## Theorems

* `fragmentText_chars`: Canonical texts are texts of the grammar.
* `Step.read_chars`: Canonical texts are read back.
* `Step.readable_of_read`: Steps that are read can be read back.
* `ofFragment_written`: The round trip of fragments.
-/

namespace IceFigures

open Text (Stops)

/-- Steps whose canonical text can be read: a readable move, timed only if it is
    skated, with numbers that are short enough to be written. -/
structure Step.Readable (s : Step) : Prop where
  move : s.move.Readable
  timed : s.count.isSome || s.duration.isSome → s.move.isSkated = true
  count : ∀ n ∈ s.count, Text.isWritable (n : Int) = true
  duration : ∀ n ∈ s.duration, Text.isWritable (n : Int) = true

namespace Step

/-! ### Reading back -/

theorem countText_countChars {count : Option Nat}
    (h : ∀ n ∈ count, Text.isWritable (n : Int) = true) :
    CountText (some Text.maxDigits) (countChars count) count := by
  cases count with
  | none => exact .none
  | some n => exact .some (numeral_toDigits (h n rfl)) (by decide)

theorem durationText_durationChars {duration : Option Nat}
    (h : ∀ n ∈ duration, Text.isWritable (n : Int) = true) :
    DurationText (some Text.maxDigits) (durationChars duration) duration := by
  cases duration with
  | none => exact .none
  | some n => exact .some (numeral_toDigits (h n rfl)) (by decide)

/-- The canonical text of a readable step is one of its texts. -/
theorem fragmentText_chars {s : Step} (h : s.Readable) :
    FragmentText (some Text.maxDigits) s.chars (s.withPlace none) := by
  rcases s with ⟨m, place, count, duration⟩
  have hm := moveText_chars h.move
  cases hskated : m.isSkated with
  | true =>
      rw [chars, List.append_assoc]
      exact .skated (countText_countChars h.count) (durationText_durationChars h.duration) hm
        hskated h.move.sound
  | false =>
      have huntimed : ¬(count.isSome || duration.isSome) = true := by
        intro htimed
        have := h.timed htimed
        rw [hskated] at this
        exact Bool.noConfusion this
      simp only [Bool.or_eq_true, not_or, Bool.not_eq_true, Option.isSome_eq_false_iff,
        Option.isNone_iff_eq_none] at huntimed
      rcases huntimed with ⟨rfl, rfl⟩
      exact .directive hm hskated h.move.sound

/-- Canonical texts are read back, except for the place. -/
theorem read_chars {s : Step} (h : s.Readable) : read s.chars = .ok (s.withPlace none) :=
  read_eq_ok_iff.2 (fragmentText_chars h)

theorem ofFragment_chars {s : Step} (h : s.Readable) (place : Place) :
    ofFragment ⟨place, s.written⟩ = .ok (s.withPlace (some place)) := by
  unfold ofFragment written
  simp only [String.toList_ofList, read_chars h]
  rfl

/-! ### What reading yields -/

theorem isWritable_of_countText {counted : List Char} {count : Option Nat}
    (h : CountText (some Text.maxDigits) counted count) :
    ∀ n ∈ count, Text.isWritable (n : Int) = true := by
  cases h with
  | none => exact fun _ hn => absurd hn (by simp)
  | some hn _ => exact fun _ heq => Option.some.inj heq ▸ hn.isWritable

theorem isWritable_of_durationText {timed : List Char} {duration : Option Nat}
    (h : DurationText (some Text.maxDigits) timed duration) :
    ∀ n ∈ duration, Text.isWritable (n : Int) = true := by
  cases h with
  | none => exact fun _ hn => absurd hn (by simp)
  | some hn _ => exact fun _ heq => Option.some.inj heq ▸ hn.isWritable

/-- Steps that are read can be read back. -/
theorem readable_of_read {cs : List Char} {s : Step} (h : read cs = .ok s) :
    s.Readable ∧ s.place = none ∧ s.move.TakenFrom cs := by
  cases read_eq_ok_iff.1 h with
  | skated hcount hduration hm hskated hsound =>
      rcases readable_of_moveText hm hsound with ⟨hreadable, htaken⟩
      refine ⟨⟨hreadable, fun _ => hskated, isWritable_of_countText hcount,
        isWritable_of_durationText hduration⟩, rfl, htaken.of_suffix ?_⟩
      exact (List.suffix_append _ _).trans (List.suffix_append _ _)
  | directive hm _ hsound =>
      rcases readable_of_moveText hm hsound with ⟨hreadable, htaken⟩
      refine ⟨⟨hreadable, fun htimed => absurd htimed (by simp), ?_, ?_⟩, rfl, htaken⟩
      · exact isWritable_of_countText .none
      · exact isWritable_of_durationText .none

theorem ofFragment_cases {f : Fragment} {s : Step} (h : ofFragment f = .ok s) :
    s.Readable ∧ s.place = some f.place ∧ s.move.TakenFrom f.text.toList := by
  unfold ofFragment at h
  split at h
  · simp only [reduceCtorEq] at h
  · rename_i s' hread
    rw [Except.ok.injEq] at h
    rcases readable_of_read hread with ⟨hs, -, htaken⟩
    rw [← h]
    exact ⟨⟨hs.move, hs.timed, hs.count, hs.duration⟩, rfl, htaken⟩

end Step

/-! ### The round trip -/

/-- A readable step is read back from its text at any place, and every step
    that is read is readable. -/
theorem ofFragment_written :
    (∀ s : Step, s.Readable → ∀ place,
      Step.ofFragment ⟨place, s.written⟩ = .ok (s.withPlace (some place))) ∧
    (∀ f s, Step.ofFragment f = .ok s → s.Readable ∧ ∀ place,
      Step.ofFragment ⟨place, s.written⟩ = .ok (s.withPlace (some place))) := by
  constructor
  · intro s hs place
    exact Step.ofFragment_chars hs place
  · intro f s h
    have hs := (Step.ofFragment_cases h).1
    exact ⟨hs, Step.ofFragment_chars hs⟩

/-- A crossed edge with short codes, a label full of signs, a count and a
    duration. -/
def labelledEdge : Step where
  move := .part (.curve
    { code := ⟨.left, .forward, .outside⟩, angle := 30, length := 75, label := "\"]\\;\n#",
      footwork := .crossFront })
  count := some 7
  duration := some 0

theorem ofFragment_written_labelledEdge :
    labelledEdge.Readable ∧
      Step.ofFragment ⟨{}, labelledEdge.written⟩ = .ok (labelledEdge.withPlace (some {})) := by
  have hrange : labelledEdge.move.InRange :=
    .cons ⟨rfl, rfl, by decide⟩ (.cons ⟨rfl, rfl, by decide⟩ (.cons ⟨rfl, rfl, trivial⟩
      (.cons ⟨rfl, rfl, trivial⟩ (.cons ⟨rfl, rfl, trivial⟩ (.cons ⟨rfl, rfl, by decide⟩ .nil)))))
  have hs : labelledEdge.Readable := by
    refine ⟨⟨rfl, hrange, rfl⟩, fun _ => rfl, ?_, ?_⟩
    · intro n hn
      rw [labelledEdge, Option.mem_some_iff] at hn
      rw [← hn]
      decide
    · intro n hn
      rw [labelledEdge, Option.mem_some_iff] at hn
      rw [← hn]
      decide
  exact ⟨hs, ofFragment_written.1 _ hs {}⟩

/-- A left forward outside edge with a count. -/
def countedEdge (count : Nat) : Step where
  move := .part (.curve { code := ⟨.left, .forward, .outside⟩ })
  count := some count

theorem ofFragment_countedEdge_of_long {n : Nat} (h : ¬Text.isWritable (n : Int) = true) :
    ∃ digits, Step.ofFragment ⟨{}, (countedEdge n).written⟩ =
      .error ⟨{}, .tooManyDigits digits⟩ := by
  rw [Text.isWritable_natCast, Nat.not_le] at h
  have hstop : Stops Text.isDigit (')' :: ' ' :: (countedEdge n).move.chars) :=
    Text.stops_cons.2 (by decide)
  have hchars : (countedEdge n).chars =
      Nat.toDigits 10 n ++ ')' :: ' ' :: (countedEdge n).move.chars := by
    rw [Step.chars, countedEdge, Step.countChars, Step.durationChars, List.append_nil,
      List.append_assoc]
    rfl
  have hcount : Step.readCount (countedEdge n).chars =
      .error (.tooManyDigits (Nat.toDigits 10 n).length) := by
    rw [hchars, Step.readCount, Text.readDigits?_toDigits_append n hstop]
    simp only [numberOfDigits, if_pos h, Except.map]
  refine ⟨(Nat.toDigits 10 n).length, ?_⟩
  unfold Step.ofFragment Step.written Step.read
  simp only [String.toList_ofList, hcount, bind, Except.bind]

/-- A count of more digits than a number may have is written, but not read. -/
theorem ofFragment_written_of_long_count :
    (countedEdge (10 ^ Text.maxDigits)).move.Readable ∧
      (countedEdge (10 ^ Text.maxDigits)).move.isSkated = true ∧
      ∃ digits, Step.ofFragment ⟨{}, (countedEdge (10 ^ Text.maxDigits)).written⟩ =
        .error ⟨{}, .tooManyDigits digits⟩ := by
  have hmove : ∀ n, (countedEdge n).move.Readable := by
    intro n
    have hs : Curve.profile.schema.WellFormed := by decide
    have hdefaults : Curve.profile.schema.populate [] = .ok Curve.profile.schema.defaults := rfl
    exact ⟨rfl, Schema.admits_of_populate hs hdefaults, rfl⟩
  have hlong : ¬Text.isWritable ((10 ^ Text.maxDigits : Nat) : Int) = true := by
    rw [Text.isWritable_natCast_iff_lt]
    exact Nat.lt_irrefl _
  exact ⟨hmove _, rfl, ofFragment_countedEdge_of_long hlong⟩

end IceFigures
