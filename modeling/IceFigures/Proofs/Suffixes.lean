import IceFigures.Proofs.ParameterRange
import Mathlib.Data.Option.Basic

/-!
# Suffixes and Parameters

What follows a code is tried against one suffix after another, and most
suffixes start with a hyphen, as the short codes may. They are told apart by
the second character: in a suffix it is a letter or a digit, while the text of
parameters goes on with another sign or a bracket or ends (`ParameterText`).

## Main definitions

* `ParameterText`: Texts that start like parameters.
* `Move.isSkated`: Whether a move is skated.
* `skatedOpenings`: What footwork and code start with.
* `moveOpenings`: What moves start with.

## Theorems

* `parameterText_write`: Written parameters start like parameters.
* `parameterText_of_populate`: So does whatever populates a schema.
* `readEdgeMove_of_parameterText`, `readFlatMove_of_parameterText`: Parameters
  behind a code are those of an edge or a glide.
* `readHalfTurns?_append`, `readEdgeMove_jump`: Turns and jumps in front of
  parameters.
* `readSkated?_append`: Footwork and code in front of anything that is no edge.
-/

namespace IceFigures

open Text (Stops)

/-! ### The start of parameters -/

/-- Texts that start like parameters: signs of short codes and blanks up to the
    bracket of a list or the end. -/
inductive ParameterText : List Char → Prop
  | nil : ParameterText []
  | list (body : List Char) : ParameterText ('[' :: body)
  | sign {c : Char} {cs : List Char} (hc : isShortChar c = true) (hcs : ParameterText cs) :
      ParameterText (c :: cs)

/-- Whether the text of parameters may start with a character. -/
def isOpening (c : Char) : Bool :=
  isShortChar c || c == '['

theorem isOpening_of_isAsciiDigit {c : Char} (h : Text.isAsciiDigit c = true) :
    isOpening c = false := by
  have hc := Text.toNat_of_isAsciiDigit h
  have hsign : ShortKind.ofSign? c = none := by
    unfold ShortKind.ofSign?
    split <;> first | rfl | exact absurd h (by decide)
  have hbracket : c ≠ '[' := by
    rintro rfl
    exact absurd h (by decide)
  rw [isOpening, isShortChar, hsign, Text.isBlank_of_isAsciiDigit h, beq_false_of_ne hbracket]
  rfl

theorem isOpening_of_ofLetter? {c : Char} (h : (Edge.ofLetter? c).isSome = true) :
    isOpening c = false := by
  unfold Edge.ofLetter? at h
  split at h <;> first | decide | exact absurd h Bool.false_ne_true

namespace ParameterText

theorem append {region rest : List Char} (hregion : ∀ c ∈ region, isShortChar c = true)
    (hrest : ParameterText rest) : ParameterText (region ++ rest) := by
  induction region with
  | nil => exact hrest
  | cons c cs ih =>
      exact sign (hregion c List.mem_cons_self)
        (ih fun d hd => hregion d (List.mem_cons_of_mem c hd))

theorem isOpening_head {c : Char} {cs : List Char} (h : ParameterText (c :: cs)) :
    isOpening c = true := by
  cases h with
  | list => decide
  | sign hc _ => rw [isOpening, hc, Bool.true_or]

theorem tail {c : Char} {cs : List Char} (h : ParameterText (c :: cs)) (hc : c ≠ '[') :
    ParameterText cs := by
  cases h with
  | list => exact absurd rfl hc
  | sign _ hcs => exact hcs

theorem stops {cs : List Char} (h : ParameterText cs) {p : Char → Bool}
    (hp : ∀ {c}, p c = true → isOpening c = false) : Stops p cs := by
  cases cs with
  | nil => exact Text.stops_nil p
  | cons c cs =>
      rw [Text.stops_cons]
      by_contra hc
      have := hp (Bool.not_eq_false _ ▸ hc)
      rw [h.isOpening_head] at this
      exact Bool.noConfusion this

/-- Parameters do not start with any other character. -/
theorem isPrefixOf?_eq_none {cs : List Char} (h : ParameterText cs) {w : Char}
    (hw : isOpening w = false) (ws : List Char) : List.isPrefixOf? (w :: ws) cs = none := by
  rw [Option.eq_none_iff_forall_ne_some]
  intro rest hrest
  obtain rfl := List.append_eq_of_isPrefixOf?_eq_some hrest
  exact Bool.noConfusion (hw.symm.trans h.isOpening_head)

/-- A hyphen in parameters is not followed by any other character. -/
theorem isPrefixOf?_hyphen_eq_none {cs : List Char} (h : ParameterText cs) {w : Char}
    (hw : isOpening w = false) (ws : List Char) : List.isPrefixOf? ('-' :: w :: ws) cs = none := by
  rw [Option.eq_none_iff_forall_ne_some]
  intro rest hrest
  obtain rfl := List.append_eq_of_isPrefixOf?_eq_some hrest
  exact Bool.noConfusion (hw.symm.trans (h.tail (by decide)).isOpening_head)

end ParameterText

/-- Written parameters start like parameters. -/
theorem parameterText_write (schema : Schema) (ps : List Param) :
    ParameterText (Schema.write schema ps) := by
  have hshort : ∀ c ∈ Schema.writeShort schema ps, isShortChar c = true :=
    fun _ => Schema.isShortChar_of_mem_writeShort
  rw [Schema.write]
  by_cases hempty : (Schema.listed schema ps).isEmpty = true
  · rw [if_pos hempty, ← List.append_nil (Schema.writeShort schema ps)]
    exact ParameterText.append hshort .nil
  · rw [if_neg hempty]
    exact ParameterText.append hshort (.list _)

/-- Texts that populate a schema start like parameters. -/
theorem parameterText_of_populate {schema : Schema} {cs : List Char} {ps : List Param}
    (h : schema.populate cs = .ok ps) : ParameterText cs := by
  have hregion : ∀ c ∈ cs.takeWhile isShortChar, isShortChar c = true :=
    fun _ hc => List.mem_takeWhile_imp hc
  rw [← List.takeWhile_append_dropWhile (p := isShortChar) (l := cs)]
  refine ParameterText.append hregion ?_
  unfold Schema.populate at h
  simp only at h
  rcases bind_eq_ok.1 h with ⟨levels, -, h⟩
  rcases bind_eq_ok.1 h with ⟨qs, -, h⟩
  split at h
  · rename_i hempty
    rw [List.isEmpty_iff.1 hempty]
    exact .nil
  · rcases bind_eq_ok.1 h with ⟨listed, hlist, -⟩
    unfold parseList readList at hlist
    split at hlist
    · simp only [reduceCtorEq] at hlist
    · rename_i hread
      split at hread
      · rename_i hbracket
        rw [hbracket]
        exact .list _
      · simp only [reduceCtorEq] at hread

/-! ### Suffixes -/

section Suffixes

variable {cs : List Char} (h : ParameterText cs)
include h

theorem readFixedSuffix?_eq_none : readFixedSuffix? cs = none := by
  unfold readFixedSuffix?
  rw [List.findSome?_eq_none_iff]
  intro entry hentry
  -- Every suffix is a three, or a hyphen and a letter.
  simp only [fixedSuffixes, List.mem_cons, List.not_mem_nil, or_false] at hentry
  rw [Option.map_eq_none_iff]
  rcases hentry with rfl | rfl | rfl | rfl | rfl | rfl | rfl | rfl | rfl | rfl
  · exact h.isPrefixOf?_eq_none (by decide) _
  all_goals exact h.isPrefixOf?_hyphen_eq_none (by decide) _

theorem readJump?_eq_none : readJump? cs = none := by
  unfold readJump?
  split
  · rename_i d rest
    have hdigit : Text.isAsciiDigit d = false :=
      Text.stops_cons.1 ((h.tail (by decide)).stops isOpening_of_isAsciiDigit)
    rw [hdigit, Bool.false_and, if_neg Bool.false_ne_true]
  · rfl

/-- Parameters after a code on an edge are those of an edge. -/
theorem readEdgeMove_of_parameterText (footwork : Footwork) (code : Code) :
    readEdgeMove footwork code cs =
      readPart Curve.profile.schema (fun ps => .curve (.ofParams footwork code ps)) cs := by
  have htwizzle : List.isPrefixOf? twizzleMark cs = none :=
    h.isPrefixOf?_hyphen_eq_none (by decide) _
  have hloop : List.isPrefixOf? FigureKind.loop.suffix cs = none :=
    h.isPrefixOf?_hyphen_eq_none (by decide) _
  rw [readEdgeMove, readFixedSuffix?_eq_none h]
  simp only
  rw [htwizzle]
  simp only
  rw [readJump?_eq_none h]
  simp only
  rw [hloop]

/-- Parameters after a code on the flat are those of a straight glide. -/
theorem readFlatMove_of_parameterText (footwork : Footwork) (code : Code) :
    readFlatMove footwork code cs =
      readPart Straight.profile.schema (fun ps => .straight (.ofParams footwork code ps)) cs := by
  have hhop : List.isPrefixOf? Hop.suffix cs = none := h.isPrefixOf?_hyphen_eq_none (by decide) _
  rw [readFlatMove, hhop]

/-- What follows a number of turns tells whether it goes on with a half. -/
theorem readHalfTurns?_append {ds : List Char} (hdigits : ∀ c ∈ ds, Text.isAsciiDigit c = true)
    {d : Char} (hd : ds.head? = some d) (hzero : d ≠ '0') :
    readHalfTurns? (ds ++ cs) = some ((numberOfDigits ds).map fun n => 2 * n, cs) ∧
      readHalfTurns? (ds ++ '.' :: '5' :: cs) =
        some ((numberOfDigits ds).map fun n => 2 * n + 1, cs) := by
  rcases ds with _ | ⟨d', ds⟩
  · simp only [List.head?_nil, reduceCtorEq] at hd
  rw [List.head?_cons, Option.some.injEq] at hd
  subst hd
  have hfirst : (Text.isAsciiDigit d' && d' != '0') = true := by
    rw [Bool.and_eq_true, bne_iff_ne]
    exact ⟨hdigits d' List.mem_cons_self, hzero⟩
  have hread : ∀ rest, Stops Text.isAsciiDigit rest →
      readHalfTurns? (d' :: ds ++ rest) = (List.isPrefixOf? ['.', '5'] rest).elim
        (some ((numberOfDigits (d' :: ds)).map fun n => 2 * n, rest))
        fun rest' => some ((numberOfDigits (d' :: ds)).map fun n => 2 * n + 1, rest') := by
    intro rest hrest
    rw [readHalfTurns?.eq_def]
    simp only [List.cons_append]
    rw [if_pos hfirst, ← List.cons_append, Text.takeWhile_append_of_stops hdigits hrest,
      Text.dropWhile_append_of_stops hdigits hrest]
    cases List.isPrefixOf? ['.', '5'] rest <;> rfl
  -- A half shows behind the whole turns, and nothing else starts like one.
  have hhalf : List.isPrefixOf? ['.', '5'] cs = none := h.isPrefixOf?_eq_none (by decide) _
  constructor
  · rw [hread cs (h.stops isOpening_of_isAsciiDigit), hhalf, Option.elim_none]
  · rw [hread ('.' :: '5' :: cs) (Text.stops_cons.2 (by decide)),
      show List.isPrefixOf? ['.', '5'] ('.' :: '5' :: cs) = some cs from rfl, Option.elim_some]

end Suffixes

theorem isPrefixOf?_hyphen_of_isAsciiDigit {d : Char} (hd : Text.isAsciiDigit d = true) {w : Char}
    (hw : Text.isAsciiDigit w = false) (ws cs : List Char) :
    List.isPrefixOf? ('-' :: w :: ws) ('-' :: d :: cs) = none := by
  rw [List.isPrefixOf?, if_pos (beq_self_eq_true '-'), List.isPrefixOf?,
    if_neg (mt beq_iff_eq.1 (ne_of_isAsciiDigit hd hw).symm)]

/-- A digit behind the hyphen can only be the rotations of a jump. -/
theorem readEdgeMove_jump {d : Char} (hascii : Text.isAsciiDigit d = true) (hzero : d ≠ '0')
    (j : Jump) (footwork : Footwork) (code : Code) (cs : List Char) :
    readEdgeMove footwork code ('-' :: d :: (j.letters ++ cs)) =
      readFigure footwork code (.jump j (Text.ofDigits [d])) cs := by
  have hfixed : readFixedSuffix? ('-' :: d :: (j.letters ++ cs)) = none := by
    unfold readFixedSuffix?
    rw [List.findSome?_eq_none_iff]
    intro entry hentry
    simp only [fixedSuffixes, List.mem_cons, List.not_mem_nil, or_false] at hentry
    rw [Option.map_eq_none_iff]
    rcases hentry with rfl | rfl | rfl | rfl | rfl | rfl | rfl | rfl | rfl | rfl
    · rfl
    all_goals exact isPrefixOf?_hyphen_of_isAsciiDigit hascii (by decide) _ _
  have htwizzle : List.isPrefixOf? twizzleMark ('-' :: d :: (j.letters ++ cs)) = none :=
    isPrefixOf?_hyphen_of_isAsciiDigit hascii (by decide) _ _
  have hdigit : (Text.isAsciiDigit d && d != '0') = true := by
    rw [Bool.and_eq_true, bne_iff_ne]
    exact ⟨hascii, hzero⟩
  have hletters : Jump.read? (j.letters ++ cs) = some (j, cs) := by
    cases j <;> rfl
  rw [readEdgeMove, hfixed]
  simp only
  rw [htwizzle]
  simp only [readJump?, if_pos hdigit, hletters, Option.map_some]

/-! ### Skated moves -/

/-- Whether a move is skated, so that it may be counted. -/
def Move.isSkated : Move → Bool
  | part p => p.code?.isSome
  | figure _ => true
  | _ => false

theorem Footwork.read_mark_append (footwork : Footwork) (code : Code) (cs : List Char) :
    Footwork.read (footwork.mark ++ (code.letters ++ cs)) = (footwork, code.letters ++ cs) := by
  rcases code with ⟨_ | _ | _, _, _⟩ <;> cases footwork <;> rfl

/-- Footwork and code are read back in front of anything that is no edge. -/
theorem readSkated?_append (footwork : Footwork) (code : Code) {cs : List Char}
    (h : code.edge = .flat → Stops (fun c => (Edge.ofLetter? c).isSome) cs) :
    readSkated? (footwork.mark ++ code.letters ++ cs) =
      some (if code.edge = .flat then readFlatMove footwork code cs
        else readEdgeMove footwork code cs) := by
  have hcode : Code.read? (code.letters ++ cs) = some (code, cs) := by
    refine Code.read?_letters_append code cs fun hflat c hc => ?_
    have := h hflat c hc
    rwa [Option.isSome_eq_false_iff, Option.isNone_iff_eq_none] at this
  rw [List.append_assoc, readSkated?, Footwork.read_mark_append]
  simp only [hcode]

theorem ParameterText.stops_edge {cs : List Char} (h : ParameterText cs) :
    Stops (fun c => (Edge.ofLetter? c).isSome) cs :=
  h.stops isOpening_of_ofLetter?

/-- The characters that footwork and code may start with. -/
def skatedOpenings : List Char :=
  ['x', 'w', 'L', 'R', 'B']

/-- The characters that the text of a move may start with. -/
def moveOpenings : List Char :=
  ['x', 'w', 'L', 'R', 'B', 'W', 'S', 'I', 'T', '|', ':', '!']

theorem skated_eq_cons (footwork : Footwork) (code : Code) (rest : List Char) :
    ∃ c cs, footwork.mark ++ code.letters ++ rest = c :: cs ∧ c ∈ skatedOpenings := by
  have hfoot : ∀ foot : Foot, foot.letter ∈ skatedOpenings := by
    intro foot
    cases foot <;> decide
  cases footwork with
  | normal => exact ⟨_, _, rfl, hfoot code.foot⟩
  | _ => exact ⟨_, _, rfl, by decide⟩

theorem mark_append_letters_eq_cons (footwork : Footwork) (code : Code) (rest : List Char) :
    ∃ c cs, footwork.mark ++ code.letters ++ rest = c :: cs ∧ c ∈ moveOpenings := by
  have hsubset : ∀ c ∈ skatedOpenings, c ∈ moveOpenings := by decide
  rcases skated_eq_cons footwork code rest with ⟨c, cs, hcons, hc⟩
  exact ⟨c, cs, hcons, hsubset c hc⟩

end IceFigures
