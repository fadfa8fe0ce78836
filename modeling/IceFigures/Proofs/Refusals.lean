import IceFigures.Command
import IceFigures.Proofs.Messages
import IceFigures.Proofs.Numbering
import IceFigures.Proofs.RepeatMarks

/-!
# Refusals

Fragments are read in order, and whatever is made of a text stops at the first one
that cannot be read. If all of them are read, a diagram may still be refused at a
repeat mark. The place that is told is that of a fragment in either case: steps that
were read have a place, so the one that stands in for a missing place is never told.

Nothing is written before all of that has been decided, so a run either answers with
all of its output, or with one line about the first fault and nothing else.

A diagram can be refused for a third reason, which has no place. Numbering may go on
to a number that is too long to be written, although every fragment is read and the
marks are balanced (`ofText_overrunText`). Then a run does not answer at all.

## Main definitions

* `FirstFault`: The first fragment that cannot be read.
* `Reports`: What is told about a text that is refused.
* `Replies`: What a run answers.
* `overrunText`: A text that is refused without a place.

## Theorems

* `mapM_ofFragment_eq_error_iff`: Reading stops at the first fault.
* `exists_firstFault_iff`: There is a first fault if there is one at all.
* `expand_eq_error_iff`: Texts are refused for a fragment, or for a mark.
* `exists_mark_of_atFault`: The mark at fault is that of a fragment.
* `reports_first_fault`: All refusals and all answers.
-/

namespace IceFigures

/-! ### The first fault -/

/-- What is wrong with the first of some fragments that cannot be read, at the place of
    that fragment. -/
def FirstFault (fs : List Fragment) (d : Diagnostic) : Prop :=
  ∃ before f behind, fs = before ++ f :: behind ∧
    (∀ g ∈ before, ∃ s, Step.ofFragment g = .ok s) ∧
    Step.ofFragment f = .error d ∧ d.place = f.place

theorem Step.place_of_ofFragment_eq_error {f : Fragment} {d : Diagnostic}
    (h : Step.ofFragment f = .error d) : d.place = f.place := by
  unfold Step.ofFragment at h
  split at h
  · rw [← Except.error.inj h]
  · cases h

theorem firstFault_cons_of_error {f : Fragment} {e : Diagnostic} (hf : Step.ofFragment f = .error e)
    {fs : List Fragment} {d : Diagnostic} : FirstFault (f :: fs) d ↔ e = d := by
  constructor
  · rintro ⟨before, g, behind, hcut, hbefore, hg, -⟩
    rcases List.cons_eq_append_iff.1 hcut with ⟨rfl, hfirst⟩ | ⟨before', rfl, -⟩
    · rw [(List.cons.inj hfirst).1, hf] at hg
      exact Except.error.inj hg
    · rcases hbefore f List.mem_cons_self with ⟨s, hs⟩
      rw [hf] at hs
      cases hs
  · rintro rfl
    exact ⟨[], f, fs, rfl, fun _ hg => absurd hg List.not_mem_nil, hf,
      Step.place_of_ofFragment_eq_error hf⟩

theorem firstFault_cons_of_ok {f : Fragment} {s : Step} (hf : Step.ofFragment f = .ok s)
    {fs : List Fragment} {d : Diagnostic} : FirstFault (f :: fs) d ↔ FirstFault fs d := by
  constructor
  · rintro ⟨before, g, behind, hcut, hbefore, hg⟩
    rcases List.cons_eq_append_iff.1 hcut with ⟨rfl, hfirst⟩ | ⟨before', rfl, hrest⟩
    · rw [(List.cons.inj hfirst).1, hf] at hg
      cases hg.1
    · exact ⟨before', g, behind, hrest, (List.forall_mem_cons.1 hbefore).2, hg⟩
  · rintro ⟨before, g, behind, rfl, hbefore, hg⟩
    exact ⟨f :: before, g, behind, rfl, List.forall_mem_cons.2 ⟨⟨s, hf⟩, hbefore⟩, hg⟩

theorem not_firstFault_nil (d : Diagnostic) : ¬FirstFault [] d := by
  rintro ⟨before, f, behind, hcut, -⟩
  exact absurd hcut.symm (List.append_ne_nil_of_right_ne_nil _ (List.cons_ne_nil _ _))

/-- Reading stops at the first fault. -/
theorem mapM_ofFragment_eq_error_iff {fs : List Fragment} {d : Diagnostic} :
    fs.mapM Step.ofFragment = .error d ↔ FirstFault fs d := by
  induction fs with
  | nil => exact ⟨fun h => (by cases h), fun h => absurd h (not_firstFault_nil d)⟩
  | cons f fs ih =>
      rw [mapM_ofFragment_cons]
      cases hf : Step.ofFragment f with
      | error e =>
          rw [firstFault_cons_of_error hf, Except.bind, Except.error.injEq]
      | ok s =>
          rw [firstFault_cons_of_ok hf, Except.bind, ← ih]
          exact map_eq_error

/-- There is a first fault if there is one at all. -/
theorem exists_firstFault_iff {fs : List Fragment} :
    (∃ d, FirstFault fs d) ↔ ∃ f ∈ fs, ∃ d, Step.ofFragment f = .error d := by
  induction fs with
  | nil =>
      constructor
      · rintro ⟨d, hd⟩
        exact absurd hd (not_firstFault_nil d)
      · rintro ⟨f, hf, -⟩
        exact absurd hf List.not_mem_nil
  | cons f fs ih =>
      cases hf : Step.ofFragment f with
      | error e =>
          exact ⟨fun _ => ⟨f, List.mem_cons_self, e, hf⟩,
            fun _ => ⟨e, (firstFault_cons_of_error hf).2 rfl⟩⟩
      | ok s =>
          simp only [firstFault_cons_of_ok hf, ih, List.exists_mem_cons_iff, hf, reduceCtorEq,
            exists_false, false_or]

/-! ### Texts -/

theorem canonical_eq_error_iff {text separator : String} {d : Diagnostic} :
    canonical text separator = .error d ↔ FirstFault (Fragment.ofText text) d := by
  rw [canonical, map_eq_error, Step.ofText, mapM_ofFragment_eq_error_iff]

/-- Texts are refused for a fragment, or else for a mark. -/
theorem expand_eq_error_iff {text : String} {d : Diagnostic} :
    expand text = .error d ↔
      FirstFault (Fragment.ofText text) d ∨
        ∃ steps, Step.ofText text = .ok steps ∧ AtFault steps d := by
  rw [← mapM_ofFragment_eq_error_iff, ← Step.ofText]
  simp only [← unrollSteps_eq_error_iff]
  exact bind_eq_error

/-- A fault at a place is one of reading and unrolling. -/
theorem ofText_eq_located_iff {text : String} {d : Diagnostic} :
    Diagram.ofText text = .error (.located d) ↔ expand text = .error d := by
  unfold Diagram.ofText
  cases hexpand : expand text with
  | error e => simp only [Except.error.injEq, Refusal.located.injEq]
  | ok steps =>
      simp only [checked_ofSteps_eq_error_iff (writable_of_expand hexpand), reduceCtorEq,
        false_and]

/-- The mark at fault is that of a fragment, which is where it is told. -/
theorem exists_mark_of_atFault {text : String} {steps : List Step} {d : Diagnostic}
    (hsteps : Step.ofText text = .ok steps) (h : AtFault steps d) :
    ∃ f ∈ Fragment.ofText text, ∃ s, Step.ofFragment f = .ok s ∧ s.move.isMark = true ∧
      d.place = f.place := by
  have hread : ∀ {k : Nat} {s : Step}, steps[k]? = some s → ∃ f ∈ Fragment.ofText text,
      Step.ofFragment f = .ok s ∧ s.place.getD {} = f.place := by
    intro k s hk
    rcases Passage.exists_of_forall₂ (mapM_ofFragment_eq_ok.1 hsteps) (List.mem_of_getElem? hk) with
      ⟨f, hf, hs⟩
    refine ⟨f, hf, hs, ?_⟩
    rw [(Step.ofFragment_cases hs).2.1, Option.getD_some]
  cases h with
  | atEnd hloose hfirst =>
      rcases hread hloose.get with ⟨f, hf, hs, hplace⟩
      rcases hloose.isEnd with ⟨mark, hmark⟩
      exact ⟨f, hf, _, hs, by rw [hmark]; rfl, hplace⟩
  | atStart hloose hends hlast =>
      rcases hread hloose.get with ⟨f, hf, hs, hplace⟩
      exact ⟨f, hf, _, hs, by rw [hloose.isStart]; rfl, hplace⟩

/-- Whatever is wrong with a text is told on one line. -/
theorem oneLine_of_expand {text : String} {d : Diagnostic} (h : expand text = .error d) :
    OneLine d.fault.message := by
  rcases expand_eq_error_iff.1 h with ⟨before, f, behind, hcut, -, hf, -⟩ | ⟨steps, -, hfault⟩
  · have hmem : f ∈ Fragment.ofText text := by
      rw [hcut]
      exact List.mem_append_right _ List.mem_cons_self
    exact oneLine_of_ofFragment hmem hf
  · cases hfault with
    | atEnd => exact Fault.oneLine_message trivial
    | atStart => exact Fault.oneLine_message trivial

/-! ### Runs -/

theorem Place.text_eq (p : Place) :
    p.text = toString (p.row + 1) ++ ":" ++ toString (p.col + 1) := by
  have hdigits : ∀ n : Nat, toString n = String.ofList (Nat.toDigits 10 n) := fun _ => rfl
  have hcolon : ":" = String.ofList [':'] := rfl
  rw [text, hdigits, hdigits, hcolon, ← String.ofList_append, ← String.ofList_append,
    List.append_assoc, List.singleton_append]

/-- The text that a run reads. -/
def Request.text (r : Request) : String :=
  String.ofList (plainLines r.input.toList)

/-- The text of a run is refused at a place. -/
def Request.Refused (r : Request) (d : Diagnostic) : Prop :=
  if r.canonical then IceFigures.canonical r.text "\n" = .error d
  else Diagram.ofText r.text = .error (.located d)

/-- What a run makes of its text. -/
def Request.Yields (r : Request) (output : String) : Prop :=
  if r.canonical then ∃ c, IceFigures.canonical r.text "\n" = .ok c ∧ output = c ++ "\n"
  else ∃ d, Diagram.ofText r.text = .ok d ∧ output = d.write

theorem outputOf_canonical {r : Request} (h : r.canonical = true) :
    outputOf r =
      ((canonical r.text "\n").map fun c => c ++ "\n").mapError Refusal.located :=
  if_pos h

theorem outputOf_diagram {r : Request} (h : r.canonical = false) :
    outputOf r = (Diagram.ofText r.text).map Diagram.write :=
  if_neg (by rw [h]; exact Bool.false_ne_true)

theorem outputOf_eq_located_iff {r : Request} {d : Diagnostic} :
    outputOf r = .error (.located d) ↔ r.Refused d := by
  unfold Request.Refused
  cases hcanonical : r.canonical with
  | true =>
      rw [outputOf_canonical hcanonical, if_pos rfl]
      cases canonical r.text "\n" with
      | error e =>
          simp only [Except.map, Except.mapError, Except.error.injEq, Refusal.located.injEq]
      | ok c => simp only [Except.map, Except.mapError, reduceCtorEq]
  | false =>
      rw [outputOf_diagram hcanonical, if_neg Bool.false_ne_true]
      exact map_eq_error

theorem outputOf_eq_ok_iff {r : Request} {output : String} :
    outputOf r = .ok output ↔ r.Yields output := by
  unfold Request.Yields
  cases hcanonical : r.canonical with
  | true =>
      rw [outputOf_canonical hcanonical, if_pos rfl]
      cases canonical r.text "\n" with
      | error e =>
          simp only [Except.map, Except.mapError, reduceCtorEq, false_and, exists_false]
      | ok c =>
          simp only [Except.map, Except.mapError, Except.ok.injEq, exists_eq_left', eq_comm]
  | false =>
      rw [outputOf_diagram hcanonical, if_neg Bool.false_ne_true, map_eq_ok]
      simp only [eq_comm]

theorem outputOf_eq_overall_iff {r : Request} {f : Fault} :
    outputOf r = .error (.overall f) ↔
      r.canonical = false ∧ Diagram.ofText r.text = .error (.overall f) := by
  cases hcanonical : r.canonical with
  | true =>
      rw [outputOf_canonical hcanonical]
      cases canonical r.text "\n" with
      | error d => simp only [Except.map, Except.mapError, Except.error.injEq, reduceCtorEq,
          false_and]
      | ok c => simp only [Except.map, Except.mapError, reduceCtorEq, false_and]
  | false =>
      rw [outputOf_diagram hcanonical, map_eq_error]
      exact (and_iff_right rfl).symm

/-- What is refused at a place comes from reading and unrolling the text. -/
theorem Request.Refused.expand {r : Request} {d : Diagnostic} (h : r.Refused d) :
    expand r.text = .error d := by
  unfold Request.Refused at h
  split at h
  · exact expand_eq_error_iff.2 (Or.inl (canonical_eq_error_iff.1 h))
  · exact ofText_eq_located_iff.1 h

/-- What is told about a text that is refused. -/
structure Reports (text : String) : Prop where
  /-- The canonical form is refused for the first fragment that cannot be read. -/
  canonical : ∀ separator d,
    canonical text separator = .error d ↔ FirstFault (Fragment.ofText text) d
  unread : (∃ d, FirstFault (Fragment.ofText text) d) ↔
    ∃ f ∈ Fragment.ofText text, ∃ d, Step.ofFragment f = .error d
  /-- A diagram is refused for that fragment or, if all of them are read, for a mark. -/
  located : ∀ d, Diagram.ofText text = .error (.located d) ↔
    FirstFault (Fragment.ofText text) d ∨
      ∃ steps, Step.ofText text = .ok steps ∧ AtFault steps d
  refused : (∃ d, Diagram.ofText text = .error (.located d)) ↔
    (∃ f ∈ Fragment.ofText text, ∃ d, Step.ofFragment f = .error d) ∨
      ∃ steps, Step.ofText text = .ok steps ∧ ¬Balanced steps
  marked : ∀ steps d, Step.ofText text = .ok steps → AtFault steps d →
    ∃ f ∈ Fragment.ofText text, ∃ s, Step.ofFragment f = .ok s ∧ s.move.isMark = true ∧
      d.place = f.place
  /-- It is refused without a place if and only if numbering overruns. -/
  overall : ∀ f, Diagram.ofText text = .error (.overall f) ↔
    f = .unwritable ∧ ∃ steps, expand text = .ok steps ∧ Overruns {} steps
  /-- That takes a count with less room behind it than there are steps. -/
  drawn : ∀ steps limit, expand text = .ok steps → (∀ s ∈ steps, ∀ n ∈ s.count, n ≤ limit) →
    limit + steps.length ≤ 10 ^ Text.maxDigits →
      Diagram.ofText text = .ok (Diagram.ofSteps steps)

/-- What a run answers. -/
structure Replies (r : Request) : Prop where
  /-- A refusal is one line, and nothing is put out. -/
  refused : ∀ d, r.Refused d →
    answer r = .ok
      { status := 1, stdout := "", written := none
        stderr := r.file.getD "<stdin>" ++ ":" ++ toString (d.place.row + 1) ++ ":" ++
          toString (d.place.col + 1) ++ ": " ++ d.fault.message ++ "\n" } ∧
      OneLine d.fault.message
  /-- All of the output is put out in one place, and nothing is told. -/
  answered : ∀ output, r.Yields output →
    answer r = .ok
      { status := 0, stderr := ""
        stdout := if r.toFile then "" else output
        written := if r.toFile then some output else none }
  /-- Nothing but a diagram that is refused without a place goes unanswered. -/
  unanswered : ∀ f, answer r = .error f ↔
    r.canonical = false ∧ Diagram.ofText r.text = .error (.overall f)
  total : (∃ d, r.Refused d) ∨ (∃ output, r.Yields output) ∨ ∃ f, answer r = .error f

theorem reports (text : String) : Reports text := by
  constructor
  case canonical => exact fun _ _ => canonical_eq_error_iff
  case unread => exact exists_firstFault_iff
  case located => exact fun _ => ofText_eq_located_iff.trans expand_eq_error_iff
  case refused =>
    have hmarks : (∃ d steps, Step.ofText text = .ok steps ∧ AtFault steps d) ↔
        ∃ steps, Step.ofText text = .ok steps ∧ ¬Balanced steps := by
      simp only [← exists_error_iff, unrollSteps_eq_error_iff]
      constructor
      · rintro ⟨d, steps, hsteps, hd⟩
        exact ⟨steps, hsteps, d, hd⟩
      · rintro ⟨steps, hsteps, d, hd⟩
        exact ⟨d, steps, hsteps, hd⟩
    simp only [ofText_eq_located_iff, expand_eq_error_iff, exists_or, exists_firstFault_iff, hmarks]
  case marked => exact fun _ _ => exists_mark_of_atFault
  case overall => exact fun _ => ofText_eq_overall_iff
  case drawn =>
    intro steps limit hsteps hcount hlimit
    cases hdiagram : Diagram.ofText text with
    | ok d =>
        rcases ofText_eq_ok hdiagram with ⟨steps', hsteps', rfl⟩
        rw [hsteps, Except.ok.injEq] at hsteps'
        rw [hsteps']
    | error e =>
        cases e with
        | located d =>
            rw [ofText_eq_located_iff, hsteps] at hdiagram
            cases hdiagram
        | overall f =>
            rcases (ofText_eq_overall_iff.1 hdiagram).2 with ⟨steps', hsteps', hover⟩
            rw [hsteps, Except.ok.injEq] at hsteps'
            exact absurd (hsteps' ▸ hover) (not_overruns hcount hlimit)

theorem replies (r : Request) : Replies r := by
  constructor
  case refused =>
    intro d hd
    refine ⟨?_, oneLine_of_expand hd.expand⟩
    rw [answer, outputOf_eq_located_iff.2 hd]
    simp only [Diagnostic.text, Place.text_eq, String.append_assoc]
  case answered =>
    intro output houtput
    rw [answer, outputOf_eq_ok_iff.2 houtput]
    cases r.toFile <;> rfl
  case unanswered =>
    intro f
    rw [← outputOf_eq_overall_iff, answer]
    split
    · rename_i g houtput
      rw [houtput, Except.error.injEq, Except.error.injEq, Refusal.overall.injEq]
    · rename_i d houtput
      rw [houtput, Except.error.injEq]
      simp only [reduceCtorEq]
    · rename_i output houtput
      rw [houtput]
      simp only [reduceCtorEq]
  case total =>
    cases houtput : outputOf r with
    | ok output => exact Or.inr (Or.inl ⟨output, outputOf_eq_ok_iff.1 houtput⟩)
    | error e =>
        cases e with
        | located d => exact Or.inl ⟨d, outputOf_eq_located_iff.1 houtput⟩
        | overall f =>
            refine Or.inr (Or.inr ⟨f, ?_⟩)
            rw [answer, houtput]

/-- Whatever cannot be read is told at its own place, first things first, and a run
    that tells of it does nothing else. -/
theorem reports_first_fault (text : String) (r : Request) : Reports text ∧ Replies r :=
  ⟨reports text, replies r⟩

/-! ### A refusal without a place -/

/-- Numbering is switched on, and goes on from the longest count there is. -/
def overrunSteps : List Step :=
  [{ move := .info { autoCount := true } }, countedEdge (10 ^ Text.maxDigits - 1),
    outsideEdge .left]

/-- The text of these steps. -/
def overrunText : String :=
  ";".intercalate (overrunSteps.map Step.written)

theorem readable_overrunSteps :
    ∀ s ∈ overrunSteps, s.Readable ∧ s.move.TextIn fun c => isPlainChar c = true := by
  have hinfo : Step.ofFragment ⟨{}, "Info[auto-count=true]"⟩ =
      .ok { move := .info { autoCount := true }, place := some {} } := by decide +kernel
  have hedge : Step.ofFragment ⟨{}, "LFO"⟩ =
      .ok ((outsideEdge .left).withPlace (some {})) := by decide +kernel
  rcases Step.ofFragment_cases hinfo with ⟨hreadable, -, htaken⟩
  rcases Step.ofFragment_cases hedge with ⟨hreadable', -, htaken'⟩
  have htext := textIn_of_takenFrom htaken (P := fun c => isPlainChar c = true) (by decide)
  have htext' := textIn_of_takenFrom htaken' (P := fun c => isPlainChar c = true) (by decide)
  have hcount : ∀ n ∈ (countedEdge (10 ^ Text.maxDigits - 1)).count,
      Text.isWritable (n : Int) = true := by
    intro n hn
    rw [countedEdge, Option.mem_some_iff] at hn
    rw [Text.isWritable_natCast_iff_lt, ← hn]
    exact Nat.sub_lt (Nat.pow_pos (by decide)) Nat.one_pos
  simp only [overrunSteps, List.forall_mem_cons, List.not_mem_nil, false_implies, implies_true,
    and_true]
  refine ⟨⟨⟨hreadable.move, hreadable.timed, hreadable.count, hreadable.duration⟩, htext⟩,
    ⟨⟨hreadable'.move, fun _ => rfl, hcount, hreadable'.duration⟩, htext'⟩,
    ⟨⟨hreadable'.move, hreadable'.timed, hreadable'.count, hreadable'.duration⟩, htext'⟩⟩

theorem overruns_overrunSteps : Overruns {} overrunSteps := by
  have hpositive : 0 < 10 ^ Text.maxDigits := Nat.pow_pos (by decide)
  have hcount : 10 ^ Text.maxDigits - 1 ≠ 0 := by
    have hlarge : 1 < 10 ^ Text.maxDigits := Nat.one_lt_pow (by decide) (by decide)
    omega
  have hnumber : ∀ settings : Settings, settings.autoCount = some 1 →
      (laterSettings settings (countedEdge (10 ^ Text.maxDigits - 1))).autoCount =
        some ((10 ^ Text.maxDigits - 1 : Nat) + 1 : Int) := by
    intro settings hone
    have hnext := autoCount_laterSettings settings (countedEdge (10 ^ Text.maxDigits - 1))
    rw [countFor_of_mem rfl hcount, Move.configure_of_showsCount rfl, hone] at hnext
    exact hnext
  have hlong : Text.isWritable ((10 ^ Text.maxDigits - 1 : Nat) + 1 : Int) = false := by
    rw [← Nat.cast_succ, Nat.succ_eq_add_one, Nat.sub_add_cancel hpositive, Bool.eq_false_iff]
    exact fun h => Nat.lt_irrefl _ ((Text.isWritable_natCast_iff_lt _).1 h)
  exact .later (.later (.here rfl rfl (hnumber _ rfl) hlong))

theorem plainLines_of_not_mem {cs : List Char} (h : '\r' ∉ cs) : plainLines cs = cs := by
  fun_induction plainLines cs with
  | case1 => rfl
  | case2 => exact absurd List.mem_cons_self h
  | case3 => exact absurd List.mem_cons_self h
  | case4 c cs _ _ ih => rw [ih fun hmem => h (List.mem_cons_of_mem c hmem)]

theorem not_mem_overrunText : '\r' ∉ overrunText.toList := by
  have hcount : '\r' ∉ (countedEdge (10 ^ Text.maxDigits - 1)).chars := by
    rw [Step.chars, List.mem_append, List.mem_append, not_or, not_or]
    refine ⟨⟨fun h => ?_, by decide⟩, by decide⟩
    rcases List.mem_append.1 h with h | h
    · exact absurd (Text.isAsciiDigit_of_mem_toDigits h) (by decide)
    · exact absurd h (by decide)
  have hchars : ∀ s ∈ overrunSteps, '\r' ∉ s.chars := by
    simp only [overrunSteps, List.forall_mem_cons, List.not_mem_nil, false_implies, implies_true,
      and_true]
    exact ⟨by decide, hcount, by decide⟩
  intro h
  rw [overrunText, String.toList_intercalate, List.map_map] at h
  rcases Fragment.mem_intercalate h with hseparator | ⟨cs, hcs, hmem⟩
  · exact absurd hseparator (by decide)
  · rcases List.mem_map.1 hcs with ⟨s, hs, rfl⟩
    refine hchars s hs ?_
    rwa [Function.comp_apply, Step.written, String.toList_ofList] at hmem

/-- A text that is refused without a place, although every fragment is read and there is
    no mark. A run has no answer to it. -/
theorem ofText_overrunText :
    (∀ f ∈ Fragment.ofText overrunText, ∃ s, Step.ofFragment f = .ok s) ∧
      (∃ steps, Step.ofText overrunText = .ok steps ∧ Balanced steps) ∧
      Diagram.ofText overrunText = .error (.overall .unwritable) ∧
      answer { input := overrunText } = .error .unwritable := by
  have hpieces : ∀ p ∈ overrunSteps.map Step.written, IsPiece p.toList := by
    intro p hp
    rcases List.mem_map.1 hp with ⟨s, hs, rfl⟩
    rw [Step.written, String.toList_ofList]
    exact isPiece_chars (readable_overrunSteps s hs).1 (readable_overrunSteps s hs).2
  rcases mapM_ofFragment_of_texts (fun s hs => (readable_overrunSteps s hs).1)
    (Fragment.ofText_intercalate (Or.inl rfl) hpieces) with ⟨steps, hsteps, hsame⟩
  have hmarks : ∀ s ∈ steps, s.move.isMark = false := by
    intro s hs
    have hmem : s.withPlace none ∈ overrunSteps.map (·.withPlace none) :=
      hsame ▸ List.mem_map_of_mem hs
    rcases List.mem_map.1 hmem with ⟨t, ht, hts⟩
    have hmove : t.move = s.move := (congrArg Step.move hts :)
    rw [← hmove]
    exact (by decide : ∀ t ∈ overrunSteps, t.move.isMark = false) t ht
  have hunroll := unrollSteps_of_forall hmarks
  have hexpand : expand overrunText = .ok (steps.map fun s => s.inPass none) := by
    rw [expand, Step.ofText, overrunText, hsteps]
    exact hunroll
  have hover : Overruns {} (steps.map fun s => s.inPass none) := by
    refine overruns_overrunSteps.of_map_withPlace ?_
    rw [List.map_map, ← hsame]
    rfl
  have hdiagram := ofText_eq_overall_iff.2 ⟨rfl, _, hexpand, hover⟩
  refine ⟨fun f hf => ?_, ⟨steps, hsteps, unrollSteps_eq_ok hunroll⟩, hdiagram, ?_⟩
  · cases hf' : Step.ofFragment f with
    | ok s => exact ⟨s, rfl⟩
    | error e =>
        rcases exists_firstFault_iff.2 ⟨f, hf, e, hf'⟩ with ⟨d, hd⟩
        have herror := mapM_ofFragment_eq_error_iff.2 hd
        rw [overrunText, hsteps] at herror
        cases herror
  · refine (replies { input := overrunText }).unanswered .unwritable |>.2 ⟨rfl, ?_⟩
    rw [Request.text, plainLines_of_not_mem not_mem_overrunText, String.ofList_toList]
    exact hdiagram

end IceFigures
