import IceFigures.Proofs.CanonicalText
import IceFigures.Proofs.DistinctText

/-!
# Messages on One Line

A message stands on one line, whatever text it speaks of. Most of what it repeats
from the text is quoted, which spells a line end out. What is not quoted is a number,
a code or a name, or else a value that a list has given to a parameter that does not
take it. That value is shown as it was written, and it may hold any text; but fragments
end at the end of their line, so it was written on one line.

Which fault a reader reports depends on where it stops, and a reader is made of
readers, so what faults have in common is carried through them (`Refuses`).

## Main definitions

* `OneLine`: A text without a line end.
* `Fault.Single`: Faults that show nothing on several lines.
* `Refuses`: A reading that is refused for such faults only.

## Theorems

* `Fault.oneLine_message`: The messages of such faults.
* `Move.single_of_mem_fault?`: What is wrong with a move.
* `Schema.refuses_populate`: What is wrong with parameters.
* `Step.refuses_read`: What is wrong with a line.
* `oneLine_of_ofFragment`: Whatever is wrong with a fragment is told on one line.
-/

namespace IceFigures

/-- A text without a line end. -/
def OneLine (s : String) : Prop :=
  '\n' ∉ s.toList

instance (s : String) : Decidable (OneLine s) :=
  inferInstanceAs (Decidable (¬_))

/-! ### What messages are made of -/

theorem oneLine_append {s t : String} : OneLine (s ++ t) ↔ OneLine s ∧ OneLine t := by
  rw [OneLine, OneLine, OneLine, String.toList_append, List.mem_append, not_or]

theorem oneLine_ofList {cs : List Char} : OneLine (String.ofList cs) ↔ '\n' ∉ cs := by
  rw [OneLine, String.toList_ofList]

theorem oneLine_of_isPlain {cs : List Char} (h : IsPlain cs) : OneLine (String.ofList cs) :=
  oneLine_ofList.2 (h.not_mem (by decide))

theorem oneLine_decimal (n : Int) : OneLine (String.ofList (Text.decimal n)) :=
  oneLine_of_isPlain (isPlain_decimal n)

theorem oneLine_toString (n : Nat) : OneLine (toString n) :=
  oneLine_of_isPlain (isPlain_toDigits n)

theorem oneLine_code (c : Code) : OneLine c.text :=
  oneLine_of_isPlain (isPlain_letters c)

theorem not_mem_hexPadded (width n : Nat) : '\n' ∉ Text.hexPadded width n := by
  rw [Text.hexPadded, List.mem_append, not_or]
  constructor
  · intro h
    exact absurd (List.eq_of_mem_replicate h) (by decide)
  · exact fun h => Svg.of_mem_hexadecimal (P := (· ≠ '\n')) (by decide) h rfl

/-- No character is spelled with a line end between quotes. -/
theorem not_mem_escape {mark : Char} (hmark : mark ≠ '\n') (c : Char) :
    '\n' ∉ Text.escape mark c := by
  have hspelled : ∀ width, ∀ d, d ≠ '\n' → '\n' ∉ '\\' :: d :: Text.hexPadded width c.toNat := by
    intro width d hd
    rw [List.mem_cons, List.mem_cons, not_or, not_or]
    exact ⟨by decide, hd.symm, not_mem_hexPadded _ _⟩
  by_cases hend : c = '\n'
  · subst hend
    rw [Text.escape, if_neg (by simp [hmark.symm]), if_pos rfl]
    decide
  · have hself : ∀ before : List Char, '\n' ∉ before → '\n' ∉ before ++ [c] := by
      intro before hbefore
      rw [List.mem_append, List.mem_singleton, not_or]
      exact ⟨hbefore, fun h => hend h.symm⟩
    rw [Text.escape, if_neg hend]
    split_ifs
    · exact hself ['\\'] (by decide)
    · decide
    · decide
    · exact hself [] List.not_mem_nil
    · exact hspelled 2 'x' (by decide)
    · exact hspelled 4 'u' (by decide)
    · exact hspelled 8 'U' (by decide)

theorem oneLine_quoted (s : String) : OneLine (Text.quoted s) := by
  have hmark : Text.quoteMark s.toList ≠ '\n' := by
    rw [Text.quoteMark]
    split <;> decide
  rw [Text.quoted, oneLine_ofList, List.mem_append, List.mem_cons, List.mem_singleton, not_or,
    not_or]
  refine ⟨⟨hmark.symm, fun h => ?_⟩, hmark.symm⟩
  rcases List.mem_flatMap.1 h with ⟨c, -, hc⟩
  exact not_mem_escape hmark c hc

theorem oneLine_quotedStart (length : Nat) (s : String) : OneLine (Text.quotedStart length s) :=
  oneLine_ofList.2 fun h => oneLine_quoted s (List.mem_of_mem_take h)

-- By induction on the texts, the first of which is followed by the separator or by none.
theorem oneLine_intercalate {separator : String} (hseparator : OneLine separator)
    {texts : List String} (h : ∀ s ∈ texts, OneLine s) :
    OneLine (separator.intercalate texts) := by
  rw [OneLine, String.toList_intercalate]
  induction texts with
  | nil => exact List.not_mem_nil
  | cons s rest ih =>
      rw [List.forall_mem_cons] at h
      cases rest with
      | nil =>
          rw [List.map_singleton, List.intercalate_singleton]
          exact h.1
      | cons t ts =>
          rw [List.map_cons, List.map_cons, List.intercalate_cons_cons, List.mem_append,
            List.mem_append, not_or, not_or]
          exact ⟨⟨h.1, hseparator⟩, ih h.2⟩

theorem oneLine_listedAll (ps : List Param) : OneLine (Param.listedAll ps) := by
  have hlisted : ∀ p : Param, OneLine p.listed := by
    intro p
    have hvalue : OneLine p.value.listed := by
      cases p.value with
      | number n => exact oneLine_decimal n
      | text s => exact oneLine_quoted s
      | flag b => cases b <;> decide
    unfold Param.listed
    simp only [oneLine_append, oneLine_quoted, hvalue, and_true]
    decide
  have hjoined : OneLine (", ".intercalate (ps.map Param.listed)) := by
    refine oneLine_intercalate (by decide) fun s hs => ?_
    rcases List.mem_map.1 hs with ⟨p, -, rfl⟩
    exact hlisted p
  unfold Param.listedAll
  simp only [oneLine_append, hjoined, and_true]
  decide

/-! ### Messages -/

/-- Faults that show nothing on several lines, apart from what they quote. -/
def Fault.Single : Fault → Prop
  | unacceptable _ v => v.TextIn (· ≠ '\n')
  | figureMismatch _ figure => OneLine figure
  | illegalEntry _ figure => OneLine figure
  | directiveFirst move => OneLine move
  | absolutePart move => OneLine move
  | _ => True

theorem oneLine_complaint {v : Value} (h : v.TextIn (· ≠ '\n')) (range : Range) :
    OneLine (range.complaint v) := by
  have hwritten : OneLine v.written := by
    cases v with
    | number n => exact oneLine_decimal n
    | flag b => cases b <;> decide
    | text s =>
        have hescaped : '\n' ∉ escapeText s.toList := by
          intro hc
          rcases List.mem_flatMap.1 hc with ⟨d, hd, hc⟩
          have hend : d = '\n' := by
            rw [escapeChar] at hc
            split at hc
            · simp only [List.mem_cons, List.not_mem_nil, or_false] at hc
              exact (hc.resolve_left (by decide)).symm
            · exact (List.mem_singleton.1 hc).symm
          exact h d hd hend
        rw [Value.written, Value.chars, oneLine_ofList, List.mem_append, List.mem_cons,
          List.mem_singleton, not_or, not_or]
        exact ⟨⟨by decide, hescaped⟩, by decide⟩
  cases range <;> cases v <;>
    simp only [Range.complaint, Range.want, oneLine_append, oneLine_decimal, hwritten, true_and] <;>
    decide

/-- Such faults are worded on one line. -/
theorem Fault.oneLine_wording {f : Fault} (h : f.Single) : OneLine f.wording := by
  have hadvice : OneLine digitAdvice := oneLine_ofList.2 (by decide)
  have hlimit : OneLine digitLimit := by
    refine oneLine_append.2 ⟨oneLine_append.2 ⟨?_, oneLine_toString _⟩, ?_⟩ <;>
      exact oneLine_ofList.2 (by decide)
  cases f with
  | unwritable => exact oneLine_append.2 ⟨hlimit, hadvice⟩
  | tooManyDigits count =>
      refine oneLine_append.2 ⟨oneLine_append.2 ⟨oneLine_append.2 ⟨oneLine_append.2
        ⟨hlimit, ?_⟩, oneLine_toString _⟩, ?_⟩, hadvice⟩ <;> exact oneLine_ofList.2 (by decide)
  | notNumeric text =>
      exact oneLine_append.2 ⟨oneLine_ofList.2 (by decide), oneLine_quotedStart _ _⟩
  | noShortCode kind =>
      refine oneLine_append.2 ⟨oneLine_append.2 ⟨oneLine_append.2 ⟨oneLine_append.2
        ⟨?_, oneLine_quoted _⟩, ?_⟩, oneLine_quoted _⟩, ?_⟩ <;> exact oneLine_ofList.2 (by decide)
  | unacceptable range v => exact oneLine_complaint h range
  | schemaMismatch ps =>
      refine oneLine_append.2 ⟨oneLine_append.2 ⟨?_, oneLine_listedAll _⟩, ?_⟩ <;>
        exact oneLine_ofList.2 (by decide)
  | figureMismatch ps figure =>
      refine oneLine_append.2 ⟨oneLine_append.2 ⟨oneLine_append.2
        ⟨?_, oneLine_listedAll _⟩, ?_⟩, h⟩ <;> exact oneLine_ofList.2 (by decide)
  | notCurving code | notFlat code =>
      exact oneLine_append.2 ⟨oneLine_code _, oneLine_ofList.2 (by decide)⟩
  | hopOffFlat code => exact oneLine_append.2 ⟨oneLine_ofList.2 (by decide), oneLine_code _⟩
  | illegalEntry code figure =>
      exact oneLine_append.2 ⟨oneLine_append.2 ⟨oneLine_code _, oneLine_ofList.2 (by decide)⟩, h⟩
  | rotationsOutOfRange count =>
      exact oneLine_append.2 ⟨oneLine_decimal _, oneLine_ofList.2 (by decide)⟩
  | tooFewHalfTurns count | tooFewParts count =>
      exact oneLine_append.2 ⟨oneLine_ofList.2 (by decide), oneLine_decimal _⟩
  | directiveFirst move | absolutePart move =>
      exact oneLine_append.2 ⟨oneLine_ofList.2 (by decide), h⟩
  | unboundedAngle | unmatchedEnd | unmatchedStart => exact oneLine_ofList.2 (by decide)
  | _ => exact oneLine_append.2 ⟨oneLine_ofList.2 (by decide), oneLine_quoted _⟩

/-- Such faults are told on one line, their numbers being short or not. -/
theorem Fault.oneLine_message {f : Fault} (h : f.Single) : OneLine f.message := by
  unfold message
  split
  · exact oneLine_wording h
  · exact oneLine_wording (f := unwritable) trivial

/-! ### What is wrong with moves -/

theorem FigureKind.oneLine_name (kind : FigureKind) : OneLine kind.profile.name := by
  cases kind with
  | turn t => cases t <;> decide
  | footChange g => cases g <;> decide
  | jump j n =>
      change OneLine j.profile.name
      cases j <;> decide
  | twizzle n =>
      have htwo : OneLine (FigureKind.profile (.twizzle 2)).name := by decide
      exact htwo
  | changeOfEdge | loop => decide

theorem forall_mem_orElse {a b : Option Fault} (ha : ∀ f ∈ a, f.Single)
    (hb : ∀ f ∈ b, f.Single) : ∀ f ∈ (a <|> b), f.Single := by
  cases a with
  | none => exact hb
  | some f => exact ha

theorem forall_mem_findSome? {α : Type} {pick : α → Option Fault}
    (h : ∀ a, ∀ f ∈ pick a, f.Single) (as : List α) : ∀ f ∈ as.findSome? pick, f.Single := by
  intro f hf
  rcases List.exists_of_findSome?_eq_some hf with ⟨a, -, ha⟩
  exact h a f ha

theorem forall_mem_ite {P : Prop} [Decidable P] {a b : Option Fault} (ha : ∀ f ∈ a, f.Single)
    (hb : ∀ f ∈ b, f.Single) : ∀ f ∈ (if P then a else b), f.Single := by
  split
  · exact ha
  · exact hb

theorem forall_mem_some {f : Fault} (h : f.Single) : ∀ g ∈ some f, g.Single := by
  intro g hg
  rw [← Option.some.inj hg]
  exact h

theorem forall_mem_none : ∀ f ∈ (none : Option Fault), f.Single :=
  fun _ hf => absurd hf (Option.not_mem_none _)

theorem Part.single_of_mem_fault? (p : Part) : ∀ f ∈ p.fault?, f.Single := by
  cases p with
  | curve c =>
      exact forall_mem_ite (forall_mem_some trivial) (forall_mem_ite (forall_mem_some trivial)
        (forall_mem_ite (forall_mem_some trivial) forall_mem_none))
  | straight s =>
      exact forall_mem_ite (forall_mem_some trivial)
        (forall_mem_ite (forall_mem_some trivial) forall_mem_none)
  | hop j => exact forall_mem_ite (forall_mem_some trivial) forall_mem_none
  | _ => exact forall_mem_none

namespace Figure

theorem single_of_mem_numericFault? (values : List Param) (names : List String) :
    ∀ f ∈ numericFault? values names, f.Single := by
  refine forall_mem_findSome? (fun name => ?_) names
  split
  · split
    · exact forall_mem_none
    · exact forall_mem_some trivial
    · exact forall_mem_some trivial
  · exact forall_mem_none

theorem single_of_mem_fault? (g : Figure) : ∀ f ∈ g.fault?, f.Single := by
  have hparts : ∀ ps : List Part, ∀ f ∈ ps.findSome? Part.fault?, f.Single :=
    forall_mem_findSome? Part.single_of_mem_fault?
  have hnumbers := single_of_mem_numericFault? g.values
  have hkind : ∀ f ∈ g.kind.fault?, f.Single := by
    cases g.kind with
    | twizzle n => exact forall_mem_ite (forall_mem_some trivial) forall_mem_none
    | jump j n => exact forall_mem_ite forall_mem_none (forall_mem_some trivial)
    | _ => exact forall_mem_none
  have hlabel : ∀ f ∈ g.kind.labelFault?, f.Single := by
    cases g.kind with
    | twizzle n => exact forall_mem_ite forall_mem_none (forall_mem_some trivial)
    | _ => exact forall_mem_none
  have hpieces : ∀ f ∈ g.piecesFault?, f.Single :=
    forall_mem_orElse (hparts _) (forall_mem_orElse (hnumbers _) (hparts _))
  refine forall_mem_ite (forall_mem_some g.kind.oneLine_name) (forall_mem_orElse hkind
    (forall_mem_orElse ?_ ?_))
  · exact forall_mem_ite (forall_mem_some g.kind.oneLine_name) forall_mem_none
  · exact forall_mem_orElse (hnumbers _) (forall_mem_orElse hlabel
      (forall_mem_orElse (hnumbers _) hpieces))

end Figure

/-- What is wrong with a move shows nothing on several lines. -/
theorem Move.single_of_mem_fault? (m : Move) : ∀ f ∈ m.fault?, f.Single := by
  cases m with
  | part p => exact p.single_of_mem_fault?
  | figure g => exact g.single_of_mem_fault?
  | repeatEnd e => exact forall_mem_ite (forall_mem_some trivial) forall_mem_none
  | _ => exact forall_mem_none

/-! ### What is wrong with texts -/

/-- A reading that is refused for such faults only. -/
def Refuses {α : Type} (x : Except Fault α) : Prop :=
  ∀ f, x = .error f → f.Single

section Readings

variable {α β : Type}

theorem refuses_ok (a : α) : Refuses (.ok a : Except Fault α) :=
  fun _ h => by cases h

theorem refuses_error {f : Fault} (h : f.Single) : Refuses (.error f : Except Fault α) := by
  intro g hg
  rw [← Except.error.inj hg]
  exact h

theorem Refuses.bind {x : Except Fault α} {g : α → Except Fault β} (hx : Refuses x)
    (hg : ∀ a, x = .ok a → Refuses (g a)) : Refuses (x >>= g) := by
  cases x with
  | error f => exact refuses_error (hx f rfl)
  | ok a => exact hg a rfl

theorem Refuses.map {x : Except Fault α} (hx : Refuses x) (g : α → β) : Refuses (x.map g) := by
  cases x with
  | error f => exact refuses_error (hx f rfl)
  | ok a => exact refuses_ok _

theorem refuses_ite {P : Prop} [Decidable P] {x y : Except Fault α} (hx : Refuses x)
    (hy : Refuses y) : Refuses (if P then x else y) := by
  split
  · exact hx
  · exact hy

theorem refuses_foldlM {step : β → α → Except Fault β} {as : List α}
    (h : ∀ a ∈ as, ∀ b, Refuses (step b a)) (b : β) : Refuses (as.foldlM step b) := by
  induction as generalizing b with
  | nil => exact refuses_ok b
  | cons a as ih =>
      rw [List.forall_mem_cons] at h
      rw [List.foldlM_cons]
      exact (h.1 b).bind fun c _ => ih h.2 c

end Readings

theorem refuses_numberOfDigits (digits : List Char) : Refuses (numberOfDigits digits) := by
  rw [numberOfDigits]
  split
  · exact refuses_error trivial
  · exact refuses_ok _

theorem refuses_parse (text : String) : Refuses (Code.parse text) := by
  rw [Code.parse]
  split
  · exact refuses_ok _
  · exact refuses_error trivial

theorem refuses_optionalCode (text : String) : Refuses (optionalCode text) := by
  rw [optionalCode]
  split
  · exact refuses_ok _
  · exact (refuses_parse text).map _

theorem refuses_checked (m : Move) : Refuses m.checked := by
  have hfault := m.single_of_mem_fault?
  rw [Move.checked]
  split
  · rename_i f hf
    exact refuses_error (hfault f hf)
  · exact refuses_ite (refuses_error trivial) (refuses_ite (refuses_ok _) (refuses_error trivial))

/-! ### Parameters -/

theorem Value.refuses_read (cs : List Char) : Refuses (Value.read cs) := by
  have hnumber : ∀ sign digits, Refuses (Value.numberOf sign digits) := by
    intro sign digits
    rw [Value.numberOf]
    refine Refuses.bind ?_ fun size _ => refuses_ite (refuses_ok _) (refuses_error trivial)
    exact (refuses_numberOfDigits digits).bind fun _ _ => refuses_ok _
  rw [Value.read]
  split
  · exact refuses_ok _
  · split
    · exact refuses_ok _
    · split
      · exact (hnumber _ _).map _
      · exact refuses_error trivial

theorem refuses_readEntry (cs : List Char) : Refuses (readEntry cs) := by
  rw [readEntry]
  split
  · exact refuses_error trivial
  · split
    · exact refuses_error trivial
    · exact (Value.refuses_read _).bind fun _ _ => refuses_ok _

theorem refuses_readEntries (cs : List Char) : Refuses (readEntries cs) := by
  fun_induction readEntries cs with
  | case1 cs f h =>
      exact refuses_error (refuses_readEntry cs f h)
  | case2 => exact refuses_ok _
  | case3 => exact refuses_error trivial
  | case4 cs q rest he hc next hs hlt f hnext ih => exact refuses_error (ih f hnext)
  | case5 => exact refuses_ok _

theorem refuses_parseList (cs : List Char) : Refuses (parseList cs) := by
  have hread : Refuses (readList cs) := by
    unfold readList
    split
    · split
      · exact refuses_ok _
      · exact refuses_readEntries _
    · exact refuses_error trivial
  rw [parseList]
  split
  · rename_i f hf
    exact refuses_error (hread f hf)
  · split
    · exact refuses_ok _
    · exact refuses_error trivial

theorem refuses_shortLevels (region : List Char) : Refuses (shortLevels region) := by
  have hlevels : ∀ shown runs seen, Refuses (levelsOfRuns shown seen runs) := by
    intro shown runs
    induction runs with
    | nil => exact fun seen => refuses_ok seen
    | cons run rest ih =>
        intro seen
        rw [levelsOfRuns]
        split
        · exact ih seen
        · split
          · exact refuses_error trivial
          · split
            · exact refuses_error trivial
            · exact ih _
  rw [shortLevels]
  split
  · exact refuses_error trivial
  · exact hlevels _ _ _

namespace Schema

theorem refuses_setShort (schema : Schema) (ps : List Param) (code : ShortKind × Level) :
    Refuses (schema.setShort ps code) := by
  rw [setShort]
  split
  · exact refuses_ok _
  · exact refuses_error trivial

/-- A value that does not go into its field is shown as it was written. -/
theorem refuses_setListed (schema : Schema) (ps : List Param) {p : Param}
    (hp : p.value.TextIn (· ≠ '\n')) : Refuses (schema.setListed ps p) := by
  rw [setListed]
  split
  · exact refuses_error trivial
  · split
    · exact refuses_ok _
    · exact refuses_error hp

/-- Parameters on one line are refused for faults that show nothing on several lines. -/
theorem refuses_populate (schema : Schema) {cs : List Char} (hcs : ∀ c ∈ cs, c ≠ '\n') :
    Refuses (schema.populate cs) := by
  unfold populate
  refine (refuses_shortLevels _).bind fun levels _ => ?_
  refine (refuses_foldlM (fun code _ ps => schema.refuses_setShort ps code) _).bind fun ps _ => ?_
  refine refuses_ite (refuses_ok _) ((refuses_parseList _).bind fun listed hlisted => ?_)
  have htext := parseList_forall (Q := Value.TextIn (· ≠ '\n')) (fun cs' v rest hsub hv =>
    Value.textIn_of_read (fun c hc =>
      hcs c ((List.dropWhile_suffix _).subset (hsub.subset hc))) hv) hlisted
  exact refuses_foldlM (fun p hp ps => schema.refuses_setListed ps (htext p hp)) ps

end Schema

/-! ### Moves and steps -/

section Moves

variable {cs : List Char}

theorem refuses_readPart (schema : Schema) (build : List Param → Part)
    (hcs : ∀ c ∈ cs, c ≠ '\n') : Refuses (readPart schema build cs) :=
  (schema.refuses_populate hcs).bind fun _ _ => refuses_checked _

theorem refuses_readFigure (footwork : Footwork) (entry : Code) (kind : FigureKind)
    (hcs : ∀ c ∈ cs, c ≠ '\n') : Refuses (readFigure footwork entry kind cs) :=
  (Schema.refuses_populate _ hcs).bind fun _ _ => refuses_checked _

theorem refuses_readKeyword (schema : Schema) {build : List Param → Except Fault Move}
    (hbuild : ∀ ps, Refuses (build ps)) (hcs : ∀ c ∈ cs, c ≠ '\n') :
    Refuses (readKeyword schema build cs) :=
  (schema.refuses_populate hcs).bind fun ps _ => (hbuild ps).bind fun m _ => refuses_checked m

/-- What is behind the front of a line is on that line. -/
theorem forall_mem_of_append {front behind : List Char} (hcs : ∀ c ∈ cs, c ≠ '\n')
    (h : cs = front ++ behind) : ∀ c ∈ behind, c ≠ '\n' :=
  fun c hc => hcs c (h ▸ List.mem_append_right front hc)

theorem refuses_readFlatMove (footwork : Footwork) (code : Code) (hcs : ∀ c ∈ cs, c ≠ '\n') :
    Refuses (readFlatMove footwork code cs) := by
  unfold readFlatMove
  split
  · rename_i rest hrest
    have hfront := List.append_eq_of_isPrefixOf?_eq_some hrest
    exact refuses_readPart _ _ (forall_mem_of_append hcs hfront.symm)
  · exact refuses_readPart _ _ hcs

theorem refuses_of_readHalfTurns? {turns : Except Fault Nat} {rest : List Char}
    (h : readHalfTurns? cs = some (turns, rest)) : Refuses turns := by
  unfold readHalfTurns? at h
  split at h
  · cases h
  · split at h
    · simp only at h
      split at h <;>
        · rw [Option.some.injEq, Prod.mk.injEq] at h
          rw [← h.1]
          exact (refuses_numberOfDigits _).map _
    · cases h

theorem refuses_readEdgeMove (footwork : Footwork) (code : Code) (hcs : ∀ c ∈ cs, c ≠ '\n') :
    Refuses (readEdgeMove footwork code cs) := by
  unfold readEdgeMove
  -- Suffixes are tried in the order of the reader, and all of them are at the front.
  split
  · rename_i kind rest hfixed
    rcases suffixText_of_readFixedSuffix? hfixed none with ⟨suffix, -, hrest⟩
    exact refuses_readFigure _ _ _ (forall_mem_of_append hcs hrest)
  split
  · rename_i rest hmark
    have htail := forall_mem_of_append hcs (List.append_eq_of_isPrefixOf?_eq_some hmark).symm
    split
    · rename_i turns rest' hturns
      refine (refuses_of_readHalfTurns? hturns).bind fun n hn => ?_
      rcases suffixText_of_readHalfTurns? hturns hn with ⟨suffix, -, hrest⟩
      exact refuses_readFigure _ _ _ (forall_mem_of_append htail hrest)
    · exact refuses_error trivial
  split
  · rename_i kind rest hjump
    rcases suffixText_of_readJump? hjump none with ⟨suffix, -, hrest⟩
    exact refuses_readFigure _ _ _ (forall_mem_of_append hcs hrest)
  split
  · rename_i rest hloop
    have hfront := List.append_eq_of_isPrefixOf?_eq_some hloop
    exact refuses_readFigure _ _ _ (forall_mem_of_append hcs hfront.symm)
  · exact refuses_readPart _ _ hcs

theorem refuses_of_readSkated? {result : Except Fault Move} (hcs : ∀ c ∈ cs, c ≠ '\n')
    (h : readSkated? cs = some result) : Refuses result := by
  have hfront := forall_mem_of_append hcs (Footwork.mark_append_of_read cs)
  unfold readSkated? at h
  split at h
  rename_i footwork front hread
  rw [hread] at hfront
  split at h
  · split at h
    · cases h
    · rw [← Option.some.inj h]
      exact refuses_error trivial
  · rename_i code rest hcode
    have hrest := forall_mem_of_append hfront (letters_append_of_read? hcode)
    rw [← Option.some.inj h]
    exact refuses_ite (refuses_readFlatMove _ _ hrest) (refuses_readEdgeMove _ _ hrest)

theorem refuses_of_readKeywordMove? {result : Except Fault Move} (hcs : ∀ c ∈ cs, c ≠ '\n')
    (h : readKeywordMove? cs = some result) : Refuses result := by
  rcases List.exists_of_findSome?_eq_some h with ⟨⟨keyword, schema, build⟩, hentry, hread⟩
  rcases Option.map_eq_some_iff.1 hread with ⟨rest, hafter, hresult⟩
  have hbuild : ∀ ps, Refuses (build ps) := by
    simp only [directives, List.mem_cons, List.not_mem_nil, or_false, Prod.mk.injEq] at hentry
    rcases hentry with ⟨-, -, rfl⟩ | ⟨-, -, rfl⟩ | ⟨-, -, rfl⟩ | ⟨-, -, rfl⟩ | ⟨-, -, rfl⟩ |
      ⟨-, -, rfl⟩ | ⟨-, -, rfl⟩ | ⟨-, -, rfl⟩ | ⟨-, -, rfl⟩
    · exact fun ps => ((refuses_optionalCode _).map _).map _
    · exact fun ps => ((refuses_optionalCode _).map _).map _
    all_goals exact fun ps => refuses_ok _
  have hfront := List.append_eq_of_isPrefixOf?_eq_some hafter
  rw [← hresult]
  exact refuses_readKeyword _ hbuild (forall_mem_of_append hcs hfront.symm)

theorem refuses_of_readEndSign {mark : Except Fault RepeatEnd}
    (h : RepeatEnd.read? cs = some mark) : Refuses mark := by
  have hcount : ∀ {tail : List Char} {count : Except Fault Nat},
      RepeatEnd.readCount? tail = some count → Refuses count := by
    intro tail count hread
    unfold RepeatEnd.readCount? at hread
    split at hread
    · rw [← Option.some.inj hread]
      exact refuses_ok _
    · split at hread
      · split at hread
        · rw [← Option.some.inj hread]
          exact refuses_numberOfDigits _
        · cases hread
      · cases hread
  unfold RepeatEnd.read? at h
  split at h
  · rcases Option.map_eq_some_iff.1 h with ⟨count, hread, hmark⟩
    rw [← hmark]
    exact ((hcount hread).bind fun _ _ => refuses_ok _).map _
  · rcases Option.map_eq_some_iff.1 h with ⟨count, hread, hmark⟩
    rw [← hmark]
    exact ((hcount hread).bind fun _ _ => refuses_ok _).map _
  · cases h

theorem refuses_readDirective (hcs : ∀ c ∈ cs, c ≠ '\n') : Refuses (readDirective cs) := by
  unfold readDirective
  split
  · exact refuses_ok _
  · split
    · rename_i mark hmark
      exact (refuses_of_readEndSign hmark).bind fun e _ => refuses_checked _
    · cases hkeyword : readKeywordMove? cs with
      | none => exact refuses_error trivial
      | some result => exact refuses_of_readKeywordMove? hcs hkeyword

/-- A line is refused for faults that show nothing on several lines. -/
theorem Step.refuses_read (hcs : ∀ c ∈ cs, c ≠ '\n') : Refuses (Step.read cs) := by
  have hcount : Refuses (readCount cs) := by
    unfold readCount
    split
    · exact (refuses_numberOfDigits _).map _
    · exact refuses_ok _
  have hduration : ∀ tail, Refuses (readDuration tail) := by
    intro tail
    unfold readDuration
    split
    · split
      · exact (refuses_numberOfDigits _).map _
      · exact refuses_ok _
    · exact refuses_ok _
  unfold Step.read
  refine hcount.bind fun ⟨count, afterCount⟩ hread => ?_
  refine (hduration afterCount).bind fun ⟨duration, rest⟩ hread' => ?_
  rcases countText_of_readCount hread with ⟨counted, -, hafter⟩
  rcases durationText_of_readDuration hread' with ⟨timed, -, hrest⟩
  have htail := forall_mem_of_append (forall_mem_of_append hcs hafter) hrest
  simp only
  split
  · rename_i result hskated
    exact (refuses_of_readSkated? htail hskated).map _
  · exact refuses_ite (refuses_error trivial) ((refuses_readDirective htail).map _)

end Moves

/-- Whatever is wrong with a fragment of a text is told on one line. -/
theorem oneLine_of_ofFragment {text : String} {f : Fragment} {d : Diagnostic}
    (hf : f ∈ Fragment.ofText text) (h : Step.ofFragment f = .error d) :
    OneLine d.fault.message := by
  have hplain : ∀ c ∈ f.text.toList, c ≠ '\n' := by
    rintro c hc rfl
    exact absurd hc ((Fragment.isPlain_of_mem_ofText hf).1.not_mem (by decide))
  unfold Step.ofFragment at h
  split at h
  · rename_i fault hread
    rw [← Except.error.inj h]
    exact Fault.oneLine_message (Step.refuses_read hplain fault hread)
  · cases h

end IceFigures
