import IceFigures.Move.Reader
import IceFigures.Proofs.ParameterText

/-!
# Parameters in Range

Reading gives every parameter a value in its range. A listed value is checked
when it is assigned, but defaults and detents never are, so the schema has to
vouch for them (`Schema.WellFormed`). All schemas of the notation do.

A move keeps its parameters in fields of its own. Nothing is lost by that:
taking each field by its name and range from parameters in range gives the same
parameters again (`Schema.collect_eq_self`), and every kind of move that is
built from parameters has the collected ones.

## Main definitions

* `Field.Admits`: Parameters that a list may give to a field.
* `Field.Takes`, `Field.Holds`: Parameters in range, of any size or of at most some digits.
* `Schema.WellFormed`: Schemas whose defaults and detents are in range.
* `Schema.collect`: The parameters of a schema, taken by name and range.

## Theorems

* `Schema.admits_of_populate`: Populated parameters are in range.
* `Schema.value?_of_forall₂`: A field has the value that stands beside it.
* `Schema.collect_eq_self`: Parameters in range are collected unchanged.
* `Schema.populate_write_of_admits`: Parameters in range are read back.
* `wellFormed_profile`: The schemas of all moves are well-formed.
* `optionalCode_optionalCodeText`, `optionalCodeText_of_optionalCode`: A code
  that may be missing and its text determine each other.
-/

namespace IceFigures

/-- A parameter with a value that a list may give to the field. -/
def Field.Admits (f : Field) (p : Param) : Prop :=
  p.name = f.name ∧ f.Allows p.value

/-- A parameter with a value in the range of the field, however large it is. -/
def Field.Takes (f : Field) (p : Param) : Prop :=
  p.name = f.name ∧ f.range.accepts p.value = true

theorem Field.Admits.takes {f : Field} {p : Param} (h : f.Admits p) : f.Takes p :=
  ⟨h.1, h.2.1⟩

/-- The number of a value has at most some digits. -/
def Value.IsShort (digits : Nat) : Value → Prop
  | number n => Text.IsShort digits n
  | text _ => True
  | flag _ => True

/-- A parameter with a value in the range of the field that has at most some digits. -/
def Field.Holds (digits : Nat) (f : Field) (p : Param) : Prop :=
  p.name = f.name ∧ f.range.accepts p.value = true ∧ p.value.IsShort digits

theorem Field.Holds.takes {digits : Nat} {f : Field} {p : Param} (h : f.Holds digits p) :
    f.Takes p :=
  ⟨h.1, h.2.1⟩

/-- What a list gives to a field has ten digits at most. -/
theorem Field.Admits.holds {digits : Nat} (hdigits : 10 ≤ digits) {f : Field} {p : Param}
    (h : f.Admits p) : f.Holds digits p := by
  refine ⟨h.1, h.2.1, ?_⟩
  have hlistable := h.2.2
  cases hv : p.value with
  | number n =>
      rw [hv] at hlistable
      exact (Value.isShort_of_isListable hlistable).mono hdigits
  | _ => trivial

theorem Range.eq_text_of_accepts {r : Range} {s : String} (h : r.accepts (.text s) = true) :
    r = .text := by
  cases r <;> first | rfl | exact absurd h Bool.false_ne_true

namespace Schema

/-- Unambiguous schemas whose defaults and detents are in range. No default has
    any text in it. -/
structure WellFormed (schema : Schema) : Prop extends Unambiguous schema where
  allows_default : ∀ f ∈ schema, f.Allows f.default
  textIn_default : ∀ f ∈ schema, f.default.TextIn fun _ => False
  allows_detent : ∀ f ∈ schema, ∀ s ∈ f.short, ∀ l ∈ Level.all,
    f.Allows (.number (s.detents.value l))

instance (schema : Schema) : Decidable schema.WellFormed :=
  decidable_of_iff (schema.Unambiguous ∧ (∀ f ∈ schema, f.Allows f.default) ∧
      (∀ f ∈ schema, f.default.TextIn fun _ => False) ∧
      ∀ f ∈ schema, ∀ s ∈ f.short, ∀ l ∈ Level.all, f.Allows (.number (s.detents.value l)))
    ⟨fun h => ⟨h.1, h.2.1, h.2.2.1, h.2.2.2⟩,
      fun h => ⟨h.toUnambiguous, h.allows_default, h.textIn_default, h.allows_detent⟩⟩

/-- Populated parameters are in range. -/
theorem admits_of_populate {schema : Schema} (hs : schema.WellFormed) {cs : List Char}
    {ps : List Param} (h : populate schema cs = .ok ps) : List.Forall₂ Field.Admits schema ps := by
  refine populate_forall (R := Field.Allows) (Q := Value.IsListable) hs.names_nodup
    hs.allows_default ?_ (fun f _ v ha hv => ⟨ha, hv⟩)
    (fun cs' v rest _ hv => Value.isListable_of_read hv) h
  intro f hf s l hshort
  exact hs.allows_detent f hf s hshort l (by cases l <;> decide)

/-- The texts of populated parameters are taken from the text. -/
theorem textIn_of_populate {schema : Schema} (hs : schema.WellFormed) {P : Char → Prop}
    {cs : List Char} (hP : ∀ c ∈ cs, P c) {ps : List Param} (h : populate schema cs = .ok ps) :
    ∀ p ∈ ps, p.value.TextIn P := by
  have hall := populate_forall (R := fun _ v => v.TextIn P) (Q := Value.TextIn P) hs.names_nodup
    (fun f hf => (hs.textIn_default f hf).mono fun _ hc => hc.elim) (fun _ _ _ _ _ => trivial)
    (fun _ _ _ _ hv => hv)
    (fun cs' v rest hsub hv => Value.textIn_of_read (fun c hc => hP c (hsub.subset hc)) hv) h
  intro p hp
  rcases List.mem_iff_getElem.1 hp with ⟨i, hi, rfl⟩
  exact (hall.get (by rw [hall.length_eq]; exact hi) hi).2

/-- Parameters in range are read back. -/
theorem populate_write_of_admits {schema : Schema} (hs : schema.WellFormed) {ps : List Param}
    (h : List.Forall₂ Field.Admits schema ps) : populate schema (write schema ps) = .ok ps :=
  populate_write hs.toUnambiguous (h.imp fun _ _ hp => ⟨hp.1, fun _ => hp.2⟩)

/-! ### Fields taken by name -/

/-- The parameters of a schema, taken by name and range from a list. -/
def collect (schema : Schema) (ps : List Param) : List Param :=
  schema.map fun f =>
    { name := f.name
      value :=
        match f.range with
        | .text => .text (Param.text ps f.name)
        | .flag => .flag (Param.flag ps f.name)
        | _ => .number (Param.number ps f.name) }

/-- A name that occurs once has the value that stands beside it. -/
theorem value?_of_mem {ps : List Param} (hnames : (ps.map Param.name).Nodup) {p : Param}
    (hp : p ∈ ps) : Param.value? ps p.name = some p.value := by
  unfold Param.value?
  cases hfind : ps.reverse.find? (·.name = p.name) with
  | none =>
      have := List.find?_eq_none.1 hfind p (List.mem_reverse.2 hp)
      exact absurd (decide_eq_true rfl) this
  | some q =>
      have hq : q ∈ ps := List.mem_reverse.1 (List.mem_of_find?_eq_some hfind)
      have hname : q.name = p.name := by
        have := List.find?_some hfind
        rwa [decide_eq_true_eq] at this
      rw [List.inj_on_of_nodup_map hnames hq hp hname, Option.map_some]

/-- A field has the value that stands beside it. -/
theorem value?_of_forall₂ {schema : Schema} {values : List Param} (hnames : schema.names.Nodup)
    {R : Field → Value → Prop}
    (h : List.Forall₂ (fun f p => p.name = f.name ∧ R f p.value) schema values) {f : Field}
    (hf : f ∈ schema) : ∃ v, Param.value? values f.name = some v ∧ R f v := by
  rcases List.mem_iff_getElem.1 hf with ⟨i, hi, rfl⟩
  have hi' : i < values.length := h.length_eq ▸ hi
  have hp := h.get hi hi'
  have hnodup : (values.map Param.name).Nodup := by
    rwa [map_name_of_forall₂ (h.imp fun _ _ hp => hp.1)]
  have hvalue := value?_of_mem hnodup (List.getElem_mem hi')
  rw [List.get_eq_getElem, List.get_eq_getElem] at hp
  rw [hp.1] at hvalue
  exact ⟨_, hvalue, hp.2⟩

theorem fits_of_takes {schema : Schema} {values : List Param}
    (h : List.Forall₂ Field.Takes schema values) : schema.fits values = true :=
  fits_of_forall₂ (h.imp fun _ _ hp => hp.1)

/-- Parameters in range are collected unchanged. -/
theorem collect_eq_self {schema : Schema} (hnames : schema.names.Nodup) {ps : List Param}
    (h : List.Forall₂ Field.Admits schema ps) : collect schema ps = ps := by
  have hnodup : (ps.map Param.name).Nodup := by
    rwa [map_name_of_forall₂ (h.imp fun _ _ hp => hp.1)]
  -- The fields are walked through while the whole list stays what it is.
  have hpart : ∀ (post : Schema) (qs : List Param), List.Forall₂ Field.Admits post qs →
      qs ⊆ ps → collect post ps = qs := by
    intro post qs hpost
    induction hpost with
    | nil => intro _; rfl
    | @cons f p fs qs hp _ ih =>
        intro hsub
        have hvalue : Param.value? ps f.name = some p.value := by
          rw [← hp.1]
          exact value?_of_mem hnodup (hsub List.mem_cons_self)
        have hrest := ih fun q hq => hsub (List.mem_cons_of_mem p hq)
        rw [collect, List.map_cons, ← collect, hrest]
        rcases p with ⟨name, value⟩
        rcases f with ⟨fname, doc, default, range, short⟩
        rcases hp with ⟨rfl, haccepts, -⟩
        simp only [Param.text, Param.flag, Param.number] at hvalue ⊢
        rw [hvalue]
        cases range <;> cases value <;> first
          | rfl
          | exact absurd haccepts Bool.false_ne_true
  exact hpart schema ps h fun _ hq => hq

end Schema

/-! ### Schemas of moves -/

theorem Turn.profile_schema (t : Turn) : t.profile.schema = turnSchema := by
  cases t <;> rfl

theorem FootChange.profile_schema (f : FootChange) : f.profile.schema = footChangeSchema := by
  cases f <;> rfl

theorem Jump.profile_schema (j : Jump) : j.profile.schema = jumpSchema := by
  cases j <;> rfl

theorem wellFormed_figureKind (kind : FigureKind) : kind.profile.schema.WellFormed := by
  have hturn : turnSchema.WellFormed := by decide
  have hfootChange : footChangeSchema.WellFormed := by decide
  have hjump : jumpSchema.WellFormed := by decide
  cases kind with
  | turn t => cases t <;> exact hturn
  | footChange c => cases c <;> exact hfootChange
  | changeOfEdge => decide
  | loop => exact hturn
  | twizzle n =>
      change twizzleSchema.WellFormed
      decide
  | jump j n => cases j <;> exact hjump

theorem wellFormed_part (p : Part) : p.profile.schema.WellFormed := by
  cases p with
  | curve c =>
      change Curve.profile.schema.WellFormed
      decide
  | straight s =>
      change Straight.profile.schema.WellFormed
      decide
  | hop h =>
      change Hop.profile.schema.WellFormed
      decide
  | shift s =>
      change Shift.profile.schema.WellFormed
      decide
  | label l =>
      change Label.profile.schema.WellFormed
      decide

/-- The schemas of all moves are well-formed. -/
theorem wellFormed_profile (m : Move) : m.profile.schema.WellFormed := by
  cases m with
  | part p => exact wellFormed_part p
  | figure f => exact wellFormed_figureKind f.kind
  | warp w =>
      change Warp.profile.schema.WellFormed
      decide
  | rink r =>
      change Rink.profile.schema.WellFormed
      decide
  | info i =>
      change Info.profile.schema.WellFormed
      decide
  | title t =>
      change Title.profile.schema.WellFormed
      decide
  | text t =>
      change FixedText.profile.schema.WellFormed
      decide
  | repeatStart => decide
  | repeatEnd e =>
      change RepeatEnd.profile.schema.WellFormed
      decide

/-! ### Codes as texts -/

/-- A code that may be missing is read back from its text. -/
theorem optionalCode_optionalCodeText (code : Option Code) :
    optionalCode (optionalCodeText code) = .ok code := by
  cases code with
  | none => rfl
  | some c => rcases c with ⟨_ | _ | _, _ | _, _ | _ | _⟩ <;> decide

-- The letter of an edge stands alone, and no letter at all is the flat.
theorem readEdge_eq (cs : List Char) :
    cs = (Code.readEdge cs).1.letters ++ (Code.readEdge cs).2 := by
  cases cs with
  | nil => rfl
  | cons x xs =>
      cases hedge : Edge.ofLetter? x with
      | none =>
          simp only [Code.readEdge, hedge]
          rfl
      | some e =>
          simp only [Code.readEdge, hedge]
          unfold Edge.ofLetter? at hedge
          split at hedge <;> cases hedge <;> rfl

/-- A code that is read stands in front of what is left. -/
theorem letters_append_of_read? {cs rest : List Char} {c : Code}
    (h : Code.read? cs = some (c, rest)) : cs = c.letters ++ rest := by
  unfold Code.read? at h
  split at h
  · rename_i f t tail
    split at h
    · rename_i foot travel hfoot htravel
      rw [Option.some.injEq, Prod.mk.injEq] at h
      rcases h with ⟨rfl, rfl⟩
      have hf : f = foot.letter := by
        unfold Foot.ofLetter? at hfoot
        split at hfoot <;> cases hfoot <;> rfl
      have ht : t = travel.letter := by
        unfold Travel.ofLetter? at htravel
        split at htravel <;> cases htravel <;> rfl
      rw [Code.letters, hf, ht, List.cons_append, List.cons_append, ← readEdge_eq]
    · simp only [reduceCtorEq] at h
  · simp only [reduceCtorEq] at h

theorem letters_of_read? {cs : List Char} {c : Code} (h : Code.read? cs = some (c, [])) :
    cs = c.letters := by
  rw [letters_append_of_read? h, List.append_nil]

/-- The text that a code was read from is the text of the code. -/
theorem optionalCodeText_of_optionalCode {text : String} {code : Option Code}
    (h : optionalCode text = .ok code) : optionalCodeText code = text := by
  unfold optionalCode at h
  by_cases hempty : text = ""
  · rw [if_pos hempty, Except.ok.injEq] at h
    rw [hempty, ← h]
    rfl
  · rw [if_neg hempty] at h
    unfold Code.parse at h
    split at h
    · rename_i c hread
      simp only [Except.map, Except.ok.injEq] at h
      rw [← h, optionalCodeText, Option.map_some, Option.getD_some, Code.text,
        ← letters_of_read? hread, String.ofList_toList]
    · simp only [Except.map, reduceCtorEq] at h

end IceFigures
