import IceFigures.Proofs.ParameterList
import Mathlib.Data.List.Forall2
import Mathlib.Data.List.Nodup
import Mathlib.Data.List.SplitBy
import Mathlib.Data.List.TakeWhile

/-!
# Parameter Text Read Back

`Schema.populate` undoes `Schema.write`: the shortest text of parameters gives
them back, short codes, list and defaults together.

The text falls apart where the short codes end, since no sign is a bracket.
From the signs the levels are recovered because runs of different kinds share
no character, so that splitting the region at every change of character cuts
exactly between two fields (`shortRuns_flatMap_signs`). A kind of short code
selects the first field that takes it, and a name the first field that bears
it; in an `Unambiguous` schema there is only one.

Populating is then two passes over the schema. The first turns the defaults
into what the short codes say, the second into what is listed. Both are proved
with the schema cut in two, the fields before the cut being final already
(`foldlM_setShort`, `foldlM_setListed`).

A populated value is the default, a detent or a listed value, and each of these
is written in a form that is read again (`writable_of_populate`). This needs
no assumption on detents and defaults: one outside its own range is never
listed.

## Main definitions

* `Schema.shortKinds`: The kinds of short codes that a schema takes.
* `Schema.Unambiguous`: Schemas in which names and short codes select one field.
* `Field.Allows`: Values that a list may give to a field.
* `Field.Carries`: A default, or a value that a list may give to a field.
* `Field.Writes`: A parameter that is listed only if a list may give it.
* `Schema.codeOf`, `Schema.codesOf`: The short codes that parameters are
  written as.
* `Schema.halfway`: Parameters after their short codes have been read.

## Theorems

* `shortRuns_flatMap_signs`: Runs of different kinds are told apart.
* `shortLevels_flatMap_signs`: The levels of written runs are read back.
* `foldlM_setShort`: The pass over the short codes.
* `foldlM_setListed`: The pass over the list.
* `populate_write`: Written parameters are read back.
* `populate_forall`: What holds of all sources of values holds of the result.
* `writable_of_populate`: Populated parameters are written in a readable form.
* `render_populates`: The round trip from parameters and from texts.
-/

namespace IceFigures

open Text (Stops)

/-! ### Which schemas and parameters -/

namespace Field

/-- Values that a list may give to the field. -/
def Allows (f : Field) (v : Value) : Prop :=
  f.range.accepts v = true ∧ v.IsListable

instance (f : Field) (v : Value) : Decidable (f.Allows v) := by
  unfold Allows
  infer_instance

/-- A parameter at the default, or at a value that a list may give to the field. -/
def Carries (f : Field) (p : Param) : Prop :=
  p.name = f.name ∧ (p.value = f.default ∨ f.Allows p.value)

/-- A parameter that is listed by name only if a list may give it to the field. -/
def Writes (f : Field) (p : Param) : Prop :=
  p.name = f.name ∧ (Schema.isListed f p = true → f.Allows p.value)

end Field

namespace Schema

/-- The kinds of short codes that the fields of a schema take, in order. -/
def shortKinds (schema : Schema) : List ShortKind :=
  schema.filterMap fun f => f.short.map (·.kind)

/-- Schemas in which a name and a kind of short code select one field at most,
    and every field has a name that can be written. -/
structure Unambiguous (schema : Schema) : Prop where
  isName : ∀ f ∈ schema, isName f.name.toList = true
  names_nodup : schema.names.Nodup
  shortKinds_nodup : schema.shortKinds.Nodup

instance (schema : Schema) : Decidable schema.Unambiguous :=
  decidable_of_iff ((∀ f ∈ schema, isName f.name.toList = true) ∧ schema.names.Nodup ∧
      schema.shortKinds.Nodup)
    ⟨fun h => ⟨h.1, h.2.1, h.2.2⟩, fun h => ⟨h.isName, h.names_nodup, h.shortKinds_nodup⟩⟩

/-! ### Short codes -/

/-- The short code that a parameter is written as. -/
def codeOf (f : Field) (p : Param) : Option (ShortKind × Level) :=
  if p.value = f.default then none
  else
    match f.short, p.value with
    | some s, .number n => (s.detents.level? n).map fun l => (s.kind, l)
    | _, _ => none

/-- The short codes that parameters are written as, in the order of the schema. -/
def codesOf (schema : Schema) (ps : List Param) : List (ShortKind × Level) :=
  (schema.zip ps).filterMap fun (f, p) => codeOf f p

/-- The signs of a short code. -/
def signsOf (code : ShortKind × Level) : List Char :=
  ShortCode.signs code.1 code.2

theorem shortOf_eq (f : Field) (p : Param) : shortOf f p = ((codeOf f p).map signsOf).getD [] := by
  unfold shortOf codeOf
  by_cases hdefault : p.value = f.default
  · rw [if_pos hdefault, if_pos hdefault]
    rfl
  · rw [if_neg hdefault, if_neg hdefault]
    cases f.short with
    | none => rfl
    | some s =>
        cases p.value with
        | text t => rfl
        | flag b => rfl
        | number n =>
            change s.symbols n =
              (((s.detents.level? n).map fun l => (s.kind, l)).map signsOf).getD []
            unfold ShortCode.symbols
            cases s.detents.level? n <;> rfl

theorem writeShort_eq (schema : Schema) (ps : List Param) :
    writeShort schema ps = (codesOf schema ps).flatMap signsOf := by
  unfold writeShort codesOf
  induction schema.zip ps with
  | nil => rfl
  | cons fp rest ih =>
      rw [List.flatMap_cons, ih, List.filterMap_cons]
      simp only [shortOf_eq]
      cases codeOf fp.1 fp.2 <;> rfl

/-- The kind and the value of a written short code are those of the field. -/
theorem codeOf_eq_some {f : Field} {p : Param} {code : ShortKind × Level}
    (h : codeOf f p = some code) :
    ∃ s, f.short = some s ∧ s.kind = code.1 ∧ p.value = .number (s.detents.value code.2) := by
  unfold codeOf at h
  split at h
  · simp only [reduceCtorEq] at h
  · split at h
    · rename_i s n hs hn
      rcases Option.map_eq_some_iff.1 h with ⟨l, hl, rfl⟩
      exact ⟨s, hs, rfl, by rw [hn, Detents.level?_eq_some hl]⟩
    · simp only [reduceCtorEq] at h

theorem codesOf_kinds_sublist (schema : Schema) (ps : List Param) :
    ((codesOf schema ps).map Prod.fst).Sublist schema.shortKinds := by
  induction schema generalizing ps with
  | nil => exact List.Sublist.slnil
  | cons f fs ih =>
      cases ps with
      | nil => exact List.nil_sublist _
      | cons p ps =>
          unfold codesOf shortKinds
          rw [List.zip_cons_cons, List.filterMap_cons, List.filterMap_cons]
          simp only
          cases hc : codeOf f p with
          | none =>
              cases f.short with
              | none => exact ih ps
              | some s => exact (ih ps).cons _
          | some code =>
              rcases codeOf_eq_some hc with ⟨s, hs, hkind, -⟩
              rw [hs, Option.map_some, List.map_cons, ← hkind]
              exact (ih ps).cons_cons _

/-- The sign of a level's run. -/
def signOf (code : ShortKind × Level) : Char :=
  if code.2.isUp then code.1.up else code.1.down

theorem signsOf_eq (code : ShortKind × Level) :
    signsOf code = List.replicate code.2.length (signOf code) := rfl

theorem level_length_pos (l : Level) : 0 < l.length := by
  cases l <;> decide

theorem signsOf_ne_nil (code : ShortKind × Level) : signsOf code ≠ [] := by
  rw [signsOf_eq, ne_eq, List.replicate_eq_nil_iff]
  have := level_length_pos code.2
  omega

/-- A sign tells which kind of short code it belongs to. -/
theorem ofSign?_signOf (code : ShortKind × Level) :
    ShortKind.ofSign? (signOf code) = some code.1 := by
  rcases code with ⟨_ | _, _ | _ | _ | _ | _ | _⟩ <;> rfl

theorem isBlank_signOf (code : ShortKind × Level) : Text.isBlank (signOf code) = false := by
  rcases code with ⟨_ | _, _ | _ | _ | _ | _ | _⟩ <;> decide

theorem isShortChar_of_mem_signsOf {code : ShortKind × Level} {c : Char} (h : c ∈ signsOf code) :
    isShortChar c = true := by
  rw [signsOf_eq] at h
  rw [List.eq_of_mem_replicate h, isShortChar, ofSign?_signOf]
  rfl

theorem mem_signsOf_iff {code : ShortKind × Level} {c : Char} :
    c ∈ signsOf code ↔ c = signOf code := by
  rw [signsOf_eq, List.mem_replicate]
  have := level_length_pos code.2
  constructor
  · exact fun h => h.2
  · exact fun h => ⟨by omega, h⟩

/-- Runs of different kinds are told apart, since they share no sign. -/
theorem shortRuns_flatMap_signs {codes : List (ShortKind × Level)}
    (h : (codes.map Prod.fst).Nodup) :
    shortRuns (codes.flatMap signsOf) = codes.map signsOf := by
  have hsplit : (codes.flatMap signsOf).splitBy (· == ·) = codes.map signsOf := by
    rw [List.flatMap_def]
    -- No run is empty, each is of one sign, and neighbours have different signs.
    refine List.splitBy_flatten ?_ ?_ ?_
    · intro hmem
      rcases List.mem_map.1 hmem with ⟨code, -, hcode⟩
      exact signsOf_ne_nil code hcode
    · intro run hrun
      rcases List.mem_map.1 hrun with ⟨code, -, rfl⟩
      refine List.Pairwise.isChain (List.pairwise_of_forall_mem_list fun a ha b hb => ?_)
      rw [mem_signsOf_iff.1 ha, mem_signsOf_iff.1 hb]
      exact beq_self_eq_true _
    · rw [List.isChain_map]
      refine List.Pairwise.isChain ((List.pairwise_map.1 h).imp fun {a b} hab => ?_)
      refine ⟨signsOf_ne_nil a, signsOf_ne_nil b, ?_⟩
      rw [mem_signsOf_iff.1 (List.getLast_mem _), mem_signsOf_iff.1 (List.head_mem _),
        beq_eq_false_iff_ne]
      intro hsign
      -- Equal signs would belong to the same kind.
      have hkind := ofSign?_signOf a
      rw [hsign, ofSign?_signOf, Option.some.injEq] at hkind
      exact hab hkind.symm
  -- Runs of blanks would be left out, but there are none.
  unfold shortRuns
  rw [hsplit, List.filter_eq_self]
  intro run hrun
  rcases List.mem_map.1 hrun with ⟨code, -, rfl⟩
  rw [Bool.not_eq_true', List.all_eq_false]
  exact ⟨signOf code, mem_signsOf_iff.2 rfl, by rw [isBlank_signOf]; exact Bool.false_ne_true⟩

theorem levelsOfRuns_signs (region : String) (seen codes : List (ShortKind × Level))
    (h : ((seen ++ codes).map Prod.fst).Nodup) :
    levelsOfRuns region seen (codes.map signsOf) = .ok (seen ++ codes) := by
  induction codes generalizing seen with
  | nil => rw [List.map_nil, levelsOfRuns, List.append_nil]
  | cons code codes ih =>
      have hhead : (signsOf code).head? = some (signOf code) := by
        rw [List.head?_eq_some_head (signsOf_ne_nil code),
          mem_signsOf_iff.1 (List.head_mem (signsOf_ne_nil code))]
      have hnew : ¬(seen.any fun s => s.1 = code.1) = true := by
        intro hany
        rcases List.any_eq_true.1 hany with ⟨s, hs, hsk⟩
        rw [List.map_append, List.map_cons] at h
        refine List.disjoint_of_nodup_append h (List.mem_map_of_mem hs) ?_
        rw [of_decide_eq_true hsk]
        exact List.mem_cons_self
      have hlevel : Level.ofRun? ((signsOf code).head? == some code.1.up) (signsOf code).length =
          some code.2 := by
        rw [hhead, signsOf_eq, List.length_replicate]
        rcases code with ⟨_ | _, _ | _ | _ | _ | _ | _⟩ <;> rfl
      have hbind : (signsOf code).head?.bind ShortKind.ofSign? = some code.1 := by
        rw [hhead, Option.bind_some, ofSign?_signOf]
      rw [List.map_cons, levelsOfRuns, hbind]
      simp only [if_neg hnew, hlevel]
      rw [ih (seen ++ [code]) (by rwa [List.append_assoc, List.singleton_append]),
        List.append_assoc, List.singleton_append]

/-- There are only two kinds of short codes. -/
theorem length_le_two_of_nodup {kinds : List ShortKind} (h : kinds.Nodup) : kinds.length ≤ 2 := by
  match kinds, h with
  | [], _ => exact Nat.zero_le 2
  | [_], _ => exact Nat.le_succ 1
  | [_, _], _ => exact Nat.le_refl 2
  | a :: b :: c :: rest, h =>
      exfalso
      simp only [List.nodup_cons, List.mem_cons, not_or] at h
      cases a <;> cases b <;> cases c <;> simp only [not_true_eq_false, false_and, and_false] at h

/-- The levels of written runs are read back. -/
theorem shortLevels_flatMap_signs {codes : List (ShortKind × Level)}
    (h : (codes.map Prod.fst).Nodup) : shortLevels (codes.flatMap signsOf) = .ok codes := by
  have hlength : codes.length ≤ 2 := by
    have := length_le_two_of_nodup h
    rwa [List.length_map] at this
  unfold shortLevels
  rw [shortRuns_flatMap_signs h, if_neg (by rw [List.length_map]; omega),
    levelsOfRuns_signs _ [] codes h, List.nil_append]

/-! ### The two passes over a schema -/

/-- Parameters after their short codes have been read: those that have none are
    still at their defaults. -/
def halfway (schema : Schema) (ps : List Param) : List Param :=
  (schema.zip ps).map fun (f, p) =>
    if (codeOf f p).isSome then p else { name := f.name, value := f.default }

theorem isListed_iff (f : Field) (p : Param) :
    isListed f p = true ↔ p.value ≠ f.default ∧ codeOf f p = none := by
  unfold isListed
  rw [Bool.and_eq_true, bne_iff_ne, List.isEmpty_iff, shortOf_eq]
  cases h : codeOf f p with
  | none => simp only [Option.map_none, Option.getD_none, and_true]
  | some code =>
      simp only [Option.map_some, Option.getD_some, signsOf_ne_nil, and_false, reduceCtorEq]

/-- Fields that are not picked are passed over. -/
theorem assign_append {pick : Field → Option Value} {pre : Schema} {xs : List Param}
    (hlength : pre.length = xs.length) (hpre : ∀ f ∈ pre, pick f = none) (post : Schema)
    (ys : List Param) :
    assign pick (pre ++ post) (xs ++ ys) = (assign pick post ys).map (xs ++ ·) := by
  induction pre generalizing xs with
  | nil =>
      rw [List.length_nil] at hlength
      rw [List.length_eq_zero_iff.1 hlength.symm]
      simp only [List.nil_append, Option.map_id']
  | cons f fs ih =>
      cases xs with
      | nil => exact absurd hlength (Nat.succ_ne_zero _)
      | cons x xs =>
          rw [List.length_cons, List.length_cons, Nat.add_right_cancel_iff] at hlength
          rw [List.cons_append, List.cons_append, assign, hpre f List.mem_cons_self]
          simp only
          rw [ih hlength fun g hg => hpre g (List.mem_cons_of_mem f hg), Option.map_map]
          rfl

theorem assign_cons {pick : Field → Option Value} {f : Field} {v : Value} (h : pick f = some v)
    (fs : Schema) (p : Param) (ps : List Param) :
    assign pick (f :: fs) (p :: ps) = some ({ name := f.name, value := v } :: ps) := by
  rw [assign, h]

/-- The fields before the cut keep their values, and the first one behind it
    takes the value picked for it. -/
theorem assign_append_cons {pick : Field → Option Value} {pre : Schema} {xs : List Param}
    (hlength : pre.length = xs.length) (hpre : ∀ f ∈ pre, pick f = none) {f : Field} {p : Param}
    (hname : p.name = f.name) (hpick : pick f = some p.value) (post : Schema) (q : Param)
    (ys : List Param) :
    assign pick (pre ++ f :: post) (xs ++ q :: ys) = some (xs ++ p :: ys) := by
  rw [assign_append hlength hpre, assign_cons hpick, Option.map_some, ← hname]

theorem shortKinds_append (pre post : Schema) :
    shortKinds (pre ++ post) = shortKinds pre ++ shortKinds post :=
  List.filterMap_append

theorem setShort_append {pre post : Schema} {xs : List Param} (hlength : pre.length = xs.length)
    {f : Field} (hkinds : (shortKinds (pre ++ f :: post)).Nodup) {p : Param}
    (hname : p.name = f.name) {code : ShortKind × Level} (hcode : codeOf f p = some code)
    (q : Param) (ys : List Param) :
    setShort (pre ++ f :: post) (xs ++ q :: ys) code = .ok (xs ++ p :: ys) := by
  rcases codeOf_eq_some hcode with ⟨s, hs, hkind, hvalue⟩
  -- No field before the cut takes short codes of this kind.
  have hpre : ∀ g ∈ pre, detent? code.1 code.2 g = none := by
    intro g hg
    unfold detent?
    cases ht : g.short with
    | none => rfl
    | some t =>
        have hne : t.kind ≠ code.1 := by
          intro hsame
          rw [shortKinds_append] at hkinds
          refine List.disjoint_of_nodup_append hkinds
            (List.mem_filterMap.2 ⟨g, hg, by rw [ht, Option.map_some]⟩) ?_
          rw [hsame, ← hkind]
          exact List.mem_filterMap.2 ⟨f, List.mem_cons_self, by rw [hs, Option.map_some]⟩
        rw [Option.bind_some, if_neg hne]
  have hpick : detent? code.1 code.2 f = some p.value := by
    rw [detent?, hs, Option.bind_some, if_pos hkind, hvalue]
  rw [setShort, assign_append_cons hlength hpre hname hpick]

-- By induction on the fields behind the cut: those before it have their codes,
-- those behind it still have their defaults.
theorem foldlM_setShort_append (pre : Schema) {post : Schema} (xs : List Param) {ps : List Param}
    (hlength : pre.length = xs.length) (hkinds : (shortKinds (pre ++ post)).Nodup)
    (h : List.Forall₂ Field.Writes post ps) :
    (codesOf post ps).foldlM (setShort (pre ++ post)) (xs ++ defaults post) =
      .ok (xs ++ halfway post ps) := by
  induction h generalizing pre xs with
  | nil => rfl
  | @cons f p fs ps hw _ ih =>
      have hcut : pre ++ f :: fs = (pre ++ [f]) ++ fs := by
        rw [List.append_assoc, List.singleton_append]
      have hdefaults : defaults (f :: fs) = { name := f.name, value := f.default } :: defaults fs :=
        rfl
      rw [codesOf, List.zip_cons_cons, List.filterMap_cons, ← codesOf, halfway,
        List.zip_cons_cons, List.map_cons, ← halfway, hdefaults]
      simp only
      cases hc : codeOf f p with
      | none =>
          have := ih (pre ++ [f]) (xs ++ [{ name := f.name, value := f.default }])
            (by rw [List.length_append, List.length_append, hlength]; rfl) (by rwa [← hcut])
          simp only [List.append_assoc, List.singleton_append] at this
          exact this
      | some code =>
          have := ih (pre ++ [f]) (xs ++ [p])
            (by rw [List.length_append, List.length_append, hlength]; rfl) (by rwa [← hcut])
          simp only [List.append_assoc, List.singleton_append] at this
          rw [List.foldlM_cons, setShort_append hlength hkinds hw.1 hc]
          exact this

/-- The pass over the short codes. -/
theorem foldlM_setShort {schema : Schema} {ps : List Param} (hkinds : schema.shortKinds.Nodup)
    (h : List.Forall₂ Field.Writes schema ps) :
    (codesOf schema ps).foldlM schema.setShort schema.defaults = .ok (schema.halfway ps) :=
  foldlM_setShort_append [] [] rfl hkinds h

theorem setListed_append {pre post : Schema} {xs : List Param} (hlength : pre.length = xs.length)
    {f : Field} (hnames : (names (pre ++ f :: post)).Nodup) {p : Param} (hname : p.name = f.name)
    (haccepts : f.range.accepts p.value = true) (q : Param) (ys : List Param) :
    setListed (pre ++ f :: post) (xs ++ q :: ys) p = .ok (xs ++ p :: ys) := by
  have hpre : ∀ g ∈ pre, ¬g.name = p.name := by
    intro g hg hsame
    rw [names, List.map_append] at hnames
    refine List.disjoint_of_nodup_append hnames (List.mem_map_of_mem hg) ?_
    rw [hsame, hname]
    exact List.mem_map_of_mem List.mem_cons_self
  have hfind : (pre ++ f :: post).find? (·.name = p.name) = some f := by
    have hnone : pre.find? (·.name = p.name) = none := by
      refine List.find?_eq_none.2 fun g hg => ?_
      rw [decide_eq_true_eq]
      exact hpre g hg
    rw [List.find?_append, hnone, Option.none_or, List.find?_cons_of_pos]
    rw [decide_eq_true_eq, hname]
  unfold setListed
  rw [hfind]
  simp only [haccepts, if_true]
  rw [assign_append_cons hlength (fun g hg => if_neg (hpre g hg)) hname (if_pos hname.symm),
    Option.getD_some]

-- By induction on the fields behind the cut again: those before it have all
-- their values, those behind it what defaults and short codes give.
theorem foldlM_setListed_append (pre : Schema) {post : Schema} (xs : List Param) {ps : List Param}
    (hlength : pre.length = xs.length) (hnames : (names (pre ++ post)).Nodup)
    (h : List.Forall₂ Field.Writes post ps) :
    (listed post ps).foldlM (setListed (pre ++ post)) (xs ++ halfway post ps) = .ok (xs ++ ps) := by
  induction h generalizing pre xs with
  | nil => rfl
  | @cons f p fs ps hw _ ih =>
      have hcut : pre ++ f :: fs = (pre ++ [f]) ++ fs := by
        rw [List.append_assoc, List.singleton_append]
      have hrest := ih (pre ++ [f]) (xs ++ [p])
        (by rw [List.length_append, List.length_append, hlength]; rfl) (by rwa [← hcut])
      simp only [List.append_assoc, List.singleton_append] at hrest
      rw [listed, halfway, List.zip_cons_cons, List.filter_cons, List.map_cons, ← halfway]
      simp only
      by_cases hlisted : isListed f p = true
      · rw [if_pos hlisted, List.map_cons, ← listed, List.foldlM_cons,
          setListed_append hlength hnames hw.1 (hw.2 hlisted).1]
        exact hrest
      · -- The value is the default or was set by its short code.
        rw [if_neg hlisted, ← listed]
        rw [isListed_iff] at hlisted
        cases hc : codeOf f p with
        | some code => exact hrest
        | none =>
            have hdefault : p.value = f.default := by
              by_contra hne
              exact hlisted ⟨hne, hc⟩
            rw [Option.isSome_none, if_neg Bool.false_ne_true, ← hdefault, ← hw.1]
            exact hrest

/-- The pass over the list. -/
theorem foldlM_setListed {schema : Schema} {ps : List Param} (hnames : schema.names.Nodup)
    (h : List.Forall₂ Field.Writes schema ps) :
    (listed schema ps).foldlM schema.setListed (schema.halfway ps) = .ok ps :=
  foldlM_setListed_append [] [] rfl hnames h

/-! ### Reading what was written -/

theorem stops_writeList (ps : List Param) : Stops isShortChar (writeList ps) :=
  Text.stops_cons.2 (by decide)

theorem isShortChar_of_mem_writeShort {schema : Schema} {ps : List Param} {c : Char}
    (h : c ∈ writeShort schema ps) : isShortChar c = true := by
  rw [writeShort_eq, List.mem_flatMap] at h
  rcases h with ⟨code, -, hc⟩
  exact isShortChar_of_mem_signsOf hc

theorem mem_listed {schema : Schema} {ps : List Param} {p : Param} (h : p ∈ listed schema ps) :
    ∃ f, (f, p) ∈ schema.zip ps ∧ isListed f p = true := by
  rcases List.mem_map.1 h with ⟨⟨f, q⟩, hmem, rfl⟩
  rw [List.mem_filter] at hmem
  exact ⟨f, hmem.1, hmem.2⟩

theorem forall_listed {schema : Schema} (hs : schema.Unambiguous) {ps : List Param}
    (h : List.Forall₂ Field.Writes schema ps) :
    ∀ p ∈ listed schema ps, isName p.name.toList = true ∧ p.value.IsListable := by
  intro p hp
  rcases mem_listed hp with ⟨f, hzip, hlisted⟩
  have hw := (List.forall₂_iff_zip.1 h).2 hzip
  refine ⟨?_, (hw.2 hlisted).2⟩
  rw [hw.1]
  exact hs.isName f (List.of_mem_zip hzip).1

/-- Written parameters are read back. -/
theorem populate_write {schema : Schema} (hs : schema.Unambiguous) {ps : List Param}
    (h : List.Forall₂ Field.Writes schema ps) : populate schema (write schema ps) = .ok ps := by
  have hregion : ∀ c ∈ writeShort schema ps, isShortChar c = true :=
    fun c hc => isShortChar_of_mem_writeShort hc
  have hlevels : shortLevels (writeShort schema ps) = .ok (codesOf schema ps) := by
    rw [writeShort_eq]
    exact shortLevels_flatMap_signs (hs.shortKinds_nodup.sublist (codesOf_kinds_sublist schema ps))
  have hlisted := foldlM_setListed hs.names_nodup h
  unfold write populate
  by_cases hempty : listed schema ps = []
  · rw [hempty, List.foldlM_nil] at hlisted
    simp only [hempty, List.isEmpty_nil, if_true]
    rw [List.takeWhile_eq_self_iff.2 hregion, List.dropWhile_eq_nil_iff.2 hregion, hlevels]
    simp only [bind, Except.bind, foldlM_setShort hs.shortKinds_nodup h, List.isEmpty_nil, if_true]
    exact hlisted
  · simp only [List.isEmpty_iff, if_neg hempty]
    rw [Text.takeWhile_append_of_stops hregion (stops_writeList _),
      Text.dropWhile_append_of_stops hregion (stops_writeList _), hlevels]
    simp only [bind, Except.bind, foldlM_setShort hs.shortKinds_nodup h,
      parseList_writeList hempty (forall_listed hs h)]
    exact hlisted

theorem map_name_of_forall₂ {schema : Schema} {ps : List Param}
    (h : List.Forall₂ (fun f p => p.name = f.name) schema ps) :
    ps.map Param.name = schema.names := by
  rw [names]
  induction h with
  | nil => rfl
  | cons hname _ ih => rw [List.map_cons, List.map_cons, hname, ih]

theorem fits_of_forall₂ {schema : Schema} {ps : List Param}
    (h : List.Forall₂ (fun f p => p.name = f.name) schema ps) : schema.fits ps = true :=
  beq_iff_eq.2 (map_name_of_forall₂ h).symm

/-! ### What is read -/

theorem assign_forall₂ {R : Field → Value → Prop} {pick : Field → Option Value} {schema : Schema}
    (hpick : ∀ f ∈ schema, ∀ v, pick f = some v → R f v) {ps ps' : List Param}
    (h : List.Forall₂ (fun f p => p.name = f.name ∧ R f p.value) schema ps)
    (ha : assign pick schema ps = some ps') :
    List.Forall₂ (fun f p => p.name = f.name ∧ R f p.value) schema ps' := by
  induction h generalizing ps' with
  | nil => simp only [assign, reduceCtorEq] at ha
  | @cons f p fs ps hp hrest ih =>
      rw [assign] at ha
      split at ha
      · rename_i v hv
        rw [Option.some.injEq] at ha
        rw [← ha]
        exact List.Forall₂.cons ⟨rfl, hpick f List.mem_cons_self v hv⟩ hrest
      · rcases Option.map_eq_some_iff.1 ha with ⟨qs, hqs, rfl⟩
        exact List.Forall₂.cons hp
          (ih (fun g hg => hpick g (List.mem_cons_of_mem f hg)) hqs)

/-- What every step of a fold that may fail preserves holds of its result. -/
theorem foldlM_invariant {α β : Type} {I : β → Prop} {step : β → α → Except Fault β}
    {as : List α} (hstep : ∀ a ∈ as, ∀ b b', I b → step b a = .ok b' → I b') {b b' : β}
    (hb : I b) (h : as.foldlM step b = .ok b') : I b' := by
  induction as generalizing b with
  | nil =>
      rw [List.foldlM_nil, pure, Except.instMonad] at h
      cases h
      exact hb
  | cons a as ih =>
      rw [List.foldlM_cons] at h
      rcases bind_eq_ok.1 h with ⟨c, hc, h⟩
      exact ih (fun x hx => hstep x (List.mem_cons_of_mem a hx))
        (hstep a List.mem_cons_self b c hb hc) h

/-- A short code gives a detent of its field. -/
theorem setShort_forall₂ {R : Field → Value → Prop} {schema : Schema}
    (hdetent : ∀ f ∈ schema, ∀ s l, f.short = some s → R f (.number (s.detents.value l)))
    {ps ps' : List Param} {code : ShortKind × Level}
    (h : List.Forall₂ (fun f p => p.name = f.name ∧ R f p.value) schema ps)
    (hset : schema.setShort ps code = .ok ps') :
    List.Forall₂ (fun f p => p.name = f.name ∧ R f p.value) schema ps' := by
  unfold setShort at hset
  split at hset
  · rename_i qs ha
    rw [Except.ok.injEq] at hset
    subst hset
    refine assign_forall₂ (fun f hf v hv => ?_) h ha
    rcases Option.bind_eq_some_iff.1 hv with ⟨s, hs, hif⟩
    split at hif
    · rw [Option.some.injEq] at hif
      rw [← hif]
      exact hdetent f hf s code.2 hs
    · simp only [reduceCtorEq] at hif
  · simp only [reduceCtorEq] at hset

/-- An entry of a list gives a value that its field accepts. -/
theorem setListed_forall₂ {R : Field → Value → Prop} {schema : Schema}
    (hnames : schema.names.Nodup) {ps ps' : List Param} {p : Param}
    (hlisted : ∀ f ∈ schema, f.range.accepts p.value = true → R f p.value)
    (h : List.Forall₂ (fun f p => p.name = f.name ∧ R f p.value) schema ps)
    (hset : schema.setListed ps p = .ok ps') :
    List.Forall₂ (fun f p => p.name = f.name ∧ R f p.value) schema ps' := by
  unfold setListed at hset
  split at hset
  · simp only [reduceCtorEq] at hset
  rename_i f hfind
  split at hset
  · rename_i haccepts
    rw [Except.ok.injEq] at hset
    have hf : f ∈ schema := List.mem_of_find?_eq_some hfind
    have hfname : f.name = p.name := by
      have := List.find?_some hfind
      rwa [decide_eq_true_eq] at this
    cases ha : assign (fun g => if g.name = p.name then some p.value else none) schema ps with
    | none =>
        rw [ha, Option.getD_none] at hset
        exact hset ▸ h
    | some qs =>
        rw [ha, Option.getD_some] at hset
        subst hset
        refine assign_forall₂ (fun g hg v hv => ?_) h ha
        split at hv
        · rename_i hgname
          -- Only `f` bears the name.
          have hfg : g = f := List.inj_on_of_nodup_map hnames hg hf (hgname.trans hfname.symm)
          rw [Option.some.injEq] at hv
          rw [hfg, ← hv]
          exact hlisted f hf haccepts
        · simp only [reduceCtorEq] at hv
  · simp only [reduceCtorEq] at hset

/-- What holds of defaults, of detents and of values that a list may give holds
    of every value that a text gives to a schema. -/
theorem populate_forall {schema : Schema} (hnames : schema.names.Nodup)
    {R : Field → Value → Prop} {Q : Value → Prop} {cs : List Char}
    (hdefault : ∀ f ∈ schema, R f f.default)
    (hdetent : ∀ f ∈ schema, ∀ s l, f.short = some s → R f (.number (s.detents.value l)))
    (hlisted : ∀ f ∈ schema, ∀ v, f.range.accepts v = true → Q v → R f v)
    (hQ : ∀ cs' v rest, cs' <:+ cs → Value.read cs' = .ok (v, rest) → Q v)
    {ps : List Param} (h : populate schema cs = .ok ps) :
    List.Forall₂ (fun f p => p.name = f.name ∧ R f p.value) schema ps := by
  have hstart : List.Forall₂ (fun f p => p.name = f.name ∧ R f p.value) schema schema.defaults := by
    rw [defaults, List.forall₂_map_right_iff, List.forall₂_same]
    exact fun f hf => ⟨rfl, hdefault f hf⟩
  unfold populate at h
  rcases bind_eq_ok.1 h with ⟨levels, -, h⟩
  rcases bind_eq_ok.1 h with ⟨qs, hshort, h⟩
  have hqs : List.Forall₂ (fun f p => p.name = f.name ∧ R f p.value) schema qs :=
    foldlM_invariant (fun _ _ _ _ hb hset => setShort_forall₂ hdetent hb hset) hstart hshort
  simp only [pure, Except.pure] at h
  split at h
  · rw [Except.ok.injEq] at h
    exact h ▸ hqs
  · rcases bind_eq_ok.1 h with ⟨entries, hentries, h⟩
    have hQs := parseList_forall (fun cs' v rest hsub hv =>
      hQ cs' v rest (hsub.trans (List.dropWhile_suffix _)) hv) hentries
    refine foldlM_invariant (fun p hp _ _ hb hset => ?_) hqs h
    exact setListed_forall₂ hnames (fun f hf ha => hlisted f hf p.value ha (hQs p hp)) hb hset

/-- Populated parameters are written in a form that can be read. -/
theorem writable_of_populate {schema : Schema} (hnames : schema.names.Nodup) {cs : List Char}
    {ps : List Param} (h : populate schema cs = .ok ps) : List.Forall₂ Field.Writes schema ps := by
  have hsource := populate_forall (R := fun f v => v = f.default ∨
      (∃ s l, f.short = some s ∧ v = .number (s.detents.value l)) ∨
      f.Allows v) (Q := Value.IsListable) hnames
    (fun f _ => Or.inl rfl) (fun f _ s l hs => Or.inr (Or.inl ⟨s, l, hs, rfl⟩))
    (fun f _ v ha hv => Or.inr (Or.inr ⟨ha, hv⟩))
    (fun cs' v rest _ hv => Value.isListable_of_read hv) h
  refine hsource.imp fun f p hp => ⟨hp.1, fun hlisted => ?_⟩
  rw [isListed_iff] at hlisted
  rcases hp.2 with hdefault | ⟨s, l, hs, hvalue⟩ | hgiven
  · exact absurd hdefault hlisted.1
  · -- A detent has a level, so it is not listed.
    have hlevel : s.detents.level? (s.detents.value l) ≠ none := by
      intro hnone
      refine List.find?_eq_none.1 hnone l ?_ (beq_self_eq_true _)
      cases l <;> decide
    have hcode := hlisted.2
    rw [codeOf, if_neg hlisted.1, hs, hvalue] at hcode
    exact absurd (Option.map_eq_none_iff.1 hcode) hlevel
  · exact hgiven

theorem writes_of_carries {f : Field} {p : Param} (h : f.Carries p) : f.Writes p := by
  refine ⟨h.1, fun hlisted => ?_⟩
  rw [isListed_iff] at hlisted
  rcases h.2 with hdefault | hgiven
  · exact absurd hdefault hlisted.1
  · exact hgiven

theorem render_eq_ok {schema : Schema} {ps : List Param}
    (h : List.Forall₂ Field.Writes schema ps) :
    render schema ps = .ok (String.ofList (write schema ps)) := by
  rw [render, if_pos (fits_of_forall₂ (h.imp fun _ _ hw => hw.1))]

/-- Parameters at their defaults or at values that a list may give have a text
    that is read back as them, and so have the parameters that any text gives. -/
theorem render_populates {schema : Schema} (hs : schema.Unambiguous) :
    (∀ ps, List.Forall₂ Field.Carries schema ps →
      ∃ s, render schema ps = .ok s ∧ populate schema s.toList = .ok ps) ∧
    (∀ cs ps, populate schema cs = .ok ps →
      ∃ s, render schema ps = .ok s ∧ populate schema s.toList = .ok ps) := by
  have hread : ∀ ps, List.Forall₂ Field.Writes schema ps →
      ∃ s, render schema ps = .ok s ∧ populate schema s.toList = .ok ps := by
    intro ps hw
    refine ⟨_, render_eq_ok hw, ?_⟩
    rw [String.toList_ofList]
    exact populate_write hs hw
  constructor
  · intro ps hc
    exact hread ps (hc.imp fun f p => writes_of_carries)
  · intro cs ps h
    exact hread ps (writable_of_populate hs.names_nodup h)

/-- A length whose detents repeat and include its default, and a text. -/
def lengthAndText : Schema :=
  [Field.number "len" "" 100 .positive (plusMinus 125 150 100 75 75 25), Field.text "text" ""]

theorem render_populates_lengthAndText :
    lengthAndText.Unambiguous ∧
      List.Forall₂ Field.Carries lengthAndText
        [⟨"len", .number 25⟩, ⟨"text", .text "[\"\\,\n]"⟩] ∧
      ∃ s, render lengthAndText [⟨"len", .number 25⟩, ⟨"text", .text "[\"\\,\n]"⟩] = .ok s ∧
        populate lengthAndText s.toList =
          .ok [⟨"len", .number 25⟩, ⟨"text", .text "[\"\\,\n]"⟩] := by
  have hs : lengthAndText.Unambiguous := by decide
  have hcarries : List.Forall₂ Field.Carries lengthAndText
      [⟨"len", .number 25⟩, ⟨"text", .text "[\"\\,\n]"⟩] :=
    .cons ⟨rfl, Or.inr ⟨rfl, by decide⟩⟩ (.cons ⟨rfl, Or.inr ⟨rfl, trivial⟩⟩ .nil)
  exact ⟨hs, hcarries, (render_populates hs).1 _ hcarries⟩

end Schema

end IceFigures
