import IceFigures.Proofs.ParameterText
import Mathlib.Data.Set.List

/-!
# What Parameter Text Means

A text of parameters is read as the runs of signs of its region, from left to
right, and the entries of its list. `Schema.populate` accepts what it has read
under conditions that are checked run by run and entry by entry
(`Schema.Accepts`), and gives every field a value that does not depend on the
other fields (`Schema.Means`).

Populating goes over runs and entries one after the other and changes one field
at a time. A short code does what an entry for the first field of its kind would
do (`Schema.entryOf?`). So both passes append to one list of entries, from which
every field takes the last value given for its name (`Schema.taking`), and the
entries of the list come last. Short codes of different kinds are entries for
different fields, so their order does not matter.

## Main definitions

* `Run`: A block of one repeated sign.
* `HasRuns`: The runs of a region.
* `ReadsAs`: The runs and the entries of a text.
* `Field.takes`: Whether a field takes short codes of a kind.
* `Schema.entryOf?`: The entry that a short code stands for.
* `Schema.Accepts`: Runs and entries that a schema has fields for.
* `Schema.Means`: The value that runs and entries give to a field.
* `Schema.taking`: The parameters of a schema after some entries.
* `Schema.SameByName`: Entries that differ in order only, and not for one name.

## Theorems

* `exists_hasRuns`, `HasRuns.unique`: Every region has its runs.
* `shortLevels_eq_ok_iff`: Which runs have levels.
* `Schema.foldlM_setShort_eq_ok_iff`: Short codes are entries in front.
* `Schema.foldlM_setListed_eq_ok_iff`: Entries add up.
* `Schema.means_iff`: The last of the entries is the value of a field.
* `Schema.populate_eq_ok_iff`: What a text of runs and entries gives.
* `Schema.populate_means`: What any text gives.
-/

namespace IceFigures

/-! ### Runs of signs -/

/-- A block of one repeated sign: its kind, whether the sign is the one that
    raises the value, and how often it is repeated. -/
structure Run where
  kind : ShortKind
  up : Bool
  length : Nat

theorem Level.length_le (l : Level) : l.length ≤ 3 := by
  cases l <;> decide

namespace Run

/-- The sign that is repeated. -/
def sign (r : Run) : Char :=
  if r.up then r.kind.up else r.kind.down

/-- A run as it is written. -/
def chars (r : Run) : List Char :=
  List.replicate r.length r.sign

/-- The run of a short code. -/
def ofCode (code : ShortKind × Level) : Run :=
  { kind := code.1, up := code.2.isUp, length := code.2.length }

theorem chars_ofCode (code : ShortKind × Level) : (ofCode code).chars = Schema.signsOf code := rfl

theorem ofSign?_sign (r : Run) : ShortKind.ofSign? r.sign = some r.kind := by
  rcases r with ⟨_ | _, _ | _, n⟩ <;> rfl

theorem isBlank_sign (r : Run) : Text.isBlank r.sign = false := by
  rcases r with ⟨_ | _, _ | _, n⟩ <;> exact of_decide_eq_true rfl

theorem sign_beq_up (r : Run) : (some r.sign == some r.kind.up) = r.up := by
  rcases r with ⟨_ | _, _ | _, n⟩ <;> rfl

theorem up_eq_of_sign_eq {r s : Run} (h : r.sign = s.sign) : r.kind = s.kind ∧ r.up = s.up := by
  have hkind : some r.kind = some s.kind := by
    rw [← ofSign?_sign, h, ofSign?_sign]
  rw [Option.some.injEq] at hkind
  refine ⟨hkind, ?_⟩
  rw [← sign_beq_up, h, hkind, sign_beq_up]

/-- Every sign of a short code is the sign of runs. -/
theorem exists_sign {c : Char} {kind : ShortKind} (h : ShortKind.ofSign? c = some kind) (n : Nat) :
    ∃ r : Run, r.sign = c ∧ r.length = n := by
  unfold ShortKind.ofSign? at h
  split at h
  · exact ⟨⟨.plusMinus, true, n⟩, rfl, rfl⟩
  · exact ⟨⟨.plusMinus, false, n⟩, rfl, rfl⟩
  · exact ⟨⟨.greaterLess, true, n⟩, rfl, rfl⟩
  · exact ⟨⟨.greaterLess, false, n⟩, rfl, rfl⟩
  · cases h

theorem ofCode_injective : Function.Injective ofCode := by
  rintro ⟨kind, l⟩ ⟨kind', l'⟩ h
  rw [ofCode, ofCode, Run.mk.injEq] at h
  rcases h with ⟨hkind, hup, hlength⟩
  have hlevel : some l = some l' := by
    rw [← Level.ofRun?_isUp_length, ← Level.ofRun?_isUp_length]
    exact congrArg₂ Level.ofRun? hup hlength
  exact Prod.ext hkind (Option.some.inj hlevel)

theorem ofCode_of_ofRun? {r : Run} {l : Level} (h : Level.ofRun? r.up r.length = some l) :
    ofCode (r.kind, l) = r := by
  rcases r with ⟨kind, up, n⟩
  simp only at h
  unfold Level.ofRun? at h
  split at h
  all_goals first | (cases h; rfl) | cases h

/-- Runs of three signs at most have a level. -/
theorem exists_level {r : Run} (hpos : 0 < r.length) (hshort : r.length ≤ 3) :
    ∃ l, ofCode (r.kind, l) = r := by
  have hsome : ∃ l, Level.ofRun? r.up r.length = some l := by
    rcases r with ⟨kind, up, n⟩
    match up, n with
    | true, 1 => exact ⟨_, rfl⟩
    | true, 2 => exact ⟨_, rfl⟩
    | true, 3 => exact ⟨_, rfl⟩
    | false, 1 => exact ⟨_, rfl⟩
    | false, 2 => exact ⟨_, rfl⟩
    | false, 3 => exact ⟨_, rfl⟩
  rcases hsome with ⟨l, hl⟩
  exact ⟨l, ofCode_of_ofRun? hl⟩

theorem eq_of_chars_eq {r s : Run} (hpos : 0 < r.length) (h : r.chars = s.chars) : r = s := by
  have hlength : r.length = s.length := by
    have hsame := congrArg List.length h
    rwa [chars, chars, List.length_replicate, List.length_replicate] at hsame
  have hmem : r.sign ∈ s.chars := by
    rw [← h]
    exact List.mem_replicate.2 ⟨by omega, rfl⟩
  rcases up_eq_of_sign_eq (List.eq_of_mem_replicate hmem) with ⟨hkind, hup⟩
  cases r
  cases s
  exact congr (congr (congrArg Run.mk hkind) hup) hlength

theorem eq_of_map_chars {runs runs' : List Run} (hpos : ∀ r ∈ runs, 0 < r.length)
    (h : runs.map chars = runs'.map chars) : runs = runs' := by
  induction runs generalizing runs' with
  | nil => exact (List.map_eq_nil_iff.1 h.symm).symm
  | cons r runs ih =>
      cases runs' with
      | nil => cases h
      | cons r' runs' =>
          rw [List.map_cons, List.map_cons, List.cons.injEq] at h
          rw [eq_of_chars_eq (hpos r List.mem_cons_self) h.1,
            ih (fun s hs => hpos s (List.mem_cons_of_mem r hs)) h.2]

end Run

/-- The runs of a region: no run is followed by another sign of its own, and
    blanks are passed over. -/
inductive HasRuns : List Char → List Run → Prop
  | nil : HasRuns [] []
  | blank {c : Char} {cs : List Char} {runs : List Run} (hc : Text.isBlank c = true)
      (hrest : HasRuns cs runs) : HasRuns (c :: cs) runs
  | run {r : Run} {cs : List Char} {runs : List Run} (hpos : 0 < r.length)
      (hmax : cs.head? ≠ some r.sign) (hrest : HasRuns cs runs) :
      HasRuns (r.chars ++ cs) (r :: runs)

theorem HasRuns.length_pos {cs : List Char} {runs : List Run} (h : HasRuns cs runs) {r : Run}
    (hr : r ∈ runs) : 0 < r.length := by
  induction h with
  | nil => exact absurd hr List.not_mem_nil
  | blank _ _ ih => exact ih hr
  | run hpos _ _ ih =>
      rcases List.mem_cons.1 hr with rfl | hr
      · exact hpos
      · exact ih hr

/-- A text begins with a sign some number of times, perhaps none, and does not go
    on with it then. -/
theorem exists_replicate_append (c : Char) (cs : List Char) :
    ∃ n rest, cs = List.replicate n c ++ rest ∧ rest.head? ≠ some c := by
  induction cs with
  | nil => exact ⟨0, [], rfl, Option.some_ne_none c |>.symm⟩
  | cons d cs ih =>
      by_cases hd : d = c
      · rcases ih with ⟨n, rest, rfl, hmax⟩
        exact ⟨n + 1, rest, by rw [hd]; rfl, hmax⟩
      · refine ⟨0, d :: cs, rfl, ?_⟩
        rw [List.head?_cons, ne_eq, Option.some.injEq]
        exact hd

-- By induction on the length of the region: a run is taken off in one piece, so
-- that it cannot go on behind it.
theorem exists_hasRuns {cs : List Char} (h : ∀ c ∈ cs, isShortChar c = true) :
    ∃ runs, HasRuns cs runs := by
  induction hlength : cs.length using Nat.strong_induction_on generalizing cs with
  | _ length ih =>
    cases cs with
    | nil => exact ⟨[], .nil⟩
    | cons c cs =>
        rw [List.length_cons] at hlength
        have htail : ∀ d ∈ cs, isShortChar d = true := fun d hd => h d (List.mem_cons_of_mem c hd)
        have hc := h c List.mem_cons_self
        rw [isShortChar, Bool.or_eq_true, Option.isSome_iff_exists] at hc
        rcases hc with ⟨kind, hkind⟩ | hblank
        · rcases exists_replicate_append c cs with ⟨n, rest, rfl, hmax⟩
          rw [List.length_append] at hlength
          rcases ih rest.length (by omega) (fun d hd => htail d (List.mem_append_right _ hd)) rfl
            with ⟨runs, hruns⟩
          rcases Run.exists_sign hkind (n + 1) with ⟨r, rfl, hr⟩
          have hrun := HasRuns.run (by omega) hmax hruns
          rw [Run.chars, hr, List.replicate_succ, List.cons_append] at hrun
          exact ⟨_, hrun⟩
        · rcases ih cs.length (by omega) htail rfl with ⟨runs, hruns⟩
          exact ⟨runs, .blank hblank hruns⟩

/-! ### Runs that are found -/

/-- A block that does not go on is split off. -/
theorem splitBy_replicate_append {c : Char} {n : Nat} {cs : List Char} (hn : 0 < n)
    (hmax : cs.head? ≠ some c) :
    (List.replicate n c ++ cs).splitBy (· == ·) = List.replicate n c :: cs.splitBy (· == ·) := by
  have hne : List.replicate n c ≠ [] := by
    rw [ne_eq, List.replicate_eq_nil_iff]
    omega
  rw [List.splitBy_append, List.splitBy_of_isChain hne, List.singleton_append]
  · exact List.isChain_replicate_of_rel n (beq_self_eq_true c)
  · intro x hx y hy
    rw [List.eq_of_mem_replicate (List.mem_of_getLast? hx), beq_eq_false_iff_ne]
    rintro rfl
    exact hmax hy

theorem shortRuns_chars_append {r : Run} {cs : List Char} (hpos : 0 < r.length)
    (hmax : cs.head? ≠ some r.sign) : shortRuns (r.chars ++ cs) = r.chars :: shortRuns cs := by
  have hkept : (!r.chars.all Text.isBlank) = true := by
    rw [Bool.not_eq_true', List.all_eq_false]
    exact ⟨r.sign, List.mem_replicate.2 ⟨by omega, rfl⟩, by
      rw [r.isBlank_sign]; exact Bool.false_ne_true⟩
  have hsplit : (r.chars ++ cs).splitBy (· == ·) = r.chars :: cs.splitBy (· == ·) :=
    splitBy_replicate_append hpos hmax
  rw [shortRuns, hsplit, List.filter_cons, if_pos hkept, shortRuns]

theorem shortRuns_blanks_append {c : Char} (hc : Text.isBlank c = true) {n : Nat} {cs : List Char}
    (hmax : cs.head? ≠ some c) : shortRuns (List.replicate n c ++ cs) = shortRuns cs := by
  cases n with
  | zero => rfl
  | succ n =>
      have hdropped : ¬(!(List.replicate (n + 1) c).all Text.isBlank) = true := by
        rw [Bool.not_eq_true', Bool.not_eq_false, List.all_eq_true]
        intro d hd
        rw [List.eq_of_mem_replicate hd, hc]
      rw [shortRuns, splitBy_replicate_append (Nat.succ_pos n) hmax, List.filter_cons,
        if_neg hdropped, shortRuns]

/-- A blank is no part of a run, and no run goes on behind it. -/
theorem shortRuns_blank_cons {c : Char} (hc : Text.isBlank c = true) (cs : List Char) :
    shortRuns (c :: cs) = shortRuns cs := by
  -- The splitting joins the blank to those behind it, and the whole block is left out.
  rcases exists_replicate_append c cs with ⟨n, rest, rfl, hmax⟩
  rw [shortRuns_blanks_append hc hmax, ← List.cons_append, ← List.replicate_succ,
    shortRuns_blanks_append hc hmax]

/-- The runs of a region are found. -/
theorem HasRuns.shortRuns_eq {cs : List Char} {runs : List Run} (h : HasRuns cs runs) :
    shortRuns cs = runs.map Run.chars := by
  induction h with
  | nil => rfl
  | blank hc _ ih => rw [shortRuns_blank_cons hc, ih]
  | run hpos hmax _ ih => rw [shortRuns_chars_append hpos hmax, ih, List.map_cons]

/-- A region has its runs in one way. -/
theorem HasRuns.unique {cs : List Char} {runs runs' : List Run} (h : HasRuns cs runs)
    (h' : HasRuns cs runs') : runs = runs' := by
  have hchars : runs.map Run.chars = runs'.map Run.chars := by
    rw [← h.shortRuns_eq, h'.shortRuns_eq]
  exact Run.eq_of_map_chars (fun r hr => h.length_pos hr) hchars

/-- Every region has its runs. -/
theorem existsUnique_hasRuns (cs : List Char) :
    ∃! runs, HasRuns (cs.takeWhile isShortChar) runs := by
  have hregion : ∀ c ∈ cs.takeWhile isShortChar, isShortChar c = true :=
    fun c hc => List.mem_takeWhile_imp hc
  rcases exists_hasRuns hregion with ⟨runs, hruns⟩
  exact ⟨runs, hruns, fun runs' hruns' => hruns'.unique hruns⟩

/-! ### Levels of runs -/

/-- Runs that have levels have the ones that are found, and are of different
    kinds. -/
theorem levelsOfRuns_eq_ok {region : String} {seen codes : List (ShortKind × Level)}
    {runs : List Run} (hpos : ∀ r ∈ runs, 0 < r.length) (hseen : (seen.map Prod.fst).Nodup)
    (h : levelsOfRuns region seen (runs.map Run.chars) = .ok codes) :
    ∃ found, codes = seen ++ found ∧ runs = found.map Run.ofCode ∧ (codes.map Prod.fst).Nodup := by
  induction runs generalizing seen with
  | nil =>
      rw [List.map_nil, levelsOfRuns, Except.ok.injEq] at h
      exact ⟨[], by rw [List.append_nil, h], rfl, h ▸ hseen⟩
  | cons r runs ih =>
      have hpos' := hpos r List.mem_cons_self
      have hhead : r.chars.head? = some r.sign := by
        rw [Run.chars, List.head?_replicate, if_neg (by omega)]
      have hlength : r.chars.length = r.length := List.length_replicate
      rw [List.map_cons, levelsOfRuns, hhead, Option.bind_some, Run.ofSign?_sign] at h
      simp only [Run.sign_beq_up, hlength] at h
      split at h
      · cases h
      · rename_i hnew
        split at h
        · cases h
        · rename_i l hl
          -- No run before this one is of its kind.
          have hseen' : ((seen ++ [(r.kind, l)]).map Prod.fst).Nodup := by
            rw [List.map_append, List.map_singleton]
            refine List.Nodup.append hseen (List.nodup_singleton _) ?_
            rw [List.disjoint_singleton]
            intro hmem
            rcases List.mem_map.1 hmem with ⟨code, hcode, hkind⟩
            exact hnew (List.any_eq_true.2 ⟨code, hcode, decide_eq_true hkind⟩)
          rcases ih (fun s hs => hpos s (List.mem_cons_of_mem r hs)) hseen' h with
            ⟨found, hcodes, hruns, hnodup⟩
          refine ⟨(r.kind, l) :: found, ?_, ?_, hnodup⟩
          · rw [hcodes, List.append_assoc, List.singleton_append]
          · rw [hruns, List.map_cons, Run.ofCode_of_ofRun? hl]

/-- A region has levels if its runs are of different kinds and of levels. -/
theorem shortLevels_eq_ok_iff {region : List Char} {runs : List Run} (h : HasRuns region runs)
    {codes : List (ShortKind × Level)} :
    shortLevels region = .ok codes ↔ runs = codes.map Run.ofCode ∧ (codes.map Prod.fst).Nodup := by
  rw [shortLevels, h.shortRuns_eq, List.length_map]
  constructor
  · intro hok
    split at hok
    · cases hok
    · have hnil : (([] : List (ShortKind × Level)).map Prod.fst).Nodup := List.nodup_nil
      rcases levelsOfRuns_eq_ok (fun r hr => h.length_pos hr) hnil hok with
        ⟨found, hcodes, hruns, hnodup⟩
      rw [List.nil_append] at hcodes
      rw [hcodes] at hnodup ⊢
      exact ⟨hruns, hnodup⟩
  · rintro ⟨rfl, hnodup⟩
    have hlength := Schema.length_le_two_of_nodup hnodup
    rw [List.length_map] at hlength
    have hlevels := Schema.levelsOfRuns_signs (String.ofList (Text.trim region)) [] codes hnodup
    rw [List.nil_append] at hlevels
    have hsigns : Run.chars ∘ Run.ofCode = Schema.signsOf := funext Run.chars_ofCode
    rw [List.length_map, List.map_map, hsigns]
    simp only [if_neg (Nat.not_lt.2 hlength)]
    exact hlevels

/-! ### What is read -/

/-- A text has runs in its region and entries in its list, none if there is no
    list. -/
structure ReadsAs (cs : List Char) (runs : List Run) (entries : List Param) : Prop where
  runs : HasRuns (cs.takeWhile isShortChar) runs
  entries : cs.dropWhile isShortChar = [] ∧ entries = [] ∨
    parseList (cs.dropWhile isShortChar) = .ok entries

/-- Whether a field takes short codes of a kind. -/
def Field.takes (f : Field) (kind : ShortKind) : Bool :=
  f.short.any (·.kind = kind)

namespace Schema

/-- The entry that a short code stands for: the detent of the first field that
    takes short codes of its kind. -/
def entryOf? (schema : Schema) (code : ShortKind × Level) : Option Param :=
  (schema.find? (·.takes code.1)).bind fun f =>
    (detent? code.1 code.2 f).map fun v => { name := f.name, value := v }

/-- Runs and entries that a schema has fields for: two runs at most, of different
    kinds and of three signs at most, each of a kind that a field takes, and
    entries with names of fields and values that these accept. -/
structure Accepts (schema : Schema) (runs : List Run) (entries : List Param) : Prop where
  few : runs.length ≤ 2
  kinds : (runs.map Run.kind).Nodup
  short : ∀ r ∈ runs, r.length ≤ 3
  taken : ∀ r ∈ runs, ∃ f ∈ schema, f.takes r.kind = true
  listed : ∀ p ∈ entries, ∃ f ∈ schema, f.name = p.name ∧ f.range.accepts p.value = true

/-- The value that runs and entries give to a field: the last one listed for its
    name, else the detent of a run, else its default. -/
inductive Means (schema : Schema) (runs : List Run) (entries : List Param) (f : Field) :
    Value → Prop
  | listed {v : Value} (hlast : Param.value? entries f.name = some v) :
      Means schema runs entries f v
  | detent {code : ShortKind × Level} {v : Value} (hnone : ∀ p ∈ entries, p.name ≠ f.name)
      (hrun : Run.ofCode code ∈ runs)
      (hentry : schema.entryOf? code = some { name := f.name, value := v }) :
      Means schema runs entries f v
  | default (hnone : ∀ p ∈ entries, p.name ≠ f.name)
      (hruns : ∀ code v, Run.ofCode code ∈ runs →
        schema.entryOf? code ≠ some { name := f.name, value := v }) :
      Means schema runs entries f f.default

/-- The parameters of a schema after entries have been given one by one. -/
def taking (schema : Schema) (given : List Param) : List Param :=
  schema.map fun f => { name := f.name, value := (Param.value? given f.name).getD f.default }

/-! ### Entries one by one -/

theorem value?_eq_none_iff {ps : List Param} {name : String} :
    Param.value? ps name = none ↔ ∀ p ∈ ps, p.name ≠ name := by
  rw [Param.value?, Option.map_eq_none_iff, List.find?_eq_none]
  simp only [List.mem_reverse, decide_eq_true_eq, ne_eq]

theorem mem_of_value? {ps : List Param} {name : String} {v : Value}
    (h : Param.value? ps name = some v) : { name := name, value := v } ∈ ps := by
  rcases Option.map_eq_some_iff.1 h with ⟨p, hp, rfl⟩
  have hname := List.find?_some hp
  rw [decide_eq_true_eq] at hname
  rw [← hname]
  exact List.mem_reverse.1 (List.mem_of_find?_eq_some hp)

/-- Later parameters come first. -/
theorem value?_append (ps qs : List Param) (name : String) :
    Param.value? (ps ++ qs) name = (Param.value? qs name).or (Param.value? ps name) := by
  rw [Param.value?, List.reverse_append, List.find?_append, Option.map_or, ← Param.value?,
    ← Param.value?]

theorem value?_append_singleton_of_eq (ps : List Param) (p : Param) :
    Param.value? (ps ++ [p]) p.name = some p.value := by
  have hlast : Param.value? [p] p.name = some p.value := by
    rw [Param.value?, List.reverse_singleton, List.find?_singleton, if_pos (decide_eq_true rfl),
      Option.map_some]
  rw [value?_append, hlast, Option.some_or]

theorem value?_append_singleton_of_ne {ps : List Param} {p : Param} {name : String}
    (h : p.name ≠ name) : Param.value? (ps ++ [p]) name = Param.value? ps name := by
  have hnone : Param.value? [p] name = none := by
    rw [value?_eq_none_iff]
    intro q hq
    rwa [List.mem_singleton.1 hq]
  rw [value?_append, hnone, Option.none_or]

theorem taking_nil (schema : Schema) : schema.taking [] = schema.defaults := rfl

/-- Entries for other names change nothing. -/
theorem taking_append_singleton {schema : Schema} {p : Param} (h : ∀ f ∈ schema, p.name ≠ f.name)
    (given : List Param) : schema.taking (given ++ [p]) = schema.taking given := by
  refine List.map_congr_left fun f hf => ?_
  rw [value?_append_singleton_of_ne (h f hf)]

/-- Assigning a value to the first field that is picked is giving an entry. -/
theorem assign_taking {schema : Schema} (hnames : schema.names.Nodup) {pick : Field → Option Value}
    {f : Field} {v : Value} (hfind : schema.find? (fun g => (pick g).isSome) = some f)
    (hv : pick f = some v) (given : List Param) :
    assign pick schema (schema.taking given) =
      some (schema.taking (given ++ [{ name := f.name, value := v }])) := by
  -- By induction on the schema. No later field has the name of the first one.
  induction schema with
  | nil => cases hfind
  | cons g gs ih =>
      rw [names, List.map_cons, List.nodup_cons] at hnames
      have hlater : ∀ k ∈ gs, k.name ≠ g.name := fun k hk hname =>
        hnames.1 (List.mem_map.2 ⟨k, hk, hname⟩)
      have htaking : ∀ given, taking (g :: gs) given =
          { name := g.name, value := (Param.value? given g.name).getD g.default } ::
            taking gs given := fun _ => rfl
      rw [htaking, htaking, assign]
      cases hpick : pick g with
      | some w =>
          rw [List.find?_cons_of_pos (by rw [hpick]; rfl), Option.some.injEq] at hfind
          subst hfind
          rw [hv, Option.some.injEq] at hpick
          subst hpick
          have hrest : taking gs (given ++ [{ name := g.name, value := v }]) = taking gs given :=
            taking_append_singleton (fun k hk => (hlater k hk).symm) given
          rw [hrest, value?_append_singleton_of_eq given { name := g.name, value := v },
            Option.getD_some]
      | none =>
          rw [List.find?_cons_of_neg (by rw [hpick]; exact Bool.false_ne_true)] at hfind
          have hne := hlater f (List.mem_of_find?_eq_some hfind)
          rw [ih hnames.2 hfind, value?_append_singleton_of_ne hne, Option.map_some]

theorem assign_eq_none {schema : Schema} {pick : Field → Option Value}
    (h : ∀ f ∈ schema, pick f = none) (ps : List Param) : assign pick schema ps = none := by
  induction schema generalizing ps with
  | nil => rfl
  | cons f fs ih =>
      cases ps with
      | nil => rfl
      | cons p ps =>
          rw [assign, h f List.mem_cons_self, ih (fun g hg => h g (List.mem_cons_of_mem f hg))]
          rfl

theorem detent?_isSome (kind : ShortKind) (l : Level) (f : Field) :
    (detent? kind l f).isSome = f.takes kind := by
  rw [detent?, Field.takes]
  cases f.short with
  | none => rfl
  | some s =>
      rw [Option.bind_some, Option.any_some]
      by_cases hkind : s.kind = kind
      · rw [if_pos hkind, decide_eq_true hkind]
        rfl
      · rw [if_neg hkind, decide_eq_false hkind]
        rfl

theorem entryOf?_isSome {schema : Schema} {code : ShortKind × Level} :
    (schema.entryOf? code).isSome = true ↔ ∃ f ∈ schema, f.takes code.1 = true := by
  rw [entryOf?, ← List.find?_isSome]
  cases hfind : schema.find? (·.takes code.1) with
  | none => rfl
  | some f =>
      have htakes := List.find?_some hfind
      rw [← detent?_isSome code.1 code.2] at htakes
      rw [Option.bind_some, Option.isSome_map, htakes, Option.isSome_some]

/-- A short code gives an entry. -/
theorem setShort_taking {schema : Schema} (hnames : schema.names.Nodup) {given ps : List Param}
    {code : ShortKind × Level} :
    schema.setShort (schema.taking given) code = .ok ps ↔
      ∃ p, schema.entryOf? code = some p ∧ ps = schema.taking (given ++ [p]) := by
  have hpicks : (fun f => (detent? code.1 code.2 f).isSome) = fun f : Field => f.takes code.1 :=
    funext fun f => detent?_isSome code.1 code.2 f
  rw [setShort, entryOf?]
  cases hfind : schema.find? (·.takes code.1) with
  | none =>
      rw [assign_eq_none (fun f hf => ?_)]
      · simp only [Option.bind_none, reduceCtorEq, false_and, exists_false]
      · have hnot := List.find?_eq_none.1 hfind f hf
        rw [← detent?_isSome code.1 code.2] at hnot
        exact Option.not_isSome_iff_eq_none.1 hnot
  | some f =>
      have htakes := List.find?_some hfind
      rw [← detent?_isSome code.1 code.2] at htakes
      rcases Option.isSome_iff_exists.1 htakes with ⟨v, hv⟩
      rw [← hpicks] at hfind
      rw [assign_taking hnames hfind hv, Option.bind_some, hv, Option.map_some]
      simp only [Except.ok.injEq, Option.some.injEq, exists_eq_left']
      exact eq_comm

/-- A listed value gives an entry. -/
theorem setListed_taking {schema : Schema} (hnames : schema.names.Nodup) {given ps : List Param}
    {p : Param} :
    schema.setListed (schema.taking given) p = .ok ps ↔
      (∃ f ∈ schema, f.name = p.name ∧ f.range.accepts p.value = true) ∧
        ps = schema.taking (given ++ [p]) := by
  rw [setListed]
  cases hfind : schema.find? (·.name = p.name) with
  | none =>
      simp only [reduceCtorEq, false_iff, not_and]
      rintro ⟨f, hf, hname, -⟩
      exact absurd (decide_eq_true hname) (List.find?_eq_none.1 hfind f hf)
  | some f =>
      have hname := List.find?_some hfind
      rw [decide_eq_true_eq] at hname
      have hf := List.mem_of_find?_eq_some hfind
      have hpick : schema.find?
          (fun g => (if g.name = p.name then some p.value else none).isSome) = some f := by
        rw [← hfind]
        congr 1
        funext g
        by_cases hg : g.name = p.name
        · rw [if_pos hg, decide_eq_true hg, Option.isSome_some]
        · rw [if_neg hg, decide_eq_false hg, Option.isSome_none]
      have hassign := assign_taking hnames hpick (if_pos hname) given
      rw [hname] at hassign
      simp only [hassign, Option.getD_some]
      constructor
      · intro h
        split at h
        · rename_i haccepts
          exact ⟨⟨f, hf, hname, haccepts⟩, (Except.ok.inj h).symm⟩
        · cases h
      · rintro ⟨⟨g, hg, hgname, haccepts⟩, rfl⟩
        -- The field that takes the value is the only one of its name.
        obtain rfl : g = f := List.inj_on_of_nodup_map hnames hg hf (hgname.trans hname.symm)
        rw [if_pos haccepts]

/-- The pass over the short codes: they are entries in front of all others. -/
theorem foldlM_setShort_eq_ok_iff {schema : Schema} (hnames : schema.names.Nodup)
    {codes : List (ShortKind × Level)} {given ps : List Param} :
    codes.foldlM schema.setShort (schema.taking given) = .ok ps ↔
      (∀ code ∈ codes, (schema.entryOf? code).isSome = true) ∧
        ps = schema.taking (given ++ codes.filterMap schema.entryOf?) := by
  induction codes generalizing given with
  | nil =>
      simp only [List.foldlM_nil, List.not_mem_nil, false_implies, implies_true, true_and,
        List.filterMap_nil, List.append_nil, pure, Except.pure, Except.ok.injEq]
      exact eq_comm
  | cons code codes ih =>
      rw [List.foldlM_cons, bind_eq_ok, List.forall_mem_cons]
      constructor
      · rintro ⟨qs, hqs, hps⟩
        rcases (setShort_taking hnames).1 hqs with ⟨p, hp, rfl⟩
        rcases ih.1 hps with ⟨hcodes, rfl⟩
        refine ⟨⟨by rw [hp]; rfl, hcodes⟩, ?_⟩
        rw [List.filterMap_cons_some hp, List.append_assoc, List.singleton_append]
      · rintro ⟨⟨hcode, hcodes⟩, rfl⟩
        rcases Option.isSome_iff_exists.1 hcode with ⟨p, hp⟩
        refine ⟨_, (setShort_taking hnames).2 ⟨p, hp, rfl⟩, ih.2 ⟨hcodes, ?_⟩⟩
        rw [List.filterMap_cons_some hp, List.append_assoc, List.singleton_append]

/-- The pass over the list: its entries add up. -/
theorem foldlM_setListed_eq_ok_iff {schema : Schema} (hnames : schema.names.Nodup)
    {entries given ps : List Param} :
    entries.foldlM schema.setListed (schema.taking given) = .ok ps ↔
      (∀ p ∈ entries, ∃ f ∈ schema, f.name = p.name ∧ f.range.accepts p.value = true) ∧
        ps = schema.taking (given ++ entries) := by
  induction entries generalizing given with
  | nil =>
      simp only [List.foldlM_nil, List.not_mem_nil, false_implies, implies_true, true_and,
        List.append_nil, pure, Except.pure, Except.ok.injEq]
      exact eq_comm
  | cons p entries ih =>
      rw [List.foldlM_cons, bind_eq_ok, List.forall_mem_cons]
      constructor
      · rintro ⟨qs, hqs, hps⟩
        rcases (setListed_taking hnames).1 hqs with ⟨hp, rfl⟩
        rcases ih.1 hps with ⟨hentries, rfl⟩
        exact ⟨⟨hp, hentries⟩, by rw [List.append_assoc, List.singleton_append]⟩
      · rintro ⟨⟨hp, hentries⟩, rfl⟩
        refine ⟨_, (setListed_taking hnames).2 ⟨hp, rfl⟩, ih.2 ⟨hentries, ?_⟩⟩
        rw [List.append_assoc, List.singleton_append]

/-! ### What a text gives -/

/-- A short code stands for a detent of a field that takes it. -/
theorem entryOf?_cases {schema : Schema} {code : ShortKind × Level} {p : Param}
    (h : schema.entryOf? code = some p) :
    ∃ f ∈ schema, ∃ s, f.short = some s ∧ s.kind = code.1 ∧
      p = { name := f.name, value := .number (s.detents.value code.2) } := by
  rcases Option.bind_eq_some_iff.1 h with ⟨f, hfind, hmap⟩
  rcases Option.map_eq_some_iff.1 hmap with ⟨v, hv, rfl⟩
  rcases Option.bind_eq_some_iff.1 hv with ⟨s, hs, hif⟩
  split at hif
  · rename_i hkind
    rw [Option.some.injEq] at hif
    exact ⟨f, List.mem_of_find?_eq_some hfind, s, hs, hkind, by rw [hif]⟩
  · cases hif

/-- Entries for one field come from short codes of one kind. -/
theorem kind_eq_of_entryOf? {schema : Schema} (hnames : schema.names.Nodup)
    {code code' : ShortKind × Level} {p p' : Param} (h : schema.entryOf? code = some p)
    (h' : schema.entryOf? code' = some p') (hname : p.name = p'.name) : code.1 = code'.1 := by
  rcases entryOf?_cases h with ⟨f, hf, s, hs, hkind, rfl⟩
  rcases entryOf?_cases h' with ⟨g, hg, t, ht, hkind', rfl⟩
  obtain rfl : f = g := List.inj_on_of_nodup_map hnames hf hg hname
  rw [hs, Option.some.injEq] at ht
  rw [← hkind, ← hkind', ht]

/-- What a field takes from short codes of different kinds is what one of them
    stands for. -/
theorem value?_entryOf?_eq_some_iff {schema : Schema} (hnames : schema.names.Nodup)
    {codes : List (ShortKind × Level)} (hkinds : (codes.map Prod.fst).Nodup) {name : String}
    {v : Value} :
    Param.value? (codes.filterMap schema.entryOf?) name = some v ↔
      ∃ code ∈ codes, schema.entryOf? code = some { name := name, value := v } := by
  constructor
  · intro h
    exact List.mem_filterMap.1 (mem_of_value? h)
  · rintro ⟨code, hcode, hentry⟩
    cases hvalue : Param.value? (codes.filterMap schema.entryOf?) name with
    | none =>
        have hmem := List.mem_filterMap.2 ⟨code, hcode, hentry⟩
        exact absurd rfl (value?_eq_none_iff.1 hvalue _ hmem)
    | some w =>
        rcases List.mem_filterMap.1 (mem_of_value? hvalue) with ⟨code', hcode', hentry'⟩
        -- Both codes stand for an entry of one name, so they are one code.
        obtain rfl : code' = code := List.inj_on_of_nodup_map hkinds hcode' hcode
          (kind_eq_of_entryOf? hnames hentry' hentry rfl)
        rw [hentry, Option.some.injEq, Param.mk.injEq] at hentry'
        rw [hentry'.2]

/-- A field has the last value given for its name by short codes and entries, the
    entries coming last. -/
theorem means_iff {schema : Schema} (hnames : schema.names.Nodup)
    {codes : List (ShortKind × Level)} (hkinds : (codes.map Prod.fst).Nodup)
    {entries : List Param} {f : Field} {v : Value} :
    Means schema (codes.map Run.ofCode) entries f v ↔
      v = (Param.value? (codes.filterMap schema.entryOf? ++ entries) f.name).getD f.default := by
  rw [value?_append]
  constructor
  · intro h
    -- One case for each source of a value, the sources before it giving none.
    cases h with
    | listed hlast => rw [hlast, Option.some_or, Option.getD_some]
    | @detent code v hnone hrun hentry =>
        rw [List.mem_map_of_injective Run.ofCode_injective] at hrun
        rw [value?_eq_none_iff.2 hnone, Option.none_or,
          (value?_entryOf?_eq_some_iff hnames hkinds).2 ⟨code, hrun, hentry⟩, Option.getD_some]
    | default hnone hruns =>
        cases hvalue : Param.value? (codes.filterMap schema.entryOf?) f.name with
        | none => rw [value?_eq_none_iff.2 hnone, Option.none_or, Option.getD_none]
        | some w =>
            rcases (value?_entryOf?_eq_some_iff hnames hkinds).1 hvalue with ⟨code, hcode, hentry⟩
            exact absurd hentry (hruns code w (List.mem_map_of_mem hcode))
  · rintro rfl
    cases hlast : Param.value? entries f.name with
    | some w => exact .listed hlast
    | none =>
        have hnone := value?_eq_none_iff.1 hlast
        rw [Option.none_or]
        cases hvalue : Param.value? (codes.filterMap schema.entryOf?) f.name with
        | some w =>
            rcases (value?_entryOf?_eq_some_iff hnames hkinds).1 hvalue with ⟨code, hcode, hentry⟩
            exact .detent hnone (List.mem_map_of_mem hcode) hentry
        | none =>
            refine .default hnone fun code w hrun hentry => ?_
            rw [List.mem_map_of_injective Run.ofCode_injective] at hrun
            rw [(value?_entryOf?_eq_some_iff hnames hkinds).2 ⟨code, hrun, hentry⟩] at hvalue
            cases hvalue

/-- Runs that are accepted have levels. -/
theorem accepts_iff {schema : Schema} {region : List Char} {runs : List Run}
    (hruns : HasRuns region runs) {entries : List Param} :
    schema.Accepts runs entries ↔
      ∃ codes : List (ShortKind × Level), runs = codes.map Run.ofCode ∧ (codes.map Prod.fst).Nodup ∧
        (∀ code ∈ codes, (schema.entryOf? code).isSome = true) ∧
        ∀ p ∈ entries, ∃ f ∈ schema, f.name = p.name ∧ f.range.accepts p.value = true := by
  have hkind : ∀ codes : List (ShortKind × Level),
      (codes.map Run.ofCode).map Run.kind = codes.map Prod.fst := fun codes => List.map_map
  constructor
  · intro h
    -- Each run is short enough to have a level, so they are the runs of short codes.
    have hcodes : runs ∈ Set.range (List.map Run.ofCode) := by
      rw [Set.range_list_map]
      intro r hr
      rcases Run.exists_level (hruns.length_pos hr) (h.short r hr) with ⟨l, hl⟩
      exact ⟨(r.kind, l), hl⟩
    rcases hcodes with ⟨codes, rfl⟩
    refine ⟨codes, rfl, hkind codes ▸ h.kinds, fun code hcode => ?_, h.listed⟩
    exact entryOf?_isSome.2 (h.taken _ (List.mem_map_of_mem hcode))
  · rintro ⟨codes, rfl, hkinds, htaken, hlisted⟩
    have hfew := length_le_two_of_nodup hkinds
    rw [List.length_map] at hfew
    refine ⟨by rwa [List.length_map], by rwa [hkind], ?_, ?_, hlisted⟩
    · intro r hr
      rcases List.mem_map.1 hr with ⟨code, -, rfl⟩
      exact code.2.length_le
    · intro r hr
      rcases List.mem_map.1 hr with ⟨code, hcode, rfl⟩
      exact entryOf?_isSome.1 (htaken code hcode)

theorem eq_taking_iff {schema : Schema} {given ps : List Param} :
    ps = schema.taking given ↔
      List.Forall₂ (fun f p => p.name = f.name ∧
        p.value = (Param.value? given f.name).getD f.default) schema ps := by
  rw [taking, eq_comm, ← List.forall₂_eq_eq_eq, List.forall₂_map_left_iff]
  have hparam : ∀ (f : Field) (p : Param),
      ({ name := f.name, value := (Param.value? given f.name).getD f.default } : Param) = p ↔
        p.name = f.name ∧ p.value = (Param.value? given f.name).getD f.default := by
    intro f p
    rcases p with ⟨name, v⟩
    rw [Param.mk.injEq, eq_comm, @eq_comm _ _ v]
  simp only [hparam]

theorem parseList_nil_ne (entries : List Param) : parseList [] ≠ .ok entries := by
  intro h
  cases h

/-- Populating goes over the short codes and then over the entries of a text. -/
theorem populate_of_readsAs {cs : List Char} {runs : List Run} {entries : List Param}
    (h : ReadsAs cs runs entries) (schema : Schema) :
    populate schema cs = (shortLevels (cs.takeWhile isShortChar) >>= fun codes =>
      codes.foldlM schema.setShort schema.defaults >>= fun ps =>
        entries.foldlM schema.setListed ps) := by
  unfold populate
  rcases h.entries with ⟨hrest, rfl⟩ | hentries
  · rw [hrest]
    rfl
  · -- A list is never empty, so there is something to read it from.
    have hrest : (cs.dropWhile isShortChar).isEmpty = false := by
      rw [List.isEmpty_eq_false_iff]
      intro hnil
      rw [hnil] at hentries
      exact parseList_nil_ne entries hentries
    simp only [hrest, hentries]
    rfl

/-- What a text of runs and entries gives to a schema: nothing unless it accepts
    them, and what they mean for each of its fields otherwise. -/
theorem populate_eq_ok_iff {schema : Schema} (hnames : schema.names.Nodup) {cs : List Char}
    {runs : List Run} {entries : List Param} (hreads : ReadsAs cs runs entries) {ps : List Param} :
    populate schema cs = .ok ps ↔
      schema.Accepts runs entries ∧
        List.Forall₂ (fun f p => p.name = f.name ∧ Means schema runs entries f p.value)
          schema ps := by
  rw [populate_of_readsAs hreads, bind_eq_ok, accepts_iff hreads.runs]
  constructor
  · rintro ⟨codes, hlevels, h⟩
    rcases (shortLevels_eq_ok_iff hreads.runs).1 hlevels with ⟨rfl, hkinds⟩
    rcases bind_eq_ok.1 h with ⟨qs, hshort, hlisted⟩
    rw [← taking_nil, foldlM_setShort_eq_ok_iff hnames, List.nil_append] at hshort
    rcases hshort with ⟨htaken, rfl⟩
    rw [foldlM_setListed_eq_ok_iff hnames, eq_taking_iff] at hlisted
    refine ⟨⟨codes, rfl, hkinds, htaken, hlisted.1⟩, ?_⟩
    simp only [means_iff hnames hkinds]
    exact hlisted.2
  · rintro ⟨⟨codes, rfl, hkinds, htaken, hlisted⟩, hmeans⟩
    simp only [means_iff hnames hkinds, ← eq_taking_iff] at hmeans
    refine ⟨codes, (shortLevels_eq_ok_iff hreads.runs).2 ⟨rfl, hkinds⟩,
      bind_eq_ok.2 ⟨schema.taking (codes.filterMap schema.entryOf?), ?_, ?_⟩⟩
    · rw [← taking_nil, foldlM_setShort_eq_ok_iff hnames, List.nil_append]
      exact ⟨htaken, rfl⟩
    · rw [foldlM_setListed_eq_ok_iff hnames]
      exact ⟨hlisted, hmeans⟩

/-- Accepted runs and entries mean one value for a field. -/
theorem Means.unique {schema : Schema} (hnames : schema.names.Nodup) {region : List Char}
    {runs : List Run} (hruns : HasRuns region runs) {entries : List Param}
    (haccepts : schema.Accepts runs entries) {f : Field} {v w : Value}
    (hv : Means schema runs entries f v) (hw : Means schema runs entries f w) : v = w := by
  rcases (accepts_iff hruns).1 haccepts with ⟨codes, rfl, hkinds, -, -⟩
  rw [(means_iff hnames hkinds).1 hv, (means_iff hnames hkinds).1 hw]

/-- Runs and entries that a schema accepts give it parameters. -/
theorem exists_populate {schema : Schema} (hnames : schema.names.Nodup) {cs : List Char}
    {runs : List Run} {entries : List Param} (hreads : ReadsAs cs runs entries)
    (haccepts : schema.Accepts runs entries) : ∃ ps, populate schema cs = .ok ps := by
  rcases (accepts_iff hreads.runs).1 haccepts with ⟨codes, rfl, hkinds, -, -⟩
  refine ⟨schema.taking (codes.filterMap schema.entryOf? ++ entries), ?_⟩
  rw [populate_eq_ok_iff hnames hreads]
  refine ⟨haccepts, ?_⟩
  simp only [means_iff hnames hkinds]
  exact eq_taking_iff.1 rfl

/-- A text that gives anything to a schema has runs and entries. -/
theorem exists_readsAs {schema : Schema} {cs : List Char} {ps : List Param}
    (h : populate schema cs = .ok ps) : ∃ runs entries, ReadsAs cs runs entries := by
  rcases existsUnique_hasRuns cs with ⟨runs, hruns, -⟩
  unfold populate at h
  rcases bind_eq_ok.1 h with ⟨codes, -, h⟩
  rcases bind_eq_ok.1 h with ⟨qs, -, h⟩
  dsimp only at h
  split at h
  · rename_i hrest
    exact ⟨runs, [], hruns, Or.inl ⟨List.isEmpty_iff.1 hrest, rfl⟩⟩
  · rcases bind_eq_ok.1 h with ⟨entries, hentries, -⟩
    exact ⟨runs, entries, hruns, Or.inr hentries⟩

/-! ### Order -/

theorem value?_filter (ps : List Param) (name : String) :
    Param.value? (ps.filter (·.name = name)) name = Param.value? ps name := by
  rw [Param.value?, Param.value?, ← List.filter_reverse, List.find?_filter]
  simp only [and_self, Bool.decide_eq_true]

/-- Entries of one name are in the same order. -/
def SameByName (entries entries' : List Param) : Prop :=
  ∀ name, entries.filter (·.name = name) = entries'.filter (·.name = name)

theorem SameByName.symm {entries entries' : List Param} (h : SameByName entries entries') :
    SameByName entries' entries :=
  fun name => (h name).symm

theorem SameByName.mem {entries entries' : List Param} (h : SameByName entries entries') {p : Param}
    (hp : p ∈ entries) : p ∈ entries' := by
  have hmem : p ∈ entries.filter (·.name = p.name) := List.mem_filter.2 ⟨hp, decide_eq_true rfl⟩
  rw [h p.name] at hmem
  exact List.mem_of_mem_filter hmem

theorem SameByName.value?_eq {entries entries' : List Param} (h : SameByName entries entries')
    (name : String) : Param.value? entries name = Param.value? entries' name := by
  rw [← value?_filter entries, h name, value?_filter]

theorem Accepts.of_perm {schema : Schema} {runs runs' : List Run} {entries entries' : List Param}
    (h : schema.Accepts runs entries) (hruns : runs.Perm runs')
    (hentries : SameByName entries entries') : schema.Accepts runs' entries' where
  few := hruns.length_eq ▸ h.few
  kinds := (hruns.map Run.kind).nodup h.kinds
  short r hr := h.short r (hruns.mem_iff.2 hr)
  taken r hr := h.taken r (hruns.mem_iff.2 hr)
  listed p hp := h.listed p (hentries.symm.mem hp)

theorem Means.of_perm {schema : Schema} {runs runs' : List Run} {entries entries' : List Param}
    {f : Field} {v : Value} (h : Means schema runs entries f v) (hruns : runs.Perm runs')
    (hentries : SameByName entries entries') : Means schema runs' entries' f v := by
  cases h with
  | listed hlast => exact .listed (hentries.value?_eq f.name ▸ hlast)
  | detent hnone hrun hentry =>
      exact .detent (fun p hp => hnone p (hentries.symm.mem hp)) (hruns.mem_iff.1 hrun) hentry
  | default hnone hno =>
      exact .default (fun p hp => hnone p (hentries.symm.mem hp))
        fun code v hrun => hno code v (hruns.mem_iff.2 hrun)

/-- The order of runs and of entries for different names does not matter. -/
theorem populate_of_perm {schema : Schema} (hnames : schema.names.Nodup) {cs cs' : List Char}
    {runs runs' : List Run} {entries entries' : List Param} (hreads : ReadsAs cs runs entries)
    (hreads' : ReadsAs cs' runs' entries') (hruns : runs.Perm runs')
    (hentries : SameByName entries entries') {ps : List Param}
    (h : populate schema cs = .ok ps) : populate schema cs' = .ok ps := by
  rcases (populate_eq_ok_iff hnames hreads).1 h with ⟨haccepts, hmeans⟩
  rw [populate_eq_ok_iff hnames hreads']
  exact ⟨haccepts.of_perm hruns hentries,
    hmeans.imp fun f p hp => ⟨hp.1, hp.2.of_perm hruns hentries⟩⟩

/-- The meaning of a text of parameters. Its region has runs in one way. Some
    parameters are populated from it if and only if it has runs and entries that
    the schema accepts, and they are the fields of the schema in order, each with
    the value that the runs and entries mean for it. The order of runs and of
    entries for different names does not matter. -/
theorem populate_means {schema : Schema} (hnames : schema.names.Nodup) (cs : List Char) :
    (∃! runs, HasRuns (cs.takeWhile isShortChar) runs) ∧
      ((∃ ps, populate schema cs = .ok ps) ↔
        ∃ runs entries, ReadsAs cs runs entries ∧ schema.Accepts runs entries) ∧
      (∀ runs entries, ReadsAs cs runs entries → ∀ ps,
        (populate schema cs = .ok ps ↔ schema.Accepts runs entries ∧
          List.Forall₂ (fun f p => p.name = f.name ∧ Means schema runs entries f p.value)
            schema ps)) ∧
      ∀ cs' runs runs' entries entries', ReadsAs cs runs entries → ReadsAs cs' runs' entries' →
        runs.Perm runs' → SameByName entries entries' →
        ∀ ps, (populate schema cs = .ok ps ↔ populate schema cs' = .ok ps) := by
  refine ⟨existsUnique_hasRuns cs, ⟨?_, ?_⟩, fun runs entries hreads ps =>
    populate_eq_ok_iff hnames hreads, ?_⟩
  · rintro ⟨ps, h⟩
    rcases exists_readsAs h with ⟨runs, entries, hreads⟩
    exact ⟨runs, entries, hreads, ((populate_eq_ok_iff hnames hreads).1 h).1⟩
  · rintro ⟨runs, entries, hreads, haccepts⟩
    exact exists_populate hnames hreads haccepts
  · intro cs' runs runs' entries entries' hreads hreads' hruns hentries ps
    exact ⟨populate_of_perm hnames hreads hreads' hruns hentries,
      populate_of_perm hnames hreads' hreads hruns.symm hentries.symm⟩

/-- Two signs in front of a list: the length takes a detent, and the text is
    listed. -/
theorem populate_means_lengthAndText :
    lengthAndText.names.Nodup ∧
      populate lengthAndText ("-- ".toList ++ writeList [⟨"text", .text "a"⟩]) =
        .ok [⟨"len", .number 75⟩, ⟨"text", .text "a"⟩] := by
  have hnames : lengthAndText.names.Nodup := by decide
  have hregion : ∀ c ∈ "-- ".toList, isShortChar c = true := by decide
  have hreads : ReadsAs ("-- ".toList ++ writeList [⟨"text", .text "a"⟩])
      [⟨.plusMinus, false, 2⟩] [⟨"text", .text "a"⟩] := by
    refine ⟨?_, Or.inr ?_⟩
    · rw [Text.takeWhile_append_of_stops hregion (stops_writeList _)]
      exact HasRuns.run (r := ⟨.plusMinus, false, 2⟩) (by decide) (by decide)
        (.blank (by decide) .nil)
    · rw [Text.dropWhile_append_of_stops hregion (stops_writeList _)]
      refine parseList_writeList (List.cons_ne_nil _ _) fun p hp => ?_
      rw [List.mem_singleton.1 hp]
      exact ⟨by decide, trivial⟩
  have haccepts : lengthAndText.Accepts [⟨.plusMinus, false, 2⟩] [⟨"text", .text "a"⟩] := by
    refine ⟨by decide, by decide, ?_, ?_, ?_⟩
    · rw [List.forall_mem_singleton]
      decide
    · rw [List.forall_mem_singleton]
      exact ⟨_, List.mem_cons_self, rfl⟩
    · rw [List.forall_mem_singleton]
      exact ⟨_, List.mem_cons_of_mem _ List.mem_cons_self, rfl, rfl⟩
  have hrun : Run.ofCode (.plusMinus, .less2) ∈ [(⟨.plusMinus, false, 2⟩ : Run)] :=
    List.mem_cons_self
  refine ⟨hnames, ((populate_means hnames _).2.2.1 _ _ hreads _).2 ⟨haccepts, ?_⟩⟩
  exact .cons ⟨rfl, .detent (by decide) hrun rfl⟩ (.cons ⟨rfl, .listed rfl⟩ .nil)

end Schema

end IceFigures
