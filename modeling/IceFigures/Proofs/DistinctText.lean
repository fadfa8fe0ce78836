import IceFigures.Proofs.ParameterText
import IceFigures.Svg.Ident

/-!
# Different Texts

Different parameters are written differently, whatever numbers they hold. The
round trip of parameters does not say so, since numbers beyond the limits of a
list are not read back; the parts of a figure may well have such numbers.

A text of parameters falls apart into short codes and a list. The short codes
tell which fields take a detent, the list tells which fields have a value of
their own, and every other field is at its default. A list falls apart into
entries where a number, a quoted text or a flag ends.

Names of definitions are spelled character by character. A character that is
spelled out begins and ends with an underscore, and no other character brings
one in.

## Theorems

* `Value.chars_append_inj`: Values are told apart, and from what follows them.
* `entries_append_inj`: Lists of parameters are told apart.
* `Schema.write_injective`: Parameters of a schema are told apart.
* `Svg.isPlain_of_mem_identChars`: What names are made of.
* `Svg.identChars_injective`: Names are told apart.
-/

namespace IceFigures

open Text (Stops)

/-! ### Values -/

/-- A number is told apart from what stands behind it. -/
theorem decimal_append_inj {m n : Int} {a b : List Char} (ha : Stops Text.isDigit a)
    (hb : Stops Text.isDigit b) (h : Text.decimal m ++ a = Text.decimal n ++ b) :
    m = n ∧ a = b := by
  have hsign := congrArg readSign h
  rw [readSign_decimal_append, readSign_decimal_append, Prod.mk.injEq] at hsign
  rcases Text.toDigits_append_inj ha hb hsign.2 with ⟨hsize, hrest⟩
  refine ⟨?_, hrest⟩
  have hnegative : m < 0 ↔ n < 0 := by
    by_cases hm : m < 0
    · by_cases hn : n < 0
      · exact iff_of_true hm hn
      · rw [if_pos hm, if_neg hn] at hsign
        exact absurd hsign.1 (List.cons_ne_nil _ _)
    · by_cases hn : n < 0
      · rw [if_neg hm, if_pos hn] at hsign
        exact absurd hsign.1.symm (List.cons_ne_nil _ _)
      · exact iff_of_false hm hn
  omega

theorem decimal_append_ne_cons (n : Int) {c : Char} (hdigit : Text.isAsciiDigit c = false)
    (hminus : c ≠ '-') (a b : List Char) : Text.decimal n ++ a ≠ c :: b := by
  rcases decimal_eq_cons n with ⟨d, ds, hds, hd⟩
  rw [hds, List.cons_append]
  intro h
  rw [(List.cons.inj h).1] at hd
  rcases hd with hd | hd
  · rw [hdigit] at hd
    exact Bool.noConfusion hd
  · exact hminus hd

/-- A text in quotes is told apart from what stands behind it. -/
theorem quoted_append_inj {s t a b : List Char}
    (h : escapeText s ++ '\x22' :: a = escapeText t ++ '\x22' :: b) : s = t ∧ a = b := by
  have hread := congrArg readQuoted? h
  rw [readQuoted?_escapeText_append, readQuoted?_escapeText_append, Option.some.injEq,
    Prod.mk.injEq] at hread
  exact hread

namespace Value

theorem chars_text_append (s : String) (a : List Char) :
    (text s).chars ++ a = '\x22' :: (escapeText s.toList ++ '\x22' :: a) := by
  rw [chars, List.cons_append, List.cons_append, List.append_assoc, List.singleton_append]

theorem chars_flag_true : (flag true).chars = ['t', 'r', 'u', 'e'] := rfl

theorem chars_flag_false : (flag false).chars = ['f', 'a', 'l', 's', 'e'] := rfl

/-- A flag starts with a letter. -/
theorem chars_flag_eq_cons (b : Bool) : ∃ c cs, (flag b).chars = c :: cs ∧ c.isAlpha = true := by
  cases b with
  | false => exact ⟨_, _, chars_flag_false, by decide⟩
  | true => exact ⟨_, _, chars_flag_true, by decide⟩

theorem chars_flag_ne_number (b : Bool) (n : Int) (x y : List Char) :
    Text.decimal n ++ x ≠ (flag b).chars ++ y := by
  rcases chars_flag_eq_cons b with ⟨c, cs, hcs, hc⟩
  rw [hcs, List.cons_append]
  refine decimal_append_ne_cons n (isAsciiDigit_of_isAlpha hc) ?_ x _
  rintro rfl
  exact absurd hc (by decide)

theorem chars_flag_ne_text (b : Bool) (s : String) (x y : List Char) :
    (text s).chars ++ x ≠ (flag b).chars ++ y := by
  rcases chars_flag_eq_cons b with ⟨c, cs, hcs, hc⟩
  rw [chars_text_append, hcs, List.cons_append]
  intro h
  rw [← (List.cons.inj h).1] at hc
  exact absurd hc (by decide)

theorem chars_number_ne_text (n : Int) (s : String) (x y : List Char) :
    Text.decimal n ++ x ≠ (text s).chars ++ y := by
  rw [chars_text_append]
  exact decimal_append_ne_cons n (by decide) (by decide) x _

/-- Values are told apart, and from what stands behind them. -/
theorem chars_append_inj {v w : Value} {x y : List Char} (hx : Stops Text.isDigit x)
    (hy : Stops Text.isDigit y) (h : v.chars ++ x = w.chars ++ y) : v = w ∧ x = y := by
  cases v with
  | number m =>
      cases w with
      | number n =>
          rcases decimal_append_inj hx hy h with ⟨rfl, hrest⟩
          exact ⟨rfl, hrest⟩
      | text t => exact absurd h (chars_number_ne_text m t x y)
      | flag b => exact absurd h (chars_flag_ne_number b m x y)
  | text s =>
      cases w with
      | number n => exact absurd h.symm (chars_number_ne_text n s y x)
      | text t =>
          rw [chars_text_append, chars_text_append, List.cons.injEq] at h
          rcases quoted_append_inj h.2 with ⟨hst, hrest⟩
          exact ⟨congrArg text (String.toList_injective hst), hrest⟩
      | flag b => exact absurd h (chars_flag_ne_text b s x y)
  | flag b =>
      cases w with
      | number n => exact absurd h.symm (chars_flag_ne_number b n y x)
      | text t => exact absurd h.symm (chars_flag_ne_text b t y x)
      | flag c =>
          cases b with
          | false =>
              cases c with
              | false => exact ⟨rfl, List.append_cancel_left h⟩
              | true => exact absurd (List.cons.inj h).1 (by decide)
          | true =>
              cases c with
              | false => exact absurd (List.cons.inj h).1 (by decide)
              | true => exact ⟨rfl, List.append_cancel_left h⟩

end Value

/-! ### Lists -/

theorem Param.eq_of_parts {p q : Param} (hname : p.name = q.name) (hvalue : p.value = q.value) :
    p = q := by
  rcases p with ⟨name, v⟩
  rcases q with ⟨name', w⟩
  rw [Param.mk.injEq]
  exact ⟨hname, hvalue⟩

/-- Entries of a list are told apart, and from what stands behind them. -/
theorem Param.chars_append_inj {p q : Param} {x y : List Char}
    (hp : isName p.name.toList = true) (hq : isName q.name.toList = true)
    (hx : Stops Text.isDigit x) (hy : Stops Text.isDigit y) (h : p.chars ++ x = q.chars ++ y) :
    p = q ∧ x = y := by
  have hname : ∀ {cs : List Char}, isName cs = true → ∀ c ∈ cs, isNameChar c = true := by
    intro cs hcs c hc
    cases cs with
    | nil => exact absurd hc List.not_mem_nil
    | cons d ds =>
        rw [isName, Bool.and_eq_true, List.all_eq_true] at hcs
        rcases List.mem_cons.1 hc with rfl | hc
        · rw [isNameChar, Char.isAlphanum, hcs.1]
          rfl
        · exact hcs.2 c hc
  have hstop : ∀ tail, Stops isNameChar ('=' :: tail) := fun _ => Text.stops_cons.2 (by decide)
  rw [Param.chars, Param.chars, List.append_assoc, List.append_assoc, List.cons_append,
    List.cons_append] at h
  have htake := congrArg (List.takeWhile isNameChar) h
  have hdrop := congrArg (List.dropWhile isNameChar) h
  rw [Text.takeWhile_append_of_stops (hname hp) (hstop _),
    Text.takeWhile_append_of_stops (hname hq) (hstop _)] at htake
  rw [Text.dropWhile_append_of_stops (hname hp) (hstop _),
    Text.dropWhile_append_of_stops (hname hq) (hstop _), List.cons.injEq] at hdrop
  rcases Value.chars_append_inj hx hy hdrop.2 with ⟨hvalue, hrest⟩
  exact ⟨Param.eq_of_parts (String.toList_injective htake) hvalue, hrest⟩

-- By induction on the first list. A comma follows an entry if another one does,
-- and the bracket if none does, so the lists end together.
theorem entries_append_inj {p q : Param} {ps qs : List Param}
    (hps : ∀ r ∈ p :: ps, isName r.name.toList = true)
    (hqs : ∀ r ∈ q :: qs, isName r.name.toList = true)
    (h : [','].intercalate ((p :: ps).map Param.chars) ++ [']'] =
      [','].intercalate ((q :: qs).map Param.chars) ++ [']']) : p :: ps = q :: qs := by
  have hp := hps p List.mem_cons_self
  have hq := hqs q List.mem_cons_self
  have hcomma : ∀ tail, Stops Text.isDigit (',' :: tail) :=
    fun _ => Text.stops_cons.2 (by decide)
  have hbracket : Stops Text.isDigit [']'] := Text.stops_cons.2 (by decide)
  have hcons : ∀ (r s : Param) (rs : List Param),
      [','].intercalate ((r :: s :: rs).map Param.chars) ++ [']'] =
        r.chars ++ ',' :: ([','].intercalate ((s :: rs).map Param.chars) ++ [']']) := by
    intro r s rs
    rw [List.map_cons, List.map_cons, List.intercalate_cons_cons, ← List.map_cons,
      List.append_assoc, List.append_assoc, List.singleton_append]
  have hsingle : ∀ r : Param,
      [','].intercalate ([r].map Param.chars) ++ [']'] = r.chars ++ [']'] := by
    intro r
    rw [List.map_singleton, List.intercalate_singleton]
  induction ps generalizing p q qs with
  | nil =>
      rw [hsingle] at h
      cases qs with
      | nil =>
          rw [hsingle] at h
          rw [(Param.chars_append_inj hp hq hbracket hbracket h).1]
      | cons s qs =>
          rw [hcons] at h
          exact absurd (Param.chars_append_inj hp hq hbracket (hcomma _) h).2
            fun hends => absurd (List.cons.inj hends).1 (by decide)
  | cons r ps ih =>
      rw [hcons] at h
      cases qs with
      | nil =>
          rw [hsingle] at h
          exact absurd (Param.chars_append_inj hp hq (hcomma _) hbracket h).2
            fun hends => absurd (List.cons.inj hends).1 (by decide)
      | cons s qs =>
          rw [hcons] at h
          rcases Param.chars_append_inj hp hq (hcomma _) (hcomma _) h with ⟨rfl, hrest⟩
          rw [ih (fun t ht => hps t (List.mem_cons_of_mem p ht))
            (fun t ht => hqs t (List.mem_cons_of_mem p ht)) (List.cons.inj hrest).2
            (hps r (List.mem_cons_of_mem p List.mem_cons_self))
            (hqs s (List.mem_cons_of_mem p List.mem_cons_self))]

/-- What may be at the head of a list is told apart from the rest, if it is not
    found in the other one. -/
theorem toList_append_inj {α : Type} {o o' : Option α} {l l' : List α} (ho : ∀ x ∈ o, x ∉ l')
    (ho' : ∀ x ∈ o', x ∉ l) (h : o.toList ++ l = o'.toList ++ l') : o = o' ∧ l = l' := by
  cases o with
  | none =>
      cases o' with
      | none => exact ⟨rfl, h⟩
      | some y =>
          have hl : l = y :: l' := h
          exact absurd (hl ▸ List.mem_cons_self) (ho' y rfl)
  | some x =>
      cases o' with
      | none =>
          have hl : x :: l = l' := h
          exact absurd (hl ▸ List.mem_cons_self) (ho x rfl)
      | some y =>
          rcases List.cons.inj h with ⟨rfl, hrest⟩
          exact ⟨rfl, hrest⟩

namespace Schema

theorem writeList_inj {p q : Param} {ps qs : List Param}
    (hps : ∀ r ∈ p :: ps, isName r.name.toList = true)
    (hqs : ∀ r ∈ q :: qs, isName r.name.toList = true)
    (h : writeList (p :: ps) = writeList (q :: qs)) : p :: ps = q :: qs :=
  entries_append_inj hps hqs (List.cons.inj h).2

/-- Parameters with the names of the fields of a schema, in its order. -/
def Names (schema : Schema) (ps : List Param) : Prop :=
  List.Forall₂ (fun f p => p.name = f.name) schema ps

theorem names_iff {schema : Schema} {ps : List Param} :
    schema.Names ps ↔ ps.map Param.name = schema.names := by
  rw [Names, names, ← List.forall₂_eq_eq_eq, List.forall₂_map_left_iff,
    List.forall₂_map_right_iff]
  exact ⟨fun h => h.flip, fun h => h.flip⟩

theorem codesOf_cons (f : Field) (fs : Schema) (p : Param) (ps : List Param) :
    codesOf (f :: fs) (p :: ps) = (codeOf f p).toList ++ codesOf fs ps := by
  rw [codesOf, List.zip_cons_cons, List.filterMap_cons]
  simp only
  cases codeOf f p <;> rfl

/-- A parameter, if it is listed. -/
def listing (f : Field) (p : Param) : Option Param :=
  if isListed f p then some p else none

theorem listed_cons (f : Field) (fs : Schema) (p : Param) (ps : List Param) :
    listed (f :: fs) (p :: ps) = (listing f p).toList ++ listed fs ps := by
  rw [listed, List.zip_cons_cons, List.filter_cons, listing]
  by_cases h : isListed f p = true
  · simp only [if_pos h]
    rfl
  · simp only [if_neg h]
    rfl

/-- A parameter is known from its code and from where it is listed. -/
theorem eq_of_codeOf_of_listing {f : Field} {p q : Param} (hp : p.name = f.name)
    (hq : q.name = f.name) (hcode : codeOf f p = codeOf f q)
    (hlisting : listing f p = listing f q) : p = q := by
  cases hc : codeOf f p with
  | some code =>
      rcases codeOf_eq_some hc with ⟨s, hs, -, hvalue⟩
      rw [hcode] at hc
      rcases codeOf_eq_some hc with ⟨s', hs', -, hvalue'⟩
      rw [hs, Option.some.injEq] at hs'
      rw [← hs'] at hvalue'
      exact Param.eq_of_parts (hp.trans hq.symm) (hvalue.trans hvalue'.symm)
  | none =>
      have hlisted : ∀ r, codeOf f r = none → (isListed f r = true ↔ r.value ≠ f.default) := by
        intro r hr
        rw [isListed_iff, and_iff_left hr]
      have hp' := hlisted p hc
      have hq' := hlisted q (hcode ▸ hc)
      unfold listing at hlisting
      by_cases hpl : isListed f p = true
      · rw [if_pos hpl] at hlisting
        split at hlisting
        · exact Option.some.inj hlisting
        · exact absurd hlisting (by simp only [reduceCtorEq, not_false_eq_true])
      · rw [if_neg hpl] at hlisting
        split at hlisting
        · exact absurd hlisting.symm (by simp only [reduceCtorEq, not_false_eq_true])
        · rename_i hql
          have hpd := not_not.1 fun hne => hpl (hp'.2 hne)
          have hqd := not_not.1 fun hne => hql (hq'.2 hne)
          exact Param.eq_of_parts (hp.trans hq.symm) (hpd.trans hqd.symm)

/-- No later field has a code of the kind of an earlier one. -/
theorem codeOf_not_mem {f : Field} {fs : Schema} (hkinds : (shortKinds (f :: fs)).Nodup) (p : Param)
    (qs : List Param) : ∀ code ∈ codeOf f p, code ∉ codesOf fs qs := by
  intro code hcode hmem
  rcases codeOf_eq_some hcode with ⟨s, hs, hkind, -⟩
  have hlater : code.1 ∈ shortKinds fs :=
    (codesOf_kinds_sublist fs qs).subset (List.mem_map_of_mem hmem)
  rw [shortKinds, List.filterMap_cons, hs] at hkinds
  simp only [Option.map_some, List.nodup_cons, hkind] at hkinds
  exact hkinds.1 hlater

/-- No later field is listed with the name of an earlier one. -/
theorem listing_not_mem {f : Field} {fs : Schema} (hnames : (names (f :: fs)).Nodup) {p : Param}
    (hp : p.name = f.name) {qs : List Param} (hqs : fs.Names qs) :
    ∀ r ∈ listing f p, r ∉ listed fs qs := by
  intro r hr hmem
  have hrp : r = p := by
    unfold listing at hr
    split at hr
    · exact (Option.some.inj hr).symm
    · simp only [Option.mem_def, reduceCtorEq] at hr
  rcases mem_listed hmem with ⟨g, hzip, -⟩
  have hname : r.name = g.name := (List.forall₂_iff_zip.1 hqs).2 hzip
  rw [names, List.map_cons, List.nodup_cons] at hnames
  refine hnames.1 ?_
  rw [← hp, ← hrp, hname]
  exact List.mem_map_of_mem (List.of_mem_zip hzip).1

-- By induction on the fields. A field takes part in the codes or in the list, and
-- no later field can take its part in its place.
theorem eq_of_codesOf_of_listed {schema : Schema} (hnames : schema.names.Nodup)
    (hkinds : schema.shortKinds.Nodup) {ps qs : List Param} (hps : schema.Names ps)
    (hqs : schema.Names qs) (hcodes : codesOf schema ps = codesOf schema qs)
    (hlisted : listed schema ps = listed schema qs) : ps = qs := by
  induction schema generalizing ps qs with
  | nil =>
      cases hps
      cases hqs
      rfl
  | cons f fs ih =>
      rcases List.forall₂_cons_left_iff.1 hps with ⟨p, ps', hp, hps', rfl⟩
      rcases List.forall₂_cons_left_iff.1 hqs with ⟨q, qs', hq, hqs', rfl⟩
      rw [codesOf_cons, codesOf_cons] at hcodes
      rw [listed_cons, listed_cons] at hlisted
      have hcode := toList_append_inj (codeOf_not_mem hkinds p qs') (codeOf_not_mem hkinds q ps')
        hcodes
      have hlisting := toList_append_inj (listing_not_mem hnames hp hqs')
        (listing_not_mem hnames hq hps') hlisted
      have hkinds' : (shortKinds fs).Nodup :=
        hkinds.sublist ((List.sublist_cons_self f fs).filterMap _)
      rw [eq_of_codeOf_of_listing hp hq hcode.1 hlisting.1,
        ih (List.nodup_cons.1 hnames).2 hkinds' hps' hqs' hcode.2 hlisting.2]

/-- The names in a list are those of fields. -/
theorem isName_of_mem_listed {schema : Schema} (hs : schema.Unambiguous) {ps : List Param}
    (hps : schema.Names ps) : ∀ p ∈ listed schema ps, isName p.name.toList = true := by
  intro p hp
  rcases mem_listed hp with ⟨f, hzip, -⟩
  rw [(List.forall₂_iff_zip.1 hps).2 hzip]
  exact hs.isName f (List.of_mem_zip hzip).1

/-- The text of parameters, cut where the short codes end. -/
theorem write_cut (schema : Schema) (ps : List Param) :
    (write schema ps).takeWhile isShortChar = writeShort schema ps ∧
      (write schema ps).dropWhile isShortChar =
        if (listed schema ps).isEmpty then [] else writeList (listed schema ps) := by
  have hregion : ∀ c ∈ writeShort schema ps, isShortChar c = true :=
    fun c hc => isShortChar_of_mem_writeShort hc
  unfold write
  simp only
  by_cases hempty : (listed schema ps).isEmpty = true
  · rw [if_pos hempty, if_pos hempty]
    exact ⟨List.takeWhile_eq_self_iff.2 hregion, List.dropWhile_eq_nil_iff.2 hregion⟩
  · rw [if_neg hempty, if_neg hempty]
    exact ⟨Text.takeWhile_append_of_stops hregion (stops_writeList _),
      Text.dropWhile_append_of_stops hregion (stops_writeList _)⟩

/-- Different parameters of a schema are written differently. -/
theorem write_injective {schema : Schema} (hs : schema.Unambiguous) {ps qs : List Param}
    (hps : schema.Names ps) (hqs : schema.Names qs) (h : write schema ps = write schema qs) :
    ps = qs := by
  have htake := congrArg (List.takeWhile isShortChar) h
  have hdrop := congrArg (List.dropWhile isShortChar) h
  rw [(write_cut schema ps).1, (write_cut schema qs).1] at htake
  rw [(write_cut schema ps).2, (write_cut schema qs).2] at hdrop
  have hcodes : codesOf schema ps = codesOf schema qs := by
    have hlevels : ∀ rs, shortLevels (writeShort schema rs) = .ok (codesOf schema rs) := by
      intro rs
      rw [writeShort_eq]
      exact shortLevels_flatMap_signs
        (hs.shortKinds_nodup.sublist (codesOf_kinds_sublist schema rs))
    have hok := hlevels ps
    rw [htake, hlevels qs, Except.ok.injEq] at hok
    exact hok.symm
  have hlisted : listed schema ps = listed schema qs := by
    have hps' := isName_of_mem_listed hs hps
    have hqs' := isName_of_mem_listed hs hqs
    generalize listed schema ps = ls at hdrop hps'
    generalize listed schema qs = rs at hdrop hqs'
    cases ls with
    | nil =>
        cases rs with
        | nil => rfl
        | cons r rs => exact absurd hdrop.symm (List.cons_ne_nil _ _)
    | cons l ls =>
        cases rs with
        | nil => exact absurd hdrop (List.cons_ne_nil _ _)
        | cons r rs => exact writeList_inj hps' hqs' hdrop
  exact eq_of_codesOf_of_listed hs.names_nodup hs.shortKinds_nodup hps hqs hcodes hlisted

end Schema

/-! ### Names of definitions -/

namespace Svg

theorem hexadecimal_eq (n : Nat) :
    Text.hexadecimal n =
      if n < 16 then [n.digitChar] else Text.hexadecimal (n / 16) ++ [(n % 16).digitChar] :=
  Nat.toDigits_eq_if (by decide)

theorem digitChar_injective : ∀ m < 16, ∀ n < 16, Nat.digitChar m = Nat.digitChar n → m = n := by
  decide

/-- Hexadecimal digits stand for one number. -/
theorem hexadecimal_injective : Function.Injective Text.hexadecimal := by
  have hlonger : ∀ k (c d : Char), Text.hexadecimal k ++ [c] ≠ [d] := by
    intro k c d h
    have hlength := congrArg List.length h
    rw [List.length_append, List.length_singleton, List.length_singleton] at hlength
    have hempty : (Text.hexadecimal k).length = 0 := by omega
    exact Nat.toDigits_ne_nil (List.length_eq_zero_iff.1 hempty)
  intro m
  induction m using Nat.strongRecOn with
  | ind m ih =>
      intro n h
      rw [hexadecimal_eq m, hexadecimal_eq n] at h
      by_cases hm : m < 16
      · by_cases hn : n < 16
        · rw [if_pos hm, if_pos hn] at h
          exact digitChar_injective m hm n hn (List.cons.inj h).1
        · rw [if_pos hm, if_neg hn] at h
          exact absurd h.symm (hlonger _ _ _)
      · by_cases hn : n < 16
        · rw [if_neg hm, if_pos hn] at h
          exact absurd h (hlonger _ _ _)
        · rw [if_neg hm, if_neg hn] at h
          rcases List.append_inj' h rfl with ⟨hfirst, hlast⟩
          have hquotient := ih (m / 16) (by omega) hfirst
          have hremainder := digitChar_injective (m % 16) (by omega) (n % 16) (by omega)
            (List.cons.inj hlast).1
          omega

/-- What holds of all hexadecimal digits holds of those of a number. -/
theorem of_mem_hexadecimal {P : Char → Prop} (hP : ∀ d < 16, P (Nat.digitChar d)) {n : Nat}
    {c : Char} (h : c ∈ Text.hexadecimal n) : P c := by
  induction n using Nat.strongRecOn with
  | ind n ih =>
      rw [hexadecimal_eq] at h
      by_cases hn : n < 16
      · rw [if_pos hn, List.mem_singleton] at h
        rw [h]
        exact hP n hn
      · rw [if_neg hn, List.mem_append, List.mem_singleton] at h
        rcases h with h | rfl
        · exact ih (n / 16) (by omega) h
        · exact hP _ (Nat.mod_lt n (by decide))

theorem not_underscore_of_mem_hexadecimal {n : Nat} {c : Char} (h : c ∈ Text.hexadecimal n) :
    c ≠ '_' :=
  of_mem_hexadecimal (P := (· ≠ '_')) (by decide) h

/-- Names hold plain characters and underscores. -/
theorem isPlain_of_mem_identChars {cs : List Char} {c : Char} (h : c ∈ identChars cs) :
    isPlain c = true ∨ c = '_' := by
  rcases List.mem_flatMap.1 h with ⟨d, -, hd⟩
  unfold spell at hd
  by_cases hplain : isPlain d = true
  · rw [if_pos hplain, List.mem_singleton] at hd
    exact Or.inl (hd ▸ hplain)
  · rw [if_neg hplain, List.cons_append, List.mem_cons, List.mem_append, List.mem_singleton] at hd
    rcases hd with rfl | hdigit | rfl
    · exact Or.inr rfl
    · exact Or.inl (of_mem_hexadecimal (P := fun e => isPlain e = true) (by decide) hdigit)
    · exact Or.inr rfl

theorem not_underscore_of_isPlain {c : Char} (h : isPlain c = true) : c ≠ '_' := by
  rintro rfl
  exact absurd h (by decide)

/-- A character in a name is told apart from what stands behind it. -/
theorem spell_append_inj {c d : Char} {x y : List Char} (h : spell c ++ x = spell d ++ y) :
    c = d ∧ x = y := by
  unfold spell at h
  by_cases hc : isPlain c = true
  · by_cases hd : isPlain d = true
    · rw [if_pos hc, if_pos hd] at h
      exact List.cons.inj h
    · rw [if_pos hc, if_neg hd] at h
      exact absurd (List.cons.inj h).1 (not_underscore_of_isPlain hc)
  · by_cases hd : isPlain d = true
    · rw [if_neg hc, if_pos hd] at h
      exact absurd (List.cons.inj h).1.symm (not_underscore_of_isPlain hd)
    · have hspelled : ∀ n tail, '_' :: Text.hexadecimal n ++ ['_'] ++ tail =
          '_' :: (Text.hexadecimal n ++ '_' :: tail) := by
        intro n tail
        rw [List.cons_append, List.cons_append, List.append_assoc, List.singleton_append]
      rw [if_neg hc, if_neg hd, hspelled, hspelled, List.cons.injEq] at h
      have hdigits : ∀ n, ∀ e ∈ Text.hexadecimal n, (e != '_') = true :=
        fun _ _ he => bne_iff_ne.2 (not_underscore_of_mem_hexadecimal he)
      have hstop : ∀ tail, Stops (· != '_') ('_' :: tail) := fun _ => Text.stops_cons.2 (by decide)
      have htake := congrArg (List.takeWhile (· != '_')) h.2
      have hdrop := congrArg (List.dropWhile (· != '_')) h.2
      rw [Text.takeWhile_append_of_stops (hdigits _) (hstop _),
        Text.takeWhile_append_of_stops (hdigits _) (hstop _)] at htake
      rw [Text.dropWhile_append_of_stops (hdigits _) (hstop _),
        Text.dropWhile_append_of_stops (hdigits _) (hstop _)] at hdrop
      exact ⟨Char.toNat_inj.1 (hexadecimal_injective htake), (List.cons.inj hdrop).2⟩

theorem spell_ne_nil (c : Char) : spell c ≠ [] := by
  unfold spell
  split
  · exact List.cons_ne_nil _ _
  · exact List.cons_ne_nil _ _

/-- Different texts have different names. -/
theorem identChars_injective : Function.Injective identChars := by
  intro cs
  induction cs with
  | nil =>
      intro ds h
      cases ds with
      | nil => rfl
      | cons d ds =>
          have hnil : spell d ++ identChars ds = [] := h.symm
          exact absurd (List.append_eq_nil_iff.1 hnil).1 (spell_ne_nil d)
  | cons c cs ih =>
      intro ds h
      cases ds with
      | nil =>
          have hnil : spell c ++ identChars cs = [] := h
          exact absurd (List.append_eq_nil_iff.1 hnil).1 (spell_ne_nil c)
      | cons d ds =>
          rcases spell_append_inj (h : spell c ++ identChars cs = spell d ++ identChars ds) with
            ⟨rfl, hrest⟩
          rw [ih hrest]

end Svg

end IceFigures
