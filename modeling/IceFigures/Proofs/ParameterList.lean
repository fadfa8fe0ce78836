import IceFigures.Param.Codec
import IceFigures.Proofs.Numerals
import IceFigures.Proofs.Outcomes
import Mathlib.Data.List.Basic

/-!
# Parameter Lists Read Back

A bracketed list of parameters is read back as the parameters it was written
for.

Each reader is handed the written form of one thing with an arbitrary rest
behind it and has to stop exactly where that rest begins. What the rest may not
start with is said with `Stops`: a number must not run on into another digit,
nor a flag into a longer name. In a list the rest starts with a comma or the
closing bracket, which satisfies both.

Texts need no such condition. Every quote and backslash inside is escaped, so
the first bare quote is the closing one (`readQuoted?_escapeText_append`).

In the other direction, what a list holds came from its text:
`parseList_forall` carries any property of the values that `Value.read` can
yield over to all entries of a list.

## Main definitions

* `isName`: Whether a text is a parameter name.
* `Value.IsListable`: Values that a list can hold.
* `Value.EndsBefore`: What may follow a value so that it ends there.
* `Value.TextIn`: Values whose characters all have a property.

## Theorems

* `readQuoted?_escapeText_append`: An escaped text is read back.
* `Value.read_chars_append`: A listable value is read back.
* `readEntry_chars_append`: An entry is read back.
* `readEntries_append`: The entries of a list are read back.
* `parseList_writeList`: A whole list is read back.
* `Value.isListable_of_read`: Only listable values are read.
* `Value.textIn_of_read`: Texts are read from the text.
* `parseList_forall`: What holds of all values read holds of all entries.
* `Value.read_chars_append_iff`: Which values end before what.
* `Value.reads_back`: The same for texts, flags and numbers.
-/

namespace IceFigures

open Text (Stops)

/-- Whether a text is a parameter name: a letter, then letters, digits,
    underscores and hyphens. -/
def isName : List Char → Bool
  | [] => false
  | c :: cs => c.isAlpha && cs.all isNameChar

namespace Value

/-- Values that a list can hold: every text and flag, and numbers within its
    limits. -/
def IsListable : Value → Prop
  | number n => minNumber ≤ n ∧ n ≤ maxNumber
  | _ => True

instance (v : Value) : Decidable v.IsListable := by
  cases v <;> unfold IsListable <;> infer_instance

/-- Texts that do not go on with a value in front of them: a flag must not run on
    into a longer name, nor a number into another digit. -/
def EndsBefore : Value → List Char → Prop
  | text _, _ => True
  | flag _, rest => Stops isNameChar rest
  | number _, rest => Stops Text.isDigit rest

/-- Values in whose text every character has a property. -/
def TextIn (P : Char → Prop) : Value → Prop
  | text s => ∀ c ∈ s.toList, P c
  | _ => True

instance (P : Char → Prop) [DecidablePred P] (v : Value) : Decidable (v.TextIn P) := by
  cases v <;> unfold TextIn <;> infer_instance

theorem TextIn.mono {P Q : Char → Prop} {v : Value} (h : v.TextIn P) (hPQ : ∀ c, P c → Q c) :
    v.TextIn Q := by
  cases v with
  | text s => exact fun c hc => hPQ c (h c hc)
  | _ => trivial

end Value

/-! ### Values -/

/-- An escaped text is read back up to its closing quote. -/
theorem readQuoted?_escapeText_append (s rest : List Char) :
    readQuoted? (escapeText s ++ '\x22' :: rest) = some (s, rest) := by
  induction s with
  | nil => rfl
  | cons c cs ih =>
      rw [escapeText, List.flatMap_cons, List.append_assoc, ← escapeText]
      unfold escapeChar
      by_cases hc : (c = '\\' || c = '\x22') = true
      · -- The backslash in front drops out, and `c` is no line end.
        rw [if_pos hc]
        have hline : c ≠ '\n' := by
          intro h
          subst h
          exact absurd hc (by decide)
        simp only [List.cons_append, List.nil_append, readQuoted?, if_neg hline, ih,
          Option.map_some]
      · rw [if_neg hc]
        simp only [Bool.or_eq_true, decide_eq_true_eq, not_or] at hc
        simp only [List.cons_append, List.nil_append]
        rw [readQuoted?.eq_4 c _ (fun h _ => hc.1 h) (fun _ _ h _ => hc.1 h), if_neg hc.2, ih,
          Option.map_some]

theorem decimal_ofNat (n : Nat) : Text.decimal (n : Int) = Nat.toDigits 10 n := rfl

/-- A number is written as a sign, perhaps, and the digits of its size. -/
theorem decimal_eq (n : Int) :
    Text.decimal n = (if n < 0 then ['-'] else []) ++ Nat.toDigits 10 n.natAbs := by
  cases n with
  | ofNat m =>
      rw [if_neg (by simp only [Int.ofNat_eq_natCast, Int.not_lt, Int.natCast_nonneg])]
      rfl
  | negSucc m => rw [if_pos (Int.negSucc_lt_zero m)]; rfl

/-- The first character of a number's digits. -/
theorem toDigits_eq_cons (n : Nat) :
    ∃ d ds, Nat.toDigits 10 n = d :: ds ∧ Text.isAsciiDigit d = true := by
  cases h : Nat.toDigits 10 n with
  | nil => exact absurd h Nat.toDigits_ne_nil
  | cons d ds =>
      exact ⟨d, ds, rfl, Text.isAsciiDigit_of_mem_toDigits (by rw [h]; exact List.mem_cons_self)⟩

/-- A digit differs from every character that is none. -/
theorem ne_of_isAsciiDigit {d c : Char} (hd : Text.isAsciiDigit d = true)
    (hc : Text.isAsciiDigit c = false) : d ≠ c := by
  intro h
  rw [h, hc] at hd
  exact Bool.noConfusion hd

/-- Letters are no digits. -/
theorem isAsciiDigit_of_isAlpha {c : Char} (h : c.isAlpha = true) :
    Text.isAsciiDigit c = false := by
  have hletter := Text.toNat_of_isAlpha h
  rw [Bool.eq_false_iff]
  intro hdigit
  have := Text.toNat_of_isAsciiDigit hdigit
  omega

theorem readSign_decimal_append (n : Int) (rest : List Char) :
    readSign (Text.decimal n ++ rest) =
      (if n < 0 then ['-'] else [], Nat.toDigits 10 n.natAbs ++ rest) := by
  rw [decimal_eq]
  by_cases hn : n < 0
  · rw [if_pos hn]
    rfl
  · rw [if_neg hn, List.nil_append]
    rcases toDigits_eq_cons n.natAbs with ⟨d, ds, hds, hd⟩
    rw [hds, List.cons_append]
    exact readSign.eq_3 _ (fun _ h => ne_of_isAsciiDigit hd (by decide) (List.cons.inj h).1)
      (fun _ h => ne_of_isAsciiDigit hd (by decide) (List.cons.inj h).1)

/-- A number starts with a digit or a minus sign. -/
theorem decimal_eq_cons (n : Int) :
    ∃ d ds, Text.decimal n = d :: ds ∧ (Text.isAsciiDigit d = true ∨ d = '-') := by
  rcases toDigits_eq_cons n.natAbs with ⟨d, ds, hds, hd⟩
  rw [decimal_eq, hds]
  by_cases hn : n < 0
  · rw [if_pos hn]
    exact ⟨'-', d :: ds, rfl, Or.inr rfl⟩
  · rw [if_neg hn]
    exact ⟨d, ds, rfl, Or.inl hd⟩

namespace Value

/-- Listable numbers have ten digits at most. -/
theorem isShort_of_isListable {n : Int} (h : (number n).IsListable) : Text.IsShort 10 n := by
  have hrange : minNumber ≤ n ∧ n ≤ maxNumber := h
  unfold minNumber maxNumber at hrange
  unfold Text.IsShort
  omega

/-- Listable values are short enough to be written. -/
theorem isWritable_of_isListable {v : Value} (h : v.IsListable) : v.isWritable = true := by
  cases v with
  | number n => exact (isShort_of_isListable h).isWritable (by decide)
  | _ => rfl

theorem numberOf_toDigits {n : Int} (h : (number n).IsListable) :
    numberOf (if n < 0 then ['-'] else []) (Nat.toDigits 10 n.natAbs) = .ok (number n) := by
  have hrange : minNumber ≤ n ∧ n ≤ maxNumber := h
  have hwritable : Text.isWritable n = true := isWritable_of_isListable h
  change Text.isWritable (n.natAbs : Int) = true at hwritable
  unfold numberOf
  rw [numberOfDigits_toDigits hwritable]
  have hsign : (if (if n < 0 then ['-'] else []) = ['-'] then -(n.natAbs : Int)
      else (n.natAbs : Int)) = n := by
    by_cases hn : n < 0
    · rw [if_pos hn, if_pos rfl]
      omega
    · rw [if_neg hn, if_neg (by decide)]
      omega
  simp only [bind, Except.bind, pure, Except.pure, hsign]
  rw [if_pos hrange]

/-- The words of flags start with letters. -/
theorem readFlag?_eq_none {cs : List Char} (h : Stops Char.isAlpha cs) : readFlag? cs = none := by
  have hafter : ∀ (c : Char) (w : List Char), c.isAlpha = true → afterWord? (c :: w) cs = none := by
    intro c w hc
    have hword : List.isPrefixOf? (c :: w) cs = none := by
      rw [Option.eq_none_iff_forall_ne_some]
      intro rest hrest
      obtain rfl := List.append_eq_of_isPrefixOf?_eq_some hrest
      exact Bool.noConfusion ((Text.stops_cons.1 h).symm.trans hc)
    rw [afterWord?, hword, Option.bind_none]
  simp only [readFlag?, List.findSome?_cons, List.findSome?_nil]
  rw [show "true".toList = 't' :: ['r', 'u', 'e'] from rfl,
    show "false".toList = 'f' :: ['a', 'l', 's', 'e'] from rfl, show "y".toList = ['y'] from rfl,
    show "Y".toList = ['Y'] from rfl, show "n".toList = ['n'] from rfl,
    show "N".toList = ['N'] from rfl]
  rw [hafter 't' _ rfl, hafter 'f' _ rfl, hafter 'y' _ rfl, hafter 'Y' _ rfl, hafter 'n' _ rfl,
    hafter 'N' _ rfl]
  rfl

/-- A word is recognised in front of what does not go on as a name. -/
theorem afterWord?_append (word : List Char) {rest : List Char} (hname : Stops isNameChar rest) :
    afterWord? word (word ++ rest) = some rest := by
  rw [afterWord?, List.isPrefixOf?_eq_some_iff_append_eq.2 rfl, Option.bind_some]
  cases rest with
  | nil => rfl
  | cons c cs =>
      rw [List.head?_cons, Option.any_some, Text.stops_cons.1 hname, if_neg Bool.false_ne_true]

theorem readFlag?_append (b : Bool) {rest : List Char} (hname : Stops isNameChar rest) :
    readFlag? ((flag b).chars ++ rest) = some (b, rest) := by
  cases b with
  | true =>
      rw [show (flag true).chars = "true".toList from rfl, readFlag?, List.findSome?_cons,
        afterWord?_append _ hname, Option.map_some]
  | false =>
      rw [show (flag false).chars = "false".toList from rfl, readFlag?, List.findSome?_cons,
        List.findSome?_cons, afterWord?_append _ hname, Option.map_some]
      rfl

/-- A listable value is read back, provided that what follows does not go on with it. -/
theorem read_chars_append {v : Value} (hv : v.IsListable) {rest : List Char}
    (hrest : v.EndsBefore rest) : read (v.chars ++ rest) = .ok (v, rest) := by
  cases v with
  | text s =>
      have hread : readText? ((text s).chars ++ rest) = some (text s, rest) := by
        simp only [chars, List.cons_append, List.append_assoc, List.nil_append, readText?, if_true,
          readQuoted?_escapeText_append, Option.map_some, String.ofList_toList]
      rw [read, hread]
  | flag b =>
      have htext : readText? ((flag b).chars ++ rest) = none := by cases b <;> rfl
      rw [read, htext, readFlag?_append b hrest]
  | number n =>
      rcases decimal_eq_cons n with ⟨d, ds, hds, hd⟩
      have htext : readText? (Text.decimal n ++ rest) = none := by
        have hquote : d ≠ '\x22' := by
          rcases hd with hd | rfl
          · exact ne_of_isAsciiDigit hd (by decide)
          · decide
        rw [hds, List.cons_append, readText?, if_neg hquote]
      have hflag : readFlag? (Text.decimal n ++ rest) = none := by
        have hletter : d.isAlpha = false := by
          rcases hd with hd | rfl
          · exact Text.isAlpha_of_isDigit (Text.isDigit_of_isAsciiDigit hd)
          · decide
        rw [hds, List.cons_append, readFlag?_eq_none (Text.stops_cons.2 hletter)]
      rw [read, show (number n).chars = Text.decimal n from rfl, htext, hflag,
        readSign_decimal_append]
      simp only [Text.readDigits?_toDigits_append n.natAbs hrest, numberOf_toDigits hv,
        Except.map]

/-- What goes on neither as a number nor as a name goes on with no value. -/
theorem endsBefore_of_stops (v : Value) {rest : List Char} (hdigit : Stops Text.isDigit rest)
    (hname : Stops isNameChar rest) : v.EndsBefore rest := by
  cases v with
  | text s => trivial
  | flag b => exact hname
  | number n => exact hdigit

/-- No blank stands in front of a value. -/
theorem dropBlanks_chars_append (v : Value) (rest : List Char) :
    Text.dropBlanks (v.chars ++ rest) = v.chars ++ rest := by
  have hcons : ∃ c cs, v.chars = c :: cs ∧ Text.isBlank c = false := by
    cases v with
    | text s => exact ⟨'\x22', _, rfl, by decide⟩
    | flag b => cases b <;> exact ⟨_, _, rfl, by decide⟩
    | number n =>
        rcases decimal_eq_cons n with ⟨d, ds, hds, hd⟩
        refine ⟨d, ds, hds, ?_⟩
        rcases hd with hd | rfl
        · exact Text.isBlank_of_isAsciiDigit hd
        · decide
  rcases hcons with ⟨c, cs, hcs, hc⟩
  rw [hcs, List.cons_append]
  exact Text.dropWhile_of_stops (Text.stops_cons.2 hc)

end Value

/-! ### Entries -/

/-- A name is read back, provided that what follows it does not go on as a name. -/
theorem readName?_append {name rest : List Char} (hn : isName name = true)
    (hname : Stops isNameChar rest) : readName? (name ++ rest) = some (name, rest) := by
  cases name with
  | nil => exact Bool.noConfusion hn
  | cons c cs =>
      rw [isName, Bool.and_eq_true, List.all_eq_true] at hn
      rw [List.cons_append, readName?, if_pos hn.1, Text.takeWhile_append_of_stops hn.2 hname,
        Text.dropWhile_append_of_stops hn.2 hname]

/-- What is read as a name is one, and stands at the start of the text. -/
theorem readName?_cases {cs name rest : List Char} (h : readName? cs = some (name, rest)) :
    isName name = true ∧ cs = name ++ rest := by
  unfold readName? at h
  split at h
  · simp only [reduceCtorEq] at h
  · rename_i c cs
    split at h
    · rename_i hc
      rw [Option.some.injEq, Prod.mk.injEq] at h
      rw [← h.1, ← h.2, isName, hc, List.all_takeWhile, List.cons_append,
        List.takeWhile_append_dropWhile]
      exact ⟨rfl, rfl⟩
    · simp only [reduceCtorEq] at h

/-- An entry is read back, provided that what follows it ends a value. -/
theorem readEntry_chars_append {p : Param} (hn : isName p.name.toList = true)
    (hv : p.value.IsListable) {rest : List Char} (hdigit : Stops Text.isDigit rest)
    (hname : Stops isNameChar rest) : readEntry (p.chars ++ rest) = .ok (p, rest) := by
  have hread : readName? (p.chars ++ rest) =
      some (p.name.toList, '=' :: (p.value.chars ++ rest)) := by
    rw [Param.chars, List.append_assoc, List.cons_append]
    exact readName?_append hn (Text.stops_cons.2 (by decide))
  have hsign : afterSign? '=' ('=' :: (p.value.chars ++ rest)) = some (p.value.chars ++ rest) := by
    rw [afterSign?, Text.dropBlanks, Text.dropWhile_of_stops (Text.stops_cons.2 (by decide))]
    simp only [if_true, Value.dropBlanks_chars_append]
  have hvalue := Value.read_chars_append hv (p.value.endsBefore_of_stops hdigit hname)
  unfold readEntry
  simp only [hread, hsign, hvalue, String.ofList_toList, bind, Except.bind, pure, Except.pure]

theorem readEntries_of_closing {cs rest tail : List Char} {p : Param}
    (he : readEntry cs = .ok (p, rest)) (hc : afterClosing? rest = some tail) :
    readEntries cs = .ok ([p], tail) := by
  rw [readEntries]
  split
  · rename_i e heq
    rw [he] at heq
    simp only [reduceCtorEq] at heq
  · rename_i q r heq
    rw [he, Except.ok.injEq, Prod.mk.injEq] at heq
    rcases heq with ⟨rfl, rfl⟩
    simp only [hc]

theorem readEntries_of_comma {cs rest next tail : List Char} {p : Param} {ps : List Param}
    (he : readEntry cs = .ok (p, rest)) (hc : afterClosing? rest = none)
    (hs : afterSign? ',' rest = some next) (hnext : readEntries next = .ok (ps, tail)) :
    readEntries cs = .ok (p :: ps, tail) := by
  rw [readEntries]
  split
  · rename_i e heq
    rw [he] at heq
    simp only [reduceCtorEq] at heq
  · rename_i q r heq
    rw [he, Except.ok.injEq, Prod.mk.injEq] at heq
    rcases heq with ⟨rfl, rfl⟩
    simp only [hc]
    split
    · rename_i heq
      rw [hs] at heq
      simp only [reduceCtorEq] at heq
    · rename_i m heq
      rw [hs, Option.some.injEq] at heq
      subst heq
      rw [hnext]

/-- The entries of a list start with the letter of a name. -/
theorem entries_eq_cons {p : Param} (hn : isName p.name.toList = true) (ps : List Param)
    (rest : List Char) :
    ∃ c cs, [','].intercalate ((p :: ps).map Param.chars) ++ rest = c :: cs ∧
      c.isAlpha = true := by
  rcases hp : p.name.toList with _ | ⟨c, cs⟩
  · rw [hp] at hn
    exact Bool.noConfusion hn
  rw [hp, isName, Bool.and_eq_true] at hn
  rw [List.map_cons]
  cases ps with
  | nil =>
      rw [List.map_nil, List.intercalate_singleton, Param.chars, hp]
      exact ⟨c, _, rfl, hn.1⟩
  | cons q qs =>
      rw [List.map_cons, List.intercalate_cons_cons, Param.chars, hp]
      exact ⟨c, _, rfl, hn.1⟩

theorem dropBlanks_entries {p : Param} (hn : isName p.name.toList = true) (ps : List Param)
    (rest : List Char) :
    Text.dropBlanks ([','].intercalate ((p :: ps).map Param.chars) ++ rest) =
      [','].intercalate ((p :: ps).map Param.chars) ++ rest := by
  rcases entries_eq_cons hn ps rest with ⟨c, cs, hcs, hc⟩
  rw [hcs]
  exact Text.dropWhile_of_stops (Text.stops_cons.2 (Text.isBlank_of_isAlpha hc))

/-- The entries of a list are read back up to its closing bracket. -/
theorem readEntries_append {p : Param} {ps : List Param}
    (h : ∀ q ∈ p :: ps, isName q.name.toList = true ∧ q.value.IsListable) (tail : List Char) :
    readEntries ([','].intercalate ((p :: ps).map Param.chars) ++ ']' :: tail) =
      .ok (p :: ps, tail) := by
  induction ps generalizing p with
  | nil =>
      rcases h p List.mem_cons_self with ⟨hn, hv⟩
      rw [List.map_cons, List.map_nil, List.intercalate_singleton]
      exact readEntries_of_closing
        (readEntry_chars_append hn hv (Text.stops_cons.2 (by decide))
          (Text.stops_cons.2 (by decide)))
        rfl
  | cons q qs ih =>
      rcases h p List.mem_cons_self with ⟨hn, hv⟩
      have hq := (h q (List.mem_cons_of_mem p List.mem_cons_self)).1
      have hrest := ih fun r hr => h r (List.mem_cons_of_mem p hr)
      rw [List.map_cons, List.map_cons, List.intercalate_cons_cons, ← List.map_cons,
        List.append_assoc, List.append_assoc, List.singleton_append]
      refine readEntries_of_comma
        (readEntry_chars_append hn hv (Text.stops_cons.2 (by decide))
          (Text.stops_cons.2 (by decide)))
        rfl ?_ hrest
      rw [afterSign?, Text.dropBlanks, Text.dropWhile_of_stops (Text.stops_cons.2 (by decide))]
      simp only [if_true, dropBlanks_entries hq]

/-- A whole list is read back. -/
theorem parseList_writeList {ps : List Param} (hne : ps ≠ [])
    (h : ∀ p ∈ ps, isName p.name.toList = true ∧ p.value.IsListable) :
    parseList (Schema.writeList ps) = .ok ps := by
  cases ps with
  | nil => exact absurd rfl hne
  | cons p ps =>
      have hn := (h p List.mem_cons_self).1
      have hclosing : afterClosing? ([','].intercalate ((p :: ps).map Param.chars) ++ [']']) =
          none := by
        rcases entries_eq_cons hn ps [']'] with ⟨c, cs, hcs, hc⟩
        rw [afterClosing?, dropBlanks_entries hn, hcs]
        split
        · rename_i heq
          rw [(List.cons.inj heq).1] at hc
          exact absurd hc (by decide)
        · rfl
      have hread : readList (Schema.writeList (p :: ps)) = .ok (p :: ps, []) := by
        rw [Schema.writeList, List.cons_append]
        simp only [readList, hclosing, dropBlanks_entries hn, readEntries_append h []]
      rw [parseList, hread]
      rfl

/-! ### What a list holds -/

theorem afterSign?_suffix {sign : Char} {cs rest : List Char}
    (h : afterSign? sign cs = some rest) : rest <:+ cs := by
  unfold afterSign? Text.dropBlanks at h
  split at h
  · rename_i c r hc
    split at h
    · rw [Option.some.injEq] at h
      rw [← h]
      exact (List.dropWhile_suffix _).trans
        ((List.suffix_cons c r).trans (hc ▸ List.dropWhile_suffix _))
    · simp only [reduceCtorEq] at h
  · simp only [reduceCtorEq] at h

theorem readQuoted?_suffix {cs : List Char} {r : List Char × List Char}
    (h : readQuoted? cs = some r) : r.2 <:+ cs := by
  fun_induction readQuoted? cs generalizing r with
  | case1 => simp only [reduceCtorEq] at h
  | case2 => simp only [reduceCtorEq] at h
  | case3 cs => simp only [reduceCtorEq] at h
  | case4 c cs hc ih =>
      rcases Option.map_eq_some_iff.1 h with ⟨u, hu, rfl⟩
      exact (ih hu).trans ((List.suffix_cons c cs).trans (List.suffix_cons '\\' _))
  | case5 cs =>
      rw [Option.some.injEq] at h
      rw [← h]
      exact List.suffix_cons _ _
  | case6 c cs _ _ hc ih =>
      rcases Option.map_eq_some_iff.1 h with ⟨u, hu, rfl⟩
      exact (ih hu).trans (List.suffix_cons c cs)

/-- The inside of a text in quotes is taken from the text. -/
theorem readQuoted?_subset {cs : List Char} {r : List Char × List Char}
    (h : readQuoted? cs = some r) : r.1 ⊆ cs := by
  fun_induction readQuoted? cs generalizing r with
  | case1 => simp only [reduceCtorEq] at h
  | case2 => simp only [reduceCtorEq] at h
  | case3 cs => simp only [reduceCtorEq] at h
  | case4 c cs hc ih =>
      rcases Option.map_eq_some_iff.1 h with ⟨u, hu, rfl⟩
      exact List.subset_cons_of_subset _ (List.cons_subset_cons c (ih hu))
  | case5 cs =>
      rw [Option.some.injEq] at h
      rw [← h]
      exact List.nil_subset _
  | case6 c cs _ _ hc ih =>
      rcases Option.map_eq_some_iff.1 h with ⟨u, hu, rfl⟩
      exact List.cons_subset_cons c (ih hu)

theorem readSign_suffix (cs : List Char) : (readSign cs).2 <:+ cs := by
  fun_cases readSign cs
  · exact List.suffix_cons _ _
  · exact List.suffix_cons _ _
  · exact List.suffix_refl _

theorem readFlag?_suffix {cs rest : List Char} {b : Bool} (h : readFlag? cs = some (b, rest)) :
    rest <:+ cs := by
  rcases List.exists_of_findSome?_eq_some h with ⟨w, _, hw⟩
  rcases Option.map_eq_some_iff.1 hw with ⟨r, hr, hb⟩
  rcases Option.bind_eq_some_iff.1 hr with ⟨t, ht, hif⟩
  split at hif
  · simp only [reduceCtorEq] at hif
  · rw [Option.some.injEq] at hif
    rw [← (Prod.mk.inj hb).2, ← hif, ← List.append_eq_of_isPrefixOf?_eq_some ht]
    exact List.suffix_append _ _

namespace Value

/-- The three ways in which a value is read. -/
theorem read_cases {cs rest : List Char} {v : Value} (h : read cs = .ok (v, rest)) :
    (∃ s cs', cs = '\x22' :: cs' ∧ readQuoted? cs' = some (s, rest) ∧ v = text (String.ofList s)) ∨
    (∃ b, readFlag? cs = some (b, rest) ∧ v = flag b) ∨
    (∃ digits, Text.readDigits? (readSign cs).2 = some (digits, rest) ∧
      numberOf (readSign cs).1 digits = .ok v) := by
  unfold read at h
  -- The cases are tried in order, so the first that applies is the one that read.
  split at h
  · rename_i r hr
    rw [Except.ok.injEq] at h
    subst h
    left
    unfold readText? at hr
    split at hr
    · simp only [reduceCtorEq] at hr
    · split at hr
      · rename_i c cs' hc
        rcases Option.map_eq_some_iff.1 hr with ⟨u, hu, hv⟩
        rw [Prod.mk.injEq] at hv
        exact ⟨u.1, cs', by rw [hc], by rw [hu, ← hv.2], hv.1.symm⟩
      · simp only [reduceCtorEq] at hr
  · right
    split at h
    · rename_i b r hr
      rw [Except.ok.injEq, Prod.mk.injEq] at h
      exact Or.inl ⟨b, by rw [hr, h.2], h.1.symm⟩
    · right
      split at h
      · rename_i digits r hd
        rcases map_eq_ok.1 h with ⟨w, hw, heq⟩
        rw [Prod.mk.injEq] at heq
        exact ⟨digits, by rw [hd, heq.2], by rw [hw, heq.1]⟩
      · simp only [reduceCtorEq] at h

/-- A sign and digits are read as a number within the limits of a list. -/
theorem numberOf_cases {sign digits : List Char} {v : Value} (h : numberOf sign digits = .ok v) :
    ∃ (size : Nat) (n : Int), numberOfDigits digits = .ok size ∧
      (if sign = ['-'] then -(size : Int) else size) = n ∧ v = number n ∧
      minNumber ≤ n ∧ n ≤ maxNumber := by
  unfold numberOf at h
  rcases bind_eq_ok.1 h with ⟨k, hk, h⟩
  rcases bind_eq_ok.1 hk with ⟨size, hsize, hcast⟩
  cases hcast
  simp only [pure, Except.pure] at h
  generalize hn : (if sign = ['-'] then -(size : Int) else size) = n at h
  split at h
  · rename_i hrange
    rw [Except.ok.injEq] at h
    exact ⟨size, n, hsize, hn, h.symm, hrange⟩
  · simp only [throw, throwThe, MonadExceptOf.throw, reduceCtorEq] at h

/-- Only listable values are read. -/
theorem isListable_of_read {cs rest : List Char} {v : Value} (h : read cs = .ok (v, rest)) :
    v.IsListable := by
  rcases read_cases h with ⟨s, cs', -, -, rfl⟩ | ⟨b, -, rfl⟩ | ⟨digits, -, hn⟩
  · trivial
  · trivial
  · rcases numberOf_cases hn with ⟨_, n, -, -, rfl, hrange⟩
    exact hrange

/-- The texts that are read are taken from the text. -/
theorem textIn_of_read {P : Char → Prop} {cs rest : List Char} {v : Value} (hP : ∀ c ∈ cs, P c)
    (h : read cs = .ok (v, rest)) : v.TextIn P := by
  rcases read_cases h with ⟨s, cs', rfl, hs, rfl⟩ | ⟨b, -, rfl⟩ | ⟨digits, -, hn⟩
  · intro c hc
    rw [String.toList_ofList] at hc
    exact hP c (List.mem_cons_of_mem _ (readQuoted?_subset hs hc))
  · trivial
  · rcases numberOf_cases hn with ⟨_, n, -, -, rfl, -⟩
    trivial

theorem read_suffix {cs rest : List Char} {v : Value} (h : read cs = .ok (v, rest)) :
    rest <:+ cs := by
  rcases read_cases h with ⟨s, cs', rfl, hs, -⟩ | ⟨b, hb, -⟩ | ⟨digits, hd, -⟩
  · exact (readQuoted?_suffix hs).trans (List.suffix_cons _ _)
  · exact readFlag?_suffix hb
  · have hd' := Text.readDigits?_eq_some hd
    exact (hd' ▸ List.suffix_append digits rest).trans (readSign_suffix cs)

/-! ### Where values end -/

/-- A flag is read only where it ends. -/
theorem stops_of_readFlag? {cs rest : List Char} {b : Bool} (h : readFlag? cs = some (b, rest)) :
    Stops isNameChar rest := by
  rcases List.exists_of_findSome?_eq_some h with ⟨w, -, hw⟩
  rcases Option.map_eq_some_iff.1 hw with ⟨r, hr, hb⟩
  rcases Option.bind_eq_some_iff.1 hr with ⟨t, -, hif⟩
  split at hif
  · simp only [reduceCtorEq] at hif
  · rename_i hlonger
    rw [Option.some.injEq] at hif
    rw [← (Prod.mk.inj hb).2, ← hif]
    intro c hc
    rw [Option.mem_def.1 hc, Option.any_some, Bool.not_eq_true] at hlonger
    exact hlonger

/-- Whatever is read, no value is read in part. -/
theorem endsBefore_of_read {cs rest : List Char} {v : Value} (h : read cs = .ok (v, rest)) :
    v.EndsBefore rest := by
  rcases read_cases h with ⟨s, cs', -, -, rfl⟩ | ⟨b, hb, rfl⟩ | ⟨digits, hd, hn⟩
  · trivial
  · exact stops_of_readFlag? hb
  · rcases numberOf_cases hn with ⟨_, n, -, -, rfl, -⟩
    exact Text.stops_of_readDigits? hd

/-- What is written for a value is read as that value, with the rest left over, exactly
    if a list can hold the value and the rest does not go on with it. -/
theorem read_chars_append_iff (v : Value) (rest : List Char) :
    read (v.chars ++ rest) = .ok (v, rest) ↔ v.IsListable ∧ v.EndsBefore rest :=
  ⟨fun h => ⟨isListable_of_read h, endsBefore_of_read h⟩, fun h => read_chars_append h.1 h.2⟩

/-- What stands behind a written value is left as it is: behind a text whatever it may be,
    behind a flag if it does not go on as a name, and behind a number within the limits of a
    list if it does not go on with a digit. -/
theorem reads_back (rest : List Char) :
    (∀ s, read ((text s).chars ++ rest) = .ok (text s, rest)) ∧
      (∀ b, read ((flag b).chars ++ rest) = .ok (flag b, rest) ↔ Stops isNameChar rest) ∧
      ∀ n, read ((number n).chars ++ rest) = .ok (number n, rest) ↔
        (minNumber ≤ n ∧ n ≤ maxNumber) ∧ Stops Text.isDigit rest := by
  refine ⟨fun s => ?_, fun b => ?_, fun n => ?_⟩
  · exact read_chars_append (v := text s) trivial trivial
  · exact (read_chars_append_iff (flag b) rest).trans (.of_eq (true_and _))
  · exact read_chars_append_iff (number n) rest

end Value

/-- An entry holds a value that was read from its text. -/
theorem readEntry_cases {cs rest : List Char} {p : Param} (h : readEntry cs = .ok (p, rest)) :
    ∃ cs', cs' <:+ cs ∧ Value.read cs' = .ok (p.value, rest) := by
  unfold readEntry at h
  split at h
  · simp only [reduceCtorEq] at h
  · rename_i name r hname
    have hr : r <:+ cs := (readName?_cases hname).2 ▸ List.suffix_append name r
    split at h
    · simp only [reduceCtorEq] at h
    · rename_i r' hs
      rcases bind_eq_ok.1 h with ⟨w, hw, h⟩
      simp only [pure, Except.pure, Except.ok.injEq, Prod.mk.injEq] at h
      refine ⟨r', (afterSign?_suffix hs).trans hr, ?_⟩
      rw [hw, ← h.1, ← h.2]

/-- What holds of all values that can be read in a list holds of its entries. -/
theorem readEntries_forall {Q : Value → Prop} {cs : List Char}
    (hQ : ∀ cs' v rest, cs' <:+ cs → Value.read cs' = .ok (v, rest) → Q v)
    {ps : List Param} {tail : List Char} (h : readEntries cs = .ok (ps, tail)) :
    ∀ p ∈ ps, Q p.value := by
  fun_induction readEntries cs generalizing ps tail with
  | case1 => simp only [reduceCtorEq] at h
  | case2 cs q rest he tail' hc =>
      rw [Except.ok.injEq, Prod.mk.injEq] at h
      rcases readEntry_cases he with ⟨cs', hsuffix, hread⟩
      rw [← h.1]
      intro p hp
      rw [List.mem_singleton.1 hp]
      exact hQ cs' q.value rest hsuffix hread
  | case3 => simp only [reduceCtorEq] at h
  | case4 => simp only [reduceCtorEq] at h
  | case5 cs q rest he hc next hs hlt qs tail' hnext ih =>
      rw [Except.ok.injEq, Prod.mk.injEq] at h
      rcases readEntry_cases he with ⟨cs', hsuffix, hread⟩
      have hnextSuffix : next <:+ cs :=
        (afterSign?_suffix hs).trans ((Value.read_suffix hread).trans hsuffix)
      have hrest := ih (fun cs'' v r hsub hv => hQ cs'' v r (hsub.trans hnextSuffix) hv) hnext
      rw [← h.1]
      intro p hp
      rcases List.mem_cons.1 hp with rfl | hp
      · exact hQ cs' _ rest hsuffix hread
      · exact hrest p hp

theorem parseList_forall {Q : Value → Prop} {cs : List Char} {ps : List Param}
    (hQ : ∀ cs' v rest, cs' <:+ cs → Value.read cs' = .ok (v, rest) → Q v)
    (h : parseList cs = .ok ps) : ∀ p ∈ ps, Q p.value := by
  unfold parseList readList at h
  split at h
  · simp only [reduceCtorEq] at h
  · rename_i qs rest hread
    have hps : qs = ps := by
      split at h
      · rwa [Except.ok.injEq] at h
      · simp only [reduceCtorEq] at h
    subst hps
    split at hread
    · rename_i body
      split at hread
      · rw [Except.ok.injEq, Prod.mk.injEq] at hread
        rw [← hread.1]
        intro p hp
        exact absurd hp List.not_mem_nil
      · have hbody : Text.dropBlanks body <:+ '[' :: body :=
          (List.dropWhile_suffix _).trans (List.suffix_cons _ _)
        exact readEntries_forall (fun cs' v r hsub hv => hQ cs' v r (hsub.trans hbody) hv) hread
    · simp only [reduceCtorEq] at hread

end IceFigures
