import IceFigures.Proofs.FragmentPlaces
import IceFigures.Proofs.GrammarReading

/-!
# The Grammar of Parameter Lists

What a bracketed list of parameters may be written as. A list is a row of tokens,
each with any blanks behind it: the opening bracket, for every entry its name, an
equals sign and its value, commas between the entries, and the closing bracket.

The tokens carry all the meaning. Whatever the blanks between them, one row of tokens
gives one list of parameters, in the order of the entries, with a parameter for each of
them even if a name comes twice. That is why the grammar is stated in tokens, and only
`Spaced` speaks of blanks.

The reader scans from left to right and takes at each place what it can. For names,
words and digits that is too much if the next token goes on with a character of the same
class, but only signs stand next to them, and `Stops` says so at each place. In a text
in quotes, commas and brackets are characters like others.

How many digits a number may have is a parameter of the grammar, as in `Numeral`. A
number of more digits than `maxDigits` would be refused, even if all but one of them are
leading zeros.

## Main definitions

* `QuotedText`: The inside of a text in quotes, and the text.
* `ValueText`: Values as they may be written.
* `EntryText`: The name and the value of an entry as they may be written.
* `listTokens`: The tokens of a list.
* `Spaced`: Tokens with blanks behind them.
* `ListText`: Lists as they may be written.

## Theorems

* `Value.read_append`, `Value.valueText_of_read`: Values are read as what they stand for.
* `readEntries_of_spaced`, `spaced_of_readEntries`: Entries are read up to the closing
  bracket.
* `parseList_of_listText`, `listText_of_parseList`: Lists are read as what they stand for.
* `parseList_eq_ok_iff`: The texts that are read are those of the grammar, whatever their
  blanks.
-/

namespace IceFigures

open Text (Stops)

/-! ### The grammar -/

section Grammar

variable (most : Option Nat)

/-- The inside of a text in double quotes, and the text. A backslash stands before any
    character but a line end and drops out. -/
inductive QuotedText : List Char → List Char → Prop
  | nil : QuotedText [] []
  | plain {c : Char} {cs s : List Char} (hquote : c ≠ '\x22') (hescape : c ≠ '\\')
      (h : QuotedText cs s) : QuotedText (c :: cs) (c :: s)
  | escaped {c : Char} {cs s : List Char} (hline : c ≠ '\n') (h : QuotedText cs s) :
      QuotedText ('\\' :: c :: cs) (c :: s)

/-- The words that a flag may be written as. -/
def flagWords : Bool → List String
  | true => ["true", "y", "Y"]
  | false => ["false", "n", "N"]

/-- A value as it may be written. -/
inductive ValueText : List Char → Value → Prop
  | text {cs s : List Char} (h : QuotedText cs s) :
      ValueText ('\x22' :: (cs ++ ['\x22'])) (.text (String.ofList s))
  | flag {b : Bool} {word : String} (hword : word ∈ flagWords b) :
      ValueText word.toList (.flag b)
  | number {ds : List Char} {n : Nat} (hn : Numeral most ds n) (hmax : n ≤ maxNumber) :
      ValueText ds (.number n)
  | plus {ds : List Char} {n : Nat} (hn : Numeral most ds n) (hmax : n ≤ maxNumber) :
      ValueText ('+' :: ds) (.number n)
  | minus {ds : List Char} {n : Nat} (hn : Numeral most ds n) (hmin : minNumber ≤ -n) :
      ValueText ('-' :: ds) (.number (-n))

/-- An entry of a list as it may be written: its name and its value. -/
structure EntryText (entry : List Char × List Char) (p : Param) : Prop where
  isName : isName entry.1 = true
  name : p.name = String.ofList entry.1
  value : ValueText most entry.2 p.value

/-- The tokens of an entry. -/
def entryTokens (entry : List Char × List Char) : List (List Char) :=
  [entry.1, ['='], entry.2]

/-- The tokens of the entries of a list, up to its closing bracket. -/
def bodyTokens (entries : List (List Char × List Char)) : List (List Char) :=
  [[',']].intercalate (entries.map entryTokens) ++ [[']']]

/-- The tokens of a list. -/
def listTokens (entries : List (List Char × List Char)) : List (List Char) :=
  ['['] :: bodyTokens entries

/-- Tokens, each with any blanks behind it. -/
inductive Spaced : List (List Char) → List Char → Prop
  | nil : Spaced [] []
  | cons (token : List Char) {blanks : List Char} {tokens : List (List Char)} {cs : List Char}
      (hblanks : ∀ c ∈ blanks, Text.isBlank c = true) (h : Spaced tokens cs) :
      Spaced (token :: tokens) (token ++ (blanks ++ cs))

/-- A list as it may be written, and its parameters. -/
def ListText (cs : List Char) (ps : List Param) : Prop :=
  ∃ entries, List.Forall₂ (EntryText most) entries ps ∧ Spaced (listTokens entries) cs

end Grammar

variable {most : Option Nat}

theorem Spaced.cons_cases {token : List Char} {tokens : List (List Char)} {cs : List Char}
    (h : Spaced (token :: tokens) cs) :
    ∃ blanks rest, (∀ c ∈ blanks, Text.isBlank c = true) ∧ cs = token ++ (blanks ++ rest) ∧
      Spaced tokens rest := by
  cases h with
  | cons _ hblanks h => exact ⟨_, _, hblanks, rfl, h⟩

theorem bodyTokens_singleton (e : List Char × List Char) :
    bodyTokens [e] = entryTokens e ++ [[']']] := by
  rw [bodyTokens, List.map_cons, List.map_nil, List.intercalate_singleton]

theorem bodyTokens_cons_cons (e f : List Char × List Char) (es : List (List Char × List Char)) :
    bodyTokens (e :: f :: es) = entryTokens e ++ [','] :: bodyTokens (f :: es) := by
  rw [bodyTokens, List.map_cons, List.map_cons, List.intercalate_cons_cons, bodyTokens,
    List.map_cons, List.append_assoc, List.append_assoc, List.singleton_append]

/-! ### Values -/

theorem readQuoted?_append {cs s : List Char} (h : QuotedText cs s) (rest : List Char) :
    readQuoted? (cs ++ '\x22' :: rest) = some (s, rest) := by
  induction h with
  | nil => rfl
  | plain hquote hescape h ih =>
      rw [List.cons_append, readQuoted?.eq_4 _ _ (fun h _ => hescape h) (fun _ _ h _ => hescape h),
        if_neg hquote, ih, Option.map_some]
  | escaped hline h ih =>
      rw [List.cons_append, List.cons_append, readQuoted?, if_neg hline, ih, Option.map_some]

theorem quotedText_of_readQuoted? {cs : List Char} {r : List Char × List Char}
    (h : readQuoted? cs = some r) :
    ∃ inside, QuotedText inside r.1 ∧ cs = inside ++ '\x22' :: r.2 := by
  fun_induction readQuoted? cs generalizing r with
  | case1 => simp only [reduceCtorEq] at h
  | case2 => simp only [reduceCtorEq] at h
  | case3 => simp only [reduceCtorEq] at h
  | case4 c cs hline ih =>
      rcases Option.map_eq_some_iff.1 h with ⟨u, hu, rfl⟩
      rcases ih hu with ⟨inside, hinside, rfl⟩
      exact ⟨_, .escaped hline hinside, rfl⟩
  | case5 cs =>
      rw [Option.some.injEq] at h
      rw [← h]
      exact ⟨[], .nil, rfl⟩
  | case6 c cs halone hpair hquote ih =>
      rcases Option.map_eq_some_iff.1 h with ⟨u, hu, rfl⟩
      rcases ih hu with ⟨inside, hinside, rfl⟩
      have hescape : c ≠ '\\' := by
        rintro rfl
        cases inside with
        | nil => exact hpair _ _ rfl rfl
        | cons d ds => exact hpair _ _ rfl rfl
      exact ⟨_, .plain hquote hescape hinside, rfl⟩

namespace Value

/-- Each word of a flag is told apart from the words that are tried before it. -/
theorem readFlag?_word {b : Bool} {word : String} (hword : word ∈ flagWords b) {rest : List Char}
    (hname : Stops isNameChar rest) : readFlag? (word.toList ++ rest) = some (b, rest) := by
  cases b <;> simp only [flagWords, List.mem_cons, List.not_mem_nil, or_false] at hword <;>
    rcases hword with rfl | rfl | rfl
  all_goals
    simp only [readFlag?, List.findSome?_cons]
    rw [afterWord?_append _ hname]
    rfl

/-- A flag that is read is written as one of its words. -/
theorem flagWords_of_readFlag? {cs rest : List Char} {b : Bool}
    (h : readFlag? cs = some (b, rest)) : ∃ word ∈ flagWords b, cs = word.toList ++ rest := by
  rcases List.exists_of_findSome?_eq_some h with ⟨⟨word, b'⟩, hmem, hw⟩
  rcases Option.map_eq_some_iff.1 hw with ⟨r, hr, hb⟩
  rcases Option.bind_eq_some_iff.1 hr with ⟨t, ht, hif⟩
  have hwords : ∀ w ∈ [("true", true), ("false", false), ("y", true), ("Y", true), ("n", false),
      ("N", false)], w.1 ∈ flagWords w.2 := by decide
  have hword := hwords _ hmem
  split at hif
  · simp only [reduceCtorEq] at hif
  · rw [Option.some.injEq] at hif
    rw [Prod.mk.injEq] at hb
    refine ⟨word, hb.1 ▸ hword, ?_⟩
    rw [← hb.2, ← hif]
    exact (List.append_eq_of_isPrefixOf?_eq_some ht).symm

theorem numberOf_numeral {sign ds : List Char} {size : Nat} {n : Int}
    (hn : Numeral (some Text.maxDigits) ds size)
    (hsign : (if sign = ['-'] then -(size : Int) else size) = n)
    (hrange : minNumber ≤ n ∧ n ≤ maxNumber) : numberOf sign ds = .ok (number n) := by
  unfold numberOf
  rw [hn.read]
  simp only [bind, Except.bind, pure, Except.pure, hsign]
  rw [if_pos hrange]

/-- What starts with neither a quote nor a letter is read as a number. -/
theorem read_number {cs sign ds rest : List Char} {n : Int} (hquote : cs.head? ≠ some '\x22')
    (hletter : Stops Char.isAlpha cs) (hsign : readSign cs = (sign, ds ++ rest))
    (hdigits : Text.readDigits? (ds ++ rest) = some (ds, rest))
    (hnumber : numberOf sign ds = .ok (number n)) : read cs = .ok (number n, rest) := by
  have htext : readText? cs = none := by
    cases cs with
    | nil => rfl
    | cons c cs => rw [readText?, if_neg fun h => hquote (congrArg some h)]
  unfold read
  simp only [htext, readFlag?_eq_none hletter, hsign, hdigits, hnumber, Except.map]

/-- A value is read back, provided that what follows it goes on neither as a number nor as
    a name. -/
theorem read_append {cs : List Char} {v : Value} (h : ValueText (some Text.maxDigits) cs v)
    {rest : List Char} (hdigit : Stops Text.isDigit rest) (hname : Stops isNameChar rest) :
    read (cs ++ rest) = .ok (v, rest) := by
  cases h with
  | @text cs s h =>
      have hread : readText? ('\x22' :: (cs ++ ['\x22']) ++ rest) =
          some (.text (String.ofList s), rest) := by
        rw [List.cons_append, List.append_assoc, List.singleton_append, readText?, if_pos rfl,
          readQuoted?_append h, Option.map_some]
      rw [read, hread]
  | @flag b word hword =>
      have htext : readText? (word.toList ++ rest) = none := by
        cases b <;> simp only [flagWords, List.mem_cons, List.not_mem_nil, or_false] at hword <;>
          rcases hword with rfl | rfl | rfl <;> rfl
      rw [read, htext, readFlag?_word hword hname]
  | @number ds n hn hmax =>
      rcases List.exists_cons_of_ne_nil hn.nonempty with ⟨d, ds', rfl⟩
      have hd := hn.digits d List.mem_cons_self
      have hne : ∀ c, Text.isDigit c = false → d ≠ c := by
        rintro c hc rfl
        rw [hd] at hc
        exact Bool.noConfusion hc
      have hsign : readSign (d :: (ds' ++ rest)) = ([], d :: (ds' ++ rest)) :=
        readSign.eq_3 _ (fun _ h => hne '+' (by decide) (List.cons.inj h).1)
          (fun _ h => hne '-' (by decide) (List.cons.inj h).1)
      have hmin : minNumber ≤ (n : Int) := by
        unfold minNumber
        omega
      rw [← List.cons_append] at hsign
      exact read_number (fun h => hne '\x22' (by decide) (Option.some.inj h))
        (Text.stops_cons.2 (Text.isAlpha_of_isDigit hd)) hsign
        (Text.readDigits?_append hn.nonempty hn.digits hdigit)
        (numberOf_numeral hn (if_neg (by decide)) ⟨hmin, hmax⟩)
  | @plus ds n hn hmax =>
      have hmin : minNumber ≤ (n : Int) := by
        unfold minNumber
        omega
      exact read_number (by rw [List.cons_append, List.head?_cons]; decide)
        (Text.stops_cons.2 (by decide)) rfl
        (Text.readDigits?_append hn.nonempty hn.digits hdigit)
        (numberOf_numeral hn (if_neg (by decide)) ⟨hmin, hmax⟩)
  | @minus ds n hn hmin =>
      have hmax : -(n : Int) ≤ maxNumber := by
        unfold maxNumber
        omega
      exact read_number (by rw [List.cons_append, List.head?_cons]; decide)
        (Text.stops_cons.2 (by decide)) rfl
        (Text.readDigits?_append hn.nonempty hn.digits hdigit)
        (numberOf_numeral hn (if_pos rfl) ⟨hmin, hmax⟩)

/-- A value that is read stands at the start of the text. -/
theorem valueText_of_read {cs rest : List Char} {v : Value} (h : read cs = .ok (v, rest)) :
    ∃ written, ValueText (some Text.maxDigits) written v ∧ cs = written ++ rest := by
  rcases read_cases h with ⟨s, cs', rfl, hs, rfl⟩ | ⟨b, hb, rfl⟩ | ⟨ds, hd, hn⟩
  · rcases quotedText_of_readQuoted? hs with ⟨inside, hinside, rfl⟩
    refine ⟨_, .text hinside, ?_⟩
    rw [List.cons_append, List.append_assoc, List.singleton_append]
  · rcases flagWords_of_readFlag? hb with ⟨word, hword, rfl⟩
    exact ⟨_, .flag hword, rfl⟩
  · rcases Text.readDigits?_cases hd with ⟨hne, hdigits, hcut⟩
    rcases numberOf_cases hn with ⟨size, n, hsize, hsign, rfl, hmin, hmax⟩
    have hnumeral := numeral_of_read hne hdigits hsize
    revert hcut hsign
    fun_cases readSign cs
    all_goals
      intro hcut hsign
      simp only at hcut hsign
    · rw [if_neg (by decide)] at hsign
      subst hsign
      exact ⟨_, .plus hnumeral hmax, by rw [hcut, List.cons_append]⟩
    · rw [if_pos trivial] at hsign
      subst hsign
      exact ⟨_, .minus hnumeral hmin, by rw [hcut, List.cons_append]⟩
    · rw [if_neg (by decide)] at hsign
      subst hsign
      exact ⟨_, .number hnumeral hmax, hcut⟩

/-- No blank stands in front of a value. -/
theorem stops_of_valueText {cs : List Char} {v : Value} (h : ValueText most cs v)
    (rest : List Char) : Stops Text.isBlank (cs ++ rest) := by
  cases h with
  | text _ => exact Text.stops_cons.2 (by decide)
  | @flag b word hword =>
      cases b <;> simp only [flagWords, List.mem_cons, List.not_mem_nil, or_false] at hword <;>
        rcases hword with rfl | rfl | rfl <;> exact Text.stops_cons.2 (by decide)
  | @number ds n hn _ =>
      rcases List.exists_cons_of_ne_nil hn.nonempty with ⟨d, ds', rfl⟩
      exact Text.stops_cons.2 (Text.isBlank_of_isDigit (hn.digits d List.mem_cons_self))
  | plus _ _ => exact Text.stops_cons.2 (by decide)
  | minus _ _ => exact Text.stops_cons.2 (by decide)

end Value

/-! ### Entries -/

/-- Blanks are not part of names. -/
theorem isNameChar_of_isBlank {c : Char} (h : Text.isBlank c = true) : isNameChar c = false := by
  rw [Bool.eq_false_iff]
  intro hname
  rw [isNameChar, Bool.or_eq_true, Bool.or_eq_true, decide_eq_true_eq, decide_eq_true_eq] at hname
  rcases hname with (hname | rfl) | rfl
  · rw [Text.isBlank_of_isAlphanum hname] at h
    exact Bool.noConfusion h
  · exact absurd h (by decide)
  · exact absurd h (by decide)

theorem afterSign?_append {sign : Char} (hsign : Text.isBlank sign = false)
    {before behind rest : List Char} (hbefore : ∀ c ∈ before, Text.isBlank c = true)
    (hbehind : ∀ c ∈ behind, Text.isBlank c = true) (hrest : Stops Text.isBlank rest) :
    afterSign? sign (before ++ sign :: (behind ++ rest)) = some rest := by
  rw [afterSign?, Text.dropBlanks_append_of_stops hbefore (Text.stops_cons.2 hsign)]
  simp only [if_true, Text.dropBlanks_append_of_stops hbehind hrest]

theorem afterSign?_cases {sign : Char} {cs rest : List Char} (h : afterSign? sign cs = some rest) :
    ∃ before behind, (∀ c ∈ before, Text.isBlank c = true) ∧
      (∀ c ∈ behind, Text.isBlank c = true) ∧ cs = before ++ sign :: (behind ++ rest) := by
  rcases Text.exists_blanks cs with ⟨before, hbefore, hcs⟩
  unfold afterSign? at h
  split at h
  · rename_i c tail hdrop
    split at h
    · rename_i hc
      rcases Text.exists_blanks tail with ⟨behind, hbehind, htail⟩
      rw [Option.some.injEq] at h
      refine ⟨before, behind, hbefore, hbehind, ?_⟩
      rw [← h, ← htail, ← hc, ← hdrop]
      exact hcs
    · simp only [reduceCtorEq] at h
  · simp only [reduceCtorEq] at h

theorem afterClosing?_append {before : List Char} (hbefore : ∀ c ∈ before, Text.isBlank c = true)
    (rest : List Char) : afterClosing? (before ++ ']' :: rest) = some rest := by
  rw [afterClosing?, Text.dropBlanks_append_of_stops hbefore (Text.stops_cons.2 (by decide))]
  rfl

theorem afterClosing?_cases {cs rest : List Char} (h : afterClosing? cs = some rest) :
    ∃ before, (∀ c ∈ before, Text.isBlank c = true) ∧ cs = before ++ ']' :: rest := by
  rcases Text.exists_blanks cs with ⟨before, hbefore, hcs⟩
  unfold afterClosing? at h
  split at h
  · rename_i tail hdrop
    rw [Option.some.injEq] at h
    rw [hdrop, h] at hcs
    exact ⟨before, hbefore, hcs⟩
  · simp only [reduceCtorEq] at h

/-- No other sign is taken for the closing bracket. -/
theorem afterClosing?_eq_none {before : List Char}
    (hbefore : ∀ c ∈ before, Text.isBlank c = true) {sign : Char}
    (hblank : Text.isBlank sign = false) (hsign : sign ≠ ']') (rest : List Char) :
    afterClosing? (before ++ sign :: rest) = none := by
  rw [afterClosing?, Text.dropBlanks_append_of_stops hbefore (Text.stops_cons.2 hblank)]
  split
  · rename_i heq
    exact absurd (List.cons.inj heq).1 hsign
  · rfl

/-- Blanks go on neither with a number nor with a name. -/
theorem stops_blanks_append {before : List Char}
    (hbefore : ∀ c ∈ before, Text.isBlank c = true) {sign : Char}
    (hdigit : Text.isDigit sign = false) (hname : isNameChar sign = false) (rest : List Char) :
    Stops Text.isDigit (before ++ sign :: rest) ∧ Stops isNameChar (before ++ sign :: rest) := by
  cases before with
  | nil => exact ⟨Text.stops_cons.2 hdigit, Text.stops_cons.2 hname⟩
  | cons b bs =>
      have hb := hbefore b List.mem_cons_self
      exact ⟨Text.stops_cons.2 (Text.isDigit_of_isBlank hb),
        Text.stops_cons.2 (isNameChar_of_isBlank hb)⟩

/-- An entry is read back up to the blanks and the sign behind it. -/
theorem readEntry_of_spaced {e : List Char × List Char} {p : Param}
    (he : EntryText (some Text.maxDigits) e p) {sign : Char} {tokens : List (List Char)}
    {cs : List Char} (hs : Spaced (entryTokens e ++ [sign] :: tokens) cs)
    (hdigit : Text.isDigit sign = false) (hname : isNameChar sign = false) :
    ∃ before behind rest, (∀ c ∈ before, Text.isBlank c = true) ∧
      (∀ c ∈ behind, Text.isBlank c = true) ∧
      readEntry cs = .ok (p, before ++ sign :: (behind ++ rest)) ∧ Spaced tokens rest := by
  rcases e with ⟨name, written⟩
  rcases hs.cons_cases with ⟨b₁, r₁, h₁, rfl, hs₁⟩
  rcases hs₁.cons_cases with ⟨b₂, r₂, h₂, rfl, hs₂⟩
  rcases hs₂.cons_cases with ⟨before, r₃, hbefore, rfl, hs₃⟩
  rcases hs₃.cons_cases with ⟨behind, rest, hbehind, rfl, hrest⟩
  refine ⟨before, behind, rest, hbefore, hbehind, ?_, hrest⟩
  rcases stops_blanks_append hbefore hdigit hname (behind ++ rest) with ⟨hstopDigit, hstopName⟩
  have hvalue := Value.read_append he.value hstopDigit hstopName
  have hequals := afterSign?_append (show Text.isBlank '=' = false by decide) h₁ h₂
    (Value.stops_of_valueText he.value (before ++ sign :: (behind ++ rest)))
  have hread := readName?_append he.isName
    (stops_blanks_append h₁ (show Text.isDigit '=' = false by decide) (by decide)
      (b₂ ++ (written ++ (before ++ sign :: (behind ++ rest))))).2
  have hp : ({ name := String.ofList name, value := p.value } : Param) = p := by
    rw [← he.name]
  unfold readEntry
  simp only [List.singleton_append, hread, hequals, hvalue, hp, bind, Except.bind, pure,
    Except.pure]

/-- An entry that is read stands at the start of the text. -/
theorem entryText_of_readEntry {cs rest : List Char} {p : Param}
    (h : readEntry cs = .ok (p, rest)) :
    ∃ e before behind, EntryText (some Text.maxDigits) e p ∧
      (∀ c ∈ before, Text.isBlank c = true) ∧ (∀ c ∈ behind, Text.isBlank c = true) ∧
      cs = e.1 ++ (before ++ '=' :: (behind ++ (e.2 ++ rest))) := by
  unfold readEntry at h
  split at h
  · simp only [reduceCtorEq] at h
  · rename_i name r hname
    rcases readName?_cases hname with ⟨hisName, rfl⟩
    split at h
    · simp only [reduceCtorEq] at h
    · rename_i r' hequals
      rcases afterSign?_cases hequals with ⟨before, behind, hbefore, hbehind, rfl⟩
      rcases bind_eq_ok.1 h with ⟨⟨v, tail⟩, hvalue, h⟩
      simp only [pure, Except.pure, Except.ok.injEq, Prod.mk.injEq] at h
      rcases h with ⟨rfl, rfl⟩
      rcases Value.valueText_of_read hvalue with ⟨written, hwritten, rfl⟩
      exact ⟨(name, written), before, behind, ⟨hisName, rfl, hwritten⟩, hbefore, hbehind, rfl⟩

/-- An entry, the sign behind it and further tokens, with their blanks. -/
theorem Spaced.entry {e : List Char × List Char} {b₁ b₂ before behind rest : List Char}
    (h₁ : ∀ c ∈ b₁, Text.isBlank c = true) (h₂ : ∀ c ∈ b₂, Text.isBlank c = true)
    (hbefore : ∀ c ∈ before, Text.isBlank c = true)
    (hbehind : ∀ c ∈ behind, Text.isBlank c = true) (sign : Char) {tokens : List (List Char)}
    (h : Spaced tokens rest) :
    Spaced (entryTokens e ++ [sign] :: tokens)
      (e.1 ++ (b₁ ++ '=' :: (b₂ ++ (e.2 ++ (before ++ sign :: (behind ++ rest)))))) :=
  .cons _ h₁ (.cons _ h₂ (.cons _ hbefore (.cons _ hbehind h)))

/-! ### Lists -/

theorem bodyTokens_eq_cons (e : List Char × List Char) (es : List (List Char × List Char)) :
    ∃ tokens, bodyTokens (e :: es) = e.1 :: tokens := by
  cases es with
  | nil => exact ⟨_, bodyTokens_singleton e⟩
  | cons f es => exact ⟨_, bodyTokens_cons_cons e f es⟩

/-- The entries of a list start with the letter of a name. -/
theorem eq_cons_of_spaced {e : List Char × List Char} (he : isName e.1 = true)
    {es : List (List Char × List Char)} {cs : List Char} (hs : Spaced (bodyTokens (e :: es)) cs) :
    ∃ c rest, cs = c :: rest ∧ c.isAlpha = true := by
  rcases bodyTokens_eq_cons e es with ⟨tokens, htokens⟩
  rw [htokens] at hs
  rcases hs.cons_cases with ⟨blanks, rest, -, rfl, -⟩
  cases hname : e.1 with
  | nil =>
      rw [hname] at he
      exact Bool.noConfusion he
  | cons c cs =>
      rw [hname, isName, Bool.and_eq_true] at he
      exact ⟨c, _, rfl, he.1⟩

-- By induction on the entries behind the first. Behind each entry stands a comma or the
-- closing bracket, which ends its value.
theorem readEntries_of_spaced {e : List Char × List Char} {es : List (List Char × List Char)}
    {ps : List Param} (h : List.Forall₂ (EntryText (some Text.maxDigits)) (e :: es) ps)
    {cs : List Char} (hs : Spaced (bodyTokens (e :: es)) cs) :
    ∃ tail, (∀ c ∈ tail, Text.isBlank c = true) ∧ readEntries cs = .ok (ps, tail) := by
  induction es generalizing e ps cs with
  | nil =>
      rcases List.forall₂_cons_left_iff.1 h with ⟨p, ps', he, hnil, rfl⟩
      cases hnil
      rw [bodyTokens_singleton] at hs
      rcases readEntry_of_spaced he hs (by decide) (by decide) with
        ⟨before, behind, rest, hbefore, hbehind, hread, hrest⟩
      cases hrest
      refine ⟨_, ?_, readEntries_of_closing hread (afterClosing?_append hbefore _)⟩
      rwa [List.append_nil]
  | cons f es ih =>
      rcases List.forall₂_cons_left_iff.1 h with ⟨p, ps', he, hes, rfl⟩
      rw [bodyTokens_cons_cons] at hs
      rcases readEntry_of_spaced he hs (by decide) (by decide) with
        ⟨before, behind, rest, hbefore, hbehind, hread, hrest⟩
      rcases ih hes hrest with ⟨tail, htail, hnext⟩
      rcases List.forall₂_cons_left_iff.1 hes with ⟨q, qs, hf, -, -⟩
      rcases eq_cons_of_spaced hf.isName hrest with ⟨c, cs', rfl, hc⟩
      have hstop : Stops Text.isBlank (c :: cs') := Text.stops_cons.2 (Text.isBlank_of_isAlpha hc)
      exact ⟨tail, htail, readEntries_of_comma hread
        (afterClosing?_eq_none hbefore (by decide) (by decide) _)
        (afterSign?_append (by decide) hbefore hbehind hstop) hnext⟩

/-- Entries that are read stand in the text, up to the closing bracket. -/
theorem spaced_of_readEntries {cs tail : List Char} {ps : List Param}
    (h : readEntries cs = .ok (ps, tail)) (htail : ∀ c ∈ tail, Text.isBlank c = true) :
    ∃ e es, List.Forall₂ (EntryText (some Text.maxDigits)) (e :: es) ps ∧
      Spaced (bodyTokens (e :: es)) cs := by
  fun_induction readEntries cs generalizing ps tail with
  | case1 => simp only [reduceCtorEq] at h
  | case2 cs p rest hentry tail' hclosing =>
      rw [Except.ok.injEq, Prod.mk.injEq] at h
      rcases h with ⟨rfl, rfl⟩
      rcases entryText_of_readEntry hentry with ⟨e, b₁, b₂, he, h₁, h₂, rfl⟩
      rcases afterClosing?_cases hclosing with ⟨before, hbefore, rfl⟩
      refine ⟨e, [], .cons he .nil, ?_⟩
      rw [bodyTokens_singleton]
      have hspaced := Spaced.entry (e := e) h₁ h₂ hbefore htail ']' .nil
      rwa [List.append_nil] at hspaced
  | case3 => simp only [reduceCtorEq] at h
  | case4 => simp only [reduceCtorEq] at h
  | case5 cs p rest hentry _ next hcomma _ qs tail' hnext ih =>
      rw [Except.ok.injEq, Prod.mk.injEq] at h
      rcases h with ⟨rfl, rfl⟩
      rcases entryText_of_readEntry hentry with ⟨e, b₁, b₂, he, h₁, h₂, rfl⟩
      rcases afterSign?_cases hcomma with ⟨before, behind, hbefore, hbehind, rfl⟩
      rcases ih hnext htail with ⟨f, fs, hfs, hspaced⟩
      refine ⟨e, f :: fs, .cons he hfs, ?_⟩
      rw [bodyTokens_cons_cons]
      exact Spaced.entry h₁ h₂ hbefore hbehind ',' hspaced

theorem Text.trim_isEmpty_iff {cs : List Char} :
    (Text.trim cs).isEmpty = true ↔ ∀ c ∈ cs, Text.isBlank c = true := by
  rw [List.isEmpty_iff]
  constructor
  · intro h
    rcases Text.trim_cut cs with ⟨right, hcut, hright⟩
    rw [h, List.append_nil] at hcut
    rw [hcut]
    intro c hc
    rcases List.mem_append.1 hc with hc | hc
    · exact List.mem_takeWhile_imp hc
    · exact hright c hc
  · intro h
    rw [Text.trim, Text.dropBlanks, List.dropWhile_eq_nil_iff.2 h]
    rfl

/-- Lists of the grammar are read as what they stand for. -/
theorem parseList_of_listText {cs : List Char} {ps : List Param}
    (h : ListText (some Text.maxDigits) cs ps) : parseList cs = .ok ps := by
  rcases h with ⟨entries, hentries, hs⟩
  rcases hs.cons_cases with ⟨blanks, rest, hblanks, rfl, hbody⟩
  have hread : ∃ tail, (∀ c ∈ tail, Text.isBlank c = true) ∧
      readList (['['] ++ (blanks ++ rest)) = .ok (ps, tail) := by
    cases entries with
    | nil =>
        cases hentries
        rcases hbody.cons_cases with ⟨tail, last, htail, rfl, hlast⟩
        cases hlast
        refine ⟨tail, htail, ?_⟩
        rw [List.append_nil, List.singleton_append, readList, List.singleton_append,
          afterClosing?_append hblanks]
    | cons e es =>
        rcases readEntries_of_spaced hentries hbody with ⟨tail, htail, hread⟩
        rcases List.forall₂_cons_left_iff.1 hentries with ⟨p, ps', he, -, -⟩
        rcases eq_cons_of_spaced he.isName hbody with ⟨c, cs, rfl, hc⟩
        have hblank := Text.isBlank_of_isAlpha hc
        have hne : c ≠ ']' := by
          rintro rfl
          exact absurd hc (by decide)
        refine ⟨tail, htail, ?_⟩
        rw [List.singleton_append, readList, afterClosing?_eq_none hblanks hblank hne,
          Text.dropBlanks_append_of_stops hblanks (Text.stops_cons.2 hblank)]
        exact hread
  rcases hread with ⟨tail, htail, hread⟩
  rw [parseList, hread]
  exact if_pos (Text.trim_isEmpty_iff.2 htail)

/-- Lists that are read are lists of the grammar. -/
theorem listText_of_parseList {cs : List Char} {ps : List Param} (h : parseList cs = .ok ps) :
    ListText (some Text.maxDigits) cs ps := by
  unfold parseList at h
  split at h
  · simp only [reduceCtorEq] at h
  · rename_i qs tail hread
    split at h
    · rename_i hempty
      have htail := Text.trim_isEmpty_iff.1 hempty
      rw [Except.ok.injEq] at h
      subst h
      unfold readList at hread
      split at hread
      · rename_i rest
        split at hread
        · rename_i tail' hclosing
          rw [Except.ok.injEq, Prod.mk.injEq] at hread
          rcases hread with ⟨rfl, rfl⟩
          rcases afterClosing?_cases hclosing with ⟨before, hbefore, rfl⟩
          refine ⟨[], .nil, ?_⟩
          have hspaced := Spaced.cons ['['] hbefore (.cons [']'] htail .nil)
          rwa [List.append_nil] at hspaced
        · rcases Text.exists_blanks rest with ⟨before, hbefore, hrest⟩
          rcases spaced_of_readEntries hread htail with ⟨e, es, hes, hspaced⟩
          refine ⟨e :: es, hes, ?_⟩
          rw [hrest]
          exact .cons ['['] hbefore hspaced
      · simp only [reduceCtorEq] at hread
    · simp only [reduceCtorEq] at h

/-- Lists are read exactly if they are written in the grammar, as the parameters of their
    entries. The blanks between their tokens make no difference. -/
theorem parseList_eq_ok_iff :
    (∀ cs ps, parseList cs = .ok ps ↔ ListText (some Text.maxDigits) cs ps) ∧
    ∀ entries ps, List.Forall₂ (EntryText (some Text.maxDigits)) entries ps →
      ∀ cs, Spaced (listTokens entries) cs → parseList cs = .ok ps :=
  ⟨fun _ _ => ⟨listText_of_parseList, parseList_of_listText⟩,
    fun entries _ hentries _ hs => parseList_of_listText ⟨entries, hentries, hs⟩⟩

/-- A list is refused for what its first entry is refused for. -/
theorem parseList_of_readEntry {cs : List Char} {fault : Fault} (hclosing : afterClosing? cs = none)
    (h : readEntry (Text.dropBlanks cs) = .error fault) : parseList ('[' :: cs) = .error fault := by
  have hentries : readEntries (Text.dropBlanks cs) = .error fault := by
    rw [readEntries]
    split
    · rename_i heq
      rw [h, Except.error.injEq] at heq
      rw [heq]
    · rename_i heq
      rw [h] at heq
      simp only [reduceCtorEq] at heq
  simp only [parseList, readList, hclosing, hentries]

/-- A list that sets a parameter to zero, written in as many digits as one likes. -/
def zerosList (zeros : Nat) : List Char :=
  ['[', 'a', '='] ++ (List.replicate zeros '0' ++ [']'])

theorem listText_zerosList {zeros : Nat} (h : zeros ≠ 0) :
    ListText none (zerosList zeros) [⟨"a", .number 0⟩] := by
  have hnumeral : Numeral none (List.replicate zeros '0') 0 := by
    refine ⟨?_, fun c hc => ?_, fun k hk => ?_, ?_⟩
    · rwa [ne_eq, List.replicate_eq_nil_iff]
    · rw [List.eq_of_mem_replicate hc]
      decide
    · simp only [Option.mem_def, reduceCtorEq] at hk
    · rw [← List.append_nil (List.replicate zeros '0'), ofDigits_zeros_append]
      rfl
  refine ⟨[(['a'], List.replicate zeros '0')],
    .cons ⟨rfl, rfl, .number hnumeral (by decide)⟩ .nil, ?_⟩
  have hblank : ∀ c ∈ ([] : List Char), Text.isBlank c = true := by decide
  have hentry := Spaced.entry (e := (['a'], List.replicate zeros '0')) hblank hblank hblank hblank
    ']' .nil
  exact .cons ['['] hblank hentry

theorem parseList_zerosList {zeros : Nat} (h : Text.maxDigits < zeros) :
    parseList (zerosList zeros) = .error (.tooManyDigits zeros) := by
  rcases Nat.exists_eq_add_one_of_ne_zero (Nat.ne_of_gt (Nat.zero_lt_of_lt h)) with ⟨k, rfl⟩
  have hzeros : ∀ c ∈ List.replicate (k + 1) '0', Text.isDigit c = true := by
    intro c hc
    rw [List.eq_of_mem_replicate hc]
    decide
  have hdigits : Text.readDigits? (List.replicate (k + 1) '0' ++ [']']) =
      some (List.replicate (k + 1) '0', [']']) :=
    Text.readDigits?_append (List.cons_ne_nil _ _) hzeros (Text.stops_cons.2 (by decide))
  have hnumber : numberOfDigits (List.replicate (k + 1) '0') = .error (.tooManyDigits (k + 1)) := by
    rw [numberOfDigits, List.length_replicate, if_pos h]
  have hvalue : Value.read (List.replicate (k + 1) '0' ++ [']']) =
      .error (.tooManyDigits (k + 1)) := by
    have htext : Value.readText? (List.replicate (k + 1) '0' ++ [']']) = none := rfl
    have hflag : readFlag? (List.replicate (k + 1) '0' ++ [']']) = none :=
      Value.readFlag?_eq_none (Text.stops_cons.2 (by decide))
    have hsign : readSign (List.replicate (k + 1) '0' ++ [']']) =
        ([], List.replicate (k + 1) '0' ++ [']']) := rfl
    unfold Value.read
    simp only [htext, hflag, hsign, hdigits, Value.numberOf, hnumber, bind, Except.bind, Except.map]
  have hentry : readEntry (['a', '='] ++ (List.replicate (k + 1) '0' ++ [']'])) =
      .error (.tooManyDigits (k + 1)) := by
    have hblank : ∀ c ∈ ([] : List Char), Text.isBlank c = true := by decide
    have hstop : Text.Stops Text.isBlank (List.replicate (k + 1) '0' ++ [']']) :=
      Text.stops_cons.2 (by decide)
    have hequals := afterSign?_append (show Text.isBlank '=' = false by decide) hblank hblank hstop
    have hname : readName? (['a', '='] ++ (List.replicate (k + 1) '0' ++ [']'])) =
        some (['a'], '=' :: (List.replicate (k + 1) '0' ++ [']'])) :=
      readName?_append (show isName ['a'] = true by decide)
        (Text.stops_cons.2 (show isNameChar '=' = false by decide))
    rw [List.nil_append, List.nil_append] at hequals
    unfold readEntry
    simp only [hname, hequals, hvalue, bind, Except.bind]
  exact parseList_of_readEntry rfl hentry

/-- A number of more digits than a number may have has no other fault, but is not read. -/
theorem not_parseList_of_listText :
    ListText none (zerosList 4301) [⟨"a", .number 0⟩] ∧
      parseList (zerosList 4301) = .error (.tooManyDigits 4301) :=
  ⟨listText_zerosList (by decide), parseList_zerosList (by decide)⟩

end IceFigures
