import IceFigures.Fault
import Mathlib.Algebra.Group.Int.Defs
import Mathlib.Algebra.Group.Nat.Defs

/-!
# Reading Numerals Back

What is written in digits is read back as the number it was written for.

The readers take the longest run of a class of characters, so a number can only
be read back if what follows it does not go on with a digit. `Stops` is that
condition, for any class of characters; `takeWhile_append_of_stops` and
`dropWhile_append_of_stops` then split a text where the run ends.

A number may be written in at most `maxDigits` digits. Reading obeys the same
limit, leading zeros counted, so a number that was read can always be written
again (`isWritable_of_numberOfDigits`).

## Main definitions

* `Stops`: A text that does not go on with a class of characters.
* `IsShort`: A number of at most some digits.

## Theorems

* `takeWhile_append_of_stops`, `dropWhile_append_of_stops`: A run ends where
  the class of characters does.
* `isDigit_of_mem_toDigits`: Numbers are written in digits.
* `ofDigits_toDigits`: The digits of a number stand for it.
* `ofDigits_lt`: A run of digits stands for a number of that length.
* `ne_zero_of_toDigits_eq_cons`: Numbers are written without leading zeros.
* `readDigits?_toDigits_append`: The digits of a number are read back.
* `toDigits_append_inj`: A number is told apart from what stands behind it.
* `isWritable_natCast_iff_lt`: Numbers are writable below a power of ten.
* `numberOfDigits_toDigits`: Digits of a writable number are read as it.
* `isWritable_of_numberOfDigits`: A number that was read can be written.
-/

namespace IceFigures

-- What holds of all characters of a text is checked by going through the text.
-- Otherwise it may be checked by going through all characters there are.
instance (priority := 2000) decidableForallMemChar (P : Char → Prop) [DecidablePred P]
    (cs : List Char) : Decidable (∀ c ∈ cs, P c) :=
  List.decidableBAll P cs

namespace Text

/-! ### Runs -/

/-- The text does not go on with a character of the class. -/
def Stops (p : Char → Bool) (rest : List Char) : Prop :=
  ∀ c ∈ rest.head?, p c = false

theorem stops_nil (p : Char → Bool) : Stops p [] := by
  intro c hc
  simp only [List.head?_nil, Option.mem_def, reduceCtorEq] at hc

theorem stops_cons {p : Char → Bool} {c : Char} {cs : List Char} :
    Stops p (c :: cs) ↔ p c = false := by
  simp only [Stops, List.head?_cons, Option.mem_def, Option.some.injEq, forall_eq']

theorem takeWhile_of_stops {p : Char → Bool} {rest : List Char} (h : Stops p rest) :
    rest.takeWhile p = [] := by
  cases rest with
  | nil => rfl
  | cons c cs => rw [List.takeWhile_cons_of_neg (by rw [stops_cons.1 h]; exact Bool.false_ne_true)]

theorem dropWhile_of_stops {p : Char → Bool} {rest : List Char} (h : Stops p rest) :
    rest.dropWhile p = rest := by
  cases rest with
  | nil => rfl
  | cons c cs => rw [List.dropWhile_cons_of_neg (by rw [stops_cons.1 h]; exact Bool.false_ne_true)]

/-- What is left of a text behind a run does not go on with it. -/
theorem stops_dropWhile (p : Char → Bool) (cs : List Char) : Stops p (cs.dropWhile p) := by
  have hhead := List.head?_dropWhile_not p cs
  intro c hc
  rw [Option.mem_def.1 hc] at hhead
  simpa only using hhead

theorem takeWhile_append_of_stops {p : Char → Bool} {run rest : List Char}
    (hrun : ∀ c ∈ run, p c = true) (hrest : Stops p rest) :
    (run ++ rest).takeWhile p = run := by
  rw [List.takeWhile_append_of_pos hrun, takeWhile_of_stops hrest, List.append_nil]

theorem dropWhile_append_of_stops {p : Char → Bool} {run rest : List Char}
    (hrun : ∀ c ∈ run, p c = true) (hrest : Stops p rest) :
    (run ++ rest).dropWhile p = rest := by
  rw [List.dropWhile_append_of_pos hrun, dropWhile_of_stops hrest]

/-! ### Letters and digits -/

theorem toNat_of_isAlpha {c : Char} (h : c.isAlpha = true) :
    65 ≤ c.toNat ∧ c.toNat ≤ 90 ∨ 97 ≤ c.toNat ∧ c.toNat ≤ 122 := by
  change (c.isUpper || (decide ('a'.val ≤ c.val) && decide (c.val ≤ 'z'.val))) = true at h
  rw [Bool.or_eq_true, Bool.and_eq_true, decide_eq_true_eq, decide_eq_true_eq] at h
  exact h.imp_left of_decide_eq_true

theorem toNat_of_isAsciiDigit {c : Char} (h : isAsciiDigit c = true) :
    48 ≤ c.toNat ∧ c.toNat ≤ 57 := by
  simp only [isAsciiDigit, Char.isDigit, Bool.and_eq_true, decide_eq_true_eq] at h
  exact h

/-- Letters and digits are no blanks. -/
theorem isBlank_of_isAlphanum {c : Char} (h : c.isAlphanum = true) : isBlank c = false := by
  rw [Char.isAlphanum, Bool.or_eq_true] at h
  have hc := h.imp toNat_of_isAlpha toNat_of_isAsciiDigit
  rw [Bool.eq_false_iff, ne_eq, isBlank, Range.anyHas_iff]
  rintro ⟨r, hr, hfirst, hlast⟩
  simp only [blankRanges, informationSeparators, List.mem_cons, List.not_mem_nil, or_false] at hr
  rcases hr with rfl | rfl | rfl | rfl | rfl | rfl | rfl | rfl | rfl | rfl | rfl <;>
    simp only at hfirst hlast <;> omega

theorem isBlank_of_isAlpha {c : Char} (h : c.isAlpha = true) : isBlank c = false :=
  isBlank_of_isAlphanum (by rw [Char.isAlphanum, h, Bool.true_or])

theorem isBlank_of_isAsciiDigit {c : Char} (h : isAsciiDigit c = true) : isBlank c = false :=
  isBlank_of_isAlphanum (by rw [Char.isAlphanum, show c.isDigit = true from h, Bool.or_true])

/-- The digits of a script are the ten characters from its zero on. -/
theorem exists_digitZero {c : Char} (h : isDigit c = true) :
    ∃ z ∈ digitZeros, z ≤ c.toNat ∧ c.toNat ≤ z + 9 := by
  unfold isDigit digitValue? at h
  by_cases hc : (0x30 ≤ c.toNat && c.toNat ≤ 0x39) = true
  · rw [Bool.and_eq_true, decide_eq_true_eq, decide_eq_true_eq] at hc
    exact ⟨0x30, List.mem_cons_self, hc⟩
  · rw [if_neg hc, Option.isSome_map, List.find?_isSome] at h
    rcases h with ⟨z, hz, hrange⟩
    rw [Bool.and_eq_true, decide_eq_true_eq, decide_eq_true_eq] at hrange
    exact ⟨z, hz, hrange⟩

/-- The digits of other scripts lie behind the ASCII characters. -/
theorem toNat_of_isDigit {c : Char} (h : isDigit c = true) :
    48 ≤ c.toNat ∧ (c.toNat ≤ 57 ∨ 127 < c.toNat) := by
  have hapart : ∀ z ∈ digitZeros, 48 ≤ z ∧ (z + 9 ≤ 57 ∨ 127 < z) := by decide
  rcases exists_digitZero h with ⟨z, hz, hfirst, hlast⟩
  have := hapart z hz
  omega

/-- Letters are no digits of any script. -/
theorem isAlpha_of_isDigit {c : Char} (h : isDigit c = true) : c.isAlpha = false := by
  have hdigit := toNat_of_isDigit h
  rw [Bool.eq_false_iff]
  intro hletter
  have := toNat_of_isAlpha hletter
  omega

/-- Digits of any script are no blanks. -/
theorem isBlank_of_isDigit {c : Char} (h : isDigit c = true) : isBlank c = false := by
  have hapart : ∀ z ∈ digitZeros, ∀ r ∈ blankRanges, z + 9 < r.first ∨ r.last < z := by decide
  rcases exists_digitZero h with ⟨z, hz, hfirst, hlast⟩
  rw [Bool.eq_false_iff, ne_eq, isBlank, Range.anyHas_iff]
  rintro ⟨r, hr, hblank⟩
  have := hapart z hz r hr
  omega

theorem isDigit_of_isBlank {c : Char} (h : isBlank c = true) : isDigit c = false := by
  rw [Bool.eq_false_iff]
  intro hdigit
  rw [isBlank_of_isDigit hdigit] at h
  exact Bool.noConfusion h

/-- The ASCII digits are the digits of the first script. -/
theorem digitValue?_of_isAsciiDigit {c : Char} (h : isAsciiDigit c = true) :
    digitValue? c = some (c.toNat - 48) := by
  have hc := toNat_of_isAsciiDigit h
  unfold digitValue?
  rw [if_pos (by simp only [Bool.and_eq_true, decide_eq_true_eq]; exact hc)]

theorem isDigit_of_isAsciiDigit {c : Char} (h : isAsciiDigit c = true) : isDigit c = true := by
  rw [isDigit, digitValue?_of_isAsciiDigit h, Option.isSome_some]

theorem digitValue?_le_nine {c : Char} {n : Nat} (h : digitValue? c = some n) : n ≤ 9 := by
  unfold digitValue? at h
  by_cases hc : (0x30 ≤ c.toNat && c.toNat ≤ 0x39) = true
  · rw [if_pos hc, Option.some.injEq] at h
    simp only [Bool.and_eq_true, decide_eq_true_eq] at hc
    omega
  · rw [if_neg hc] at h
    rcases Option.map_eq_some_iff.1 h with ⟨z, hz, hn⟩
    have hz' := List.find?_some hz
    simp only [Bool.and_eq_true, decide_eq_true_eq] at hz'
    omega

theorem isAsciiDigit_of_mem_toDigits {n : Nat} {c : Char} (h : c ∈ Nat.toDigits 10 n) :
    isAsciiDigit c = true :=
  Nat.isDigit_of_mem_toDigits (by decide) (by decide) h

theorem isDigit_of_mem_toDigits {n : Nat} {c : Char} (h : c ∈ Nat.toDigits 10 n) :
    isDigit c = true :=
  isDigit_of_isAsciiDigit (isAsciiDigit_of_mem_toDigits h)

/-- The digits of a number stand for it. -/
theorem ofDigits_toDigits (n : Nat) : ofDigits (Nat.toDigits 10 n) = n := by
  have hfold : ∀ (cs : List Char) (k : Nat), (∀ c ∈ cs, isAsciiDigit c = true) →
      cs.foldl (fun m c => 10 * m + (digitValue? c).getD 0) k = Nat.ofDigitChars 10 cs k := by
    intro cs
    induction cs with
    | nil => intro k _; rfl
    | cons c cs ih =>
        intro k hcs
        rw [List.foldl_cons, ih _ (fun d hd => hcs d (List.mem_cons_of_mem c hd)),
          Nat.ofDigitChars_cons, digitValue?_of_isAsciiDigit (hcs c List.mem_cons_self)]
        rfl
  rw [ofDigits, hfold _ 0 (fun c hc => isAsciiDigit_of_mem_toDigits hc),
    Nat.ofDigitChars_ten_toDigits]

/-- A run of digits stands for a number with at most as many digits. -/
theorem ofDigits_lt (ds : List Char) : ofDigits ds < 10 ^ ds.length := by
  have hfold : ∀ (cs : List Char) (k : Nat),
      cs.foldl (fun m c => 10 * m + (digitValue? c).getD 0) k < (k + 1) * 10 ^ cs.length := by
    intro cs
    induction cs with
    | nil => intro k; rw [List.foldl_nil, List.length_nil, Nat.pow_zero]; omega
    | cons c cs ih =>
        intro k
        have hdigit : (digitValue? c).getD 0 ≤ 9 := by
          cases hc : digitValue? c with
          | none => exact Nat.zero_le 9
          | some n => exact digitValue?_le_nine hc
        rw [List.foldl_cons, List.length_cons, Nat.pow_succ]
        calc cs.foldl (fun m c => 10 * m + (digitValue? c).getD 0)
              (10 * k + (digitValue? c).getD 0)
            < (10 * k + (digitValue? c).getD 0 + 1) * 10 ^ cs.length := ih _
          _ ≤ ((k + 1) * 10) * 10 ^ cs.length := Nat.mul_le_mul_right _ (by omega)
          _ = (k + 1) * (10 ^ cs.length * 10) := by
              rw [Nat.mul_assoc, Nat.mul_comm 10]
  have h := hfold ds 0
  rwa [Nat.zero_add, Nat.one_mul] at h

/-- The digits of a positive number start with no zero. -/
theorem ne_zero_of_toDigits_eq_cons {n : Nat} (hn : 0 < n) {d : Char} {ds : List Char}
    (h : Nat.toDigits 10 n = d :: ds) : d ≠ '0' := by
  intro hd
  -- The zero could be left out, so the number would have fewer digits.
  have hvalue : ofDigits ds = n := by
    have := ofDigits_toDigits n
    rw [h, hd] at this
    exact this
  have hlt : n < 10 ^ ds.length := by
    have := ofDigits_lt ds
    rwa [hvalue] at this
  have hpos : 0 < ds.length := by
    refine Nat.pos_of_ne_zero fun hempty => ?_
    rw [hempty, Nat.pow_zero] at hlt
    omega
  have hle := (Nat.length_toDigits_le_iff (by decide) hpos).2 hlt
  rw [h, List.length_cons] at hle
  omega

theorem readDigits?_append {digits rest : List Char} (hne : digits ≠ [])
    (hdigits : ∀ c ∈ digits, isDigit c = true) (hrest : Stops isDigit rest) :
    readDigits? (digits ++ rest) = some (digits, rest) := by
  unfold readDigits?
  rw [takeWhile_append_of_stops hdigits hrest, dropWhile_append_of_stops hdigits hrest,
    if_neg (by rw [List.isEmpty_iff]; exact hne)]

/-- The digits of a number are read back, as far as they go. -/
theorem readDigits?_toDigits_append (n : Nat) {rest : List Char} (hrest : Stops isDigit rest) :
    readDigits? (Nat.toDigits 10 n ++ rest) = some (Nat.toDigits 10 n, rest) :=
  readDigits?_append Nat.toDigits_ne_nil (fun _ hc => isDigit_of_mem_toDigits hc) hrest

/-- A number and what stands behind it are told apart by where the digits end. -/
theorem toDigits_append_inj {m n : Nat} {a b : List Char} (ha : Stops isDigit a)
    (hb : Stops isDigit b) (h : Nat.toDigits 10 m ++ a = Nat.toDigits 10 n ++ b) :
    m = n ∧ a = b := by
  have hread := readDigits?_toDigits_append m ha
  rw [h, readDigits?_toDigits_append n hb, Option.some.injEq, Prod.mk.injEq] at hread
  refine ⟨?_, hread.2.symm⟩
  rw [← ofDigits_toDigits m, ← hread.1, ofDigits_toDigits]

theorem readDigits?_of_stops {cs : List Char} (h : Stops isDigit cs) : readDigits? cs = none := by
  unfold readDigits?
  rw [takeWhile_of_stops h, List.isEmpty_nil, if_pos rfl]

theorem readDigits?_eq_some {cs digits rest : List Char}
    (h : readDigits? cs = some (digits, rest)) : cs = digits ++ rest := by
  unfold readDigits? at h
  split at h
  · simp only [reduceCtorEq] at h
  · simp only [Option.some.injEq, Prod.mk.injEq] at h
    rw [← h.1, ← h.2, List.takeWhile_append_dropWhile]

/-- Digits are read to their end. -/
theorem stops_of_readDigits? {cs digits rest : List Char}
    (h : readDigits? cs = some (digits, rest)) : Stops isDigit rest := by
  unfold readDigits? at h
  split at h
  · simp only [reduceCtorEq] at h
  · rw [Option.some.injEq, Prod.mk.injEq] at h
    rw [← h.2]
    exact stops_dropWhile isDigit cs

/-! ### Length of numbers -/

theorem isWritable_natCast (n : Nat) :
    isWritable (n : Int) = true ↔ (Nat.toDigits 10 n).length ≤ maxDigits := by
  rw [isWritable, Int.natAbs_natCast, decide_eq_true_eq]

/-- A sign does not count. -/
theorem isWritable_neg (n : Int) : isWritable (-n) = isWritable n := by
  rw [isWritable, isWritable, Int.natAbs_neg]

/-- Numbers are writable below a power of ten. -/
theorem isWritable_natCast_iff_lt (n : Nat) :
    isWritable (n : Int) = true ↔ n < 10 ^ maxDigits := by
  rw [isWritable_natCast, Nat.length_toDigits_le_iff (by decide) (by decide)]

/-- Numbers of at most some digits. -/
def IsShort (digits : Nat) (n : Int) : Prop :=
  -10 ^ digits < n ∧ n < 10 ^ digits

instance (digits : Nat) (n : Int) : Decidable (IsShort digits n) :=
  inferInstanceAs (Decidable (_ ∧ _))

theorem pow_le_pow_of_le {digits most : Nat} (h : digits ≤ most) :
    (10 : Int) ^ digits ≤ 10 ^ most := by
  have hpow := Int.ofNat_le.2 (Nat.pow_le_pow_right (show 0 < 10 by decide) h)
  rwa [Int.natCast_pow, Int.natCast_pow] at hpow

theorem IsShort.mono {digits most : Nat} {n : Int} (h : IsShort digits n)
    (hdigits : digits ≤ most) : IsShort most n := by
  have hpow := pow_le_pow_of_le hdigits
  unfold IsShort at h ⊢
  omega

theorem IsShort.isWritable {digits : Nat} {n : Int} (h : IsShort digits n)
    (hdigits : digits ≤ maxDigits) : isWritable n = true := by
  have hsize : n.natAbs < 10 ^ digits := by
    have hcast : ((10 ^ digits : Nat) : Int) = 10 ^ digits := Int.natCast_pow 10 digits
    rw [IsShort, ← hcast] at h
    omega
  change Text.isWritable (n.natAbs : Int) = true
  rw [isWritable_natCast_iff_lt]
  exact Nat.lt_of_lt_of_le hsize (Nat.pow_le_pow_right (by decide) hdigits)

end Text

/-- The digits of a writable number are read as that number. -/
theorem numberOfDigits_toDigits {n : Nat} (h : Text.isWritable (n : Int) = true) :
    numberOfDigits (Nat.toDigits 10 n) = .ok n := by
  unfold numberOfDigits
  rw [if_neg (Nat.not_lt.2 ((Text.isWritable_natCast n).1 h)), Text.ofDigits_toDigits]

/-- A number that was read is short enough to be written. -/
theorem isWritable_of_numberOfDigits {digits : List Char} {n : Nat}
    (h : numberOfDigits digits = .ok n) : Text.isWritable (n : Int) = true := by
  unfold numberOfDigits at h
  split at h
  · simp only [reduceCtorEq] at h
  · rename_i hlen
    simp only [Except.ok.injEq] at h
    rw [Text.isWritable_natCast_iff_lt, ← h]
    calc Text.ofDigits digits < 10 ^ digits.length := Text.ofDigits_lt digits
      _ ≤ 10 ^ Text.maxDigits := Nat.pow_le_pow_right (by decide) (by omega)

end IceFigures
