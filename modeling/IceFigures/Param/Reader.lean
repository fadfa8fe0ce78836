import IceFigures.Fault

/-!
# Reading Parameters

A list of parameters is written `[name=value, ...]`, with blanks anywhere
between its signs. Reading goes from left to right and never looks back: each
reader takes what it can from the front of the text and hands on the rest.

Every entry takes up at least its name, so the rest is shorter than what it was
read from (`readEntry_length`) and reading a list comes to an end.

## Main definitions

* `readQuoted?`: The inside of a text in double quotes.
* `Value.read`: A value at the start of a text and what follows it.
* `Value.parse`: The value that a whole text is.
* `readEntry`: One `name=value`.
* `readEntries`: The entries up to the closing bracket.
* `parseList`: The parameters of a whole bracketed list.

## Theorems

* `Value.read_length`: What follows a value is no longer than the text.
* `readEntry_length`: What follows an entry is shorter than the text.
-/

namespace IceFigures

/-- The inside of a text in double quotes up to the closing quote, and what
    follows it. A backslash stands before any character but a line end and
    drops out. -/
def readQuoted? : List Char → Option (List Char × List Char)
  | [] => none
  | ['\\'] => none
  | '\\' :: c :: cs => if c = '\n' then none else (readQuoted? cs).map fun r => (c :: r.1, r.2)
  | c :: cs =>
    if c = '\x22' then some ([], cs) else (readQuoted? cs).map fun r => (c :: r.1, r.2)

/-- Whether a character may go on a name. -/
def isNameChar (c : Char) : Bool :=
  c.isAlphanum || c = '_' || c = '-'

/-- The text after a word, if the text starts with it and does not go on as a
    longer name. -/
def afterWord? (word cs : List Char) : Option (List Char) :=
  (List.isPrefixOf? word cs).bind fun rest =>
    if rest.head?.any isNameChar then none else some rest

/-- A flag at the start of a text and what follows it. -/
def readFlag? (cs : List Char) : Option (Bool × List Char) :=
  [("true", true), ("false", false), ("y", true), ("Y", true), ("n", false), ("N", false)].findSome?
    fun w => (afterWord? w.1.toList cs).map (w.2, ·)

/-- The sign of a number, if it has one, and what follows it. -/
def readSign : List Char → List Char × List Char
  | '+' :: cs => (['+'], cs)
  | '-' :: cs => (['-'], cs)
  | cs => ([], cs)

/-- The least number that a list may hold. -/
def minNumber : Int := -2147483648

/-- The greatest number that a list may hold. -/
def maxNumber : Int := 2147483647

namespace Value

/-- The number of a sign and digits, if a list may hold it. -/
def numberOf (sign digits : List Char) : Except Fault Value := do
  let size : Int ← numberOfDigits digits
  let n := if sign = ['-'] then -size else size
  if minNumber ≤ n ∧ n ≤ maxNumber then return number n
  throw (.numberTooLarge (String.ofList (sign ++ digits)))

/-- A text in double quotes at the start of a text and what follows it. -/
def readText? : List Char → Option (Value × List Char)
  | [] => none
  | c :: cs =>
    if c = '\x22' then (readQuoted? cs).map fun r => (text (String.ofList r.1), r.2) else none

/-- A value at the start of a text and what follows it. -/
def read (cs : List Char) : Except Fault (Value × List Char) :=
  match readText? cs with
  | some r => .ok r
  | none =>
    match readFlag? cs with
    | some (b, rest) => .ok (flag b, rest)
    | none =>
      match Text.readDigits? (readSign cs).2 with
      | some (digits, rest) => (numberOf (readSign cs).1 digits).map fun v => (v, rest)
      | none => .error (.noValue (String.ofList cs))

/-- The value that a whole text is. -/
def parse (s : String) : Except Fault Value := do
  let (v, rest) ← read s.toList
  if rest.isEmpty then return v
  throw (.textAfterValue s)

end Value

/-- The text after a sign, with any blanks before and after the sign dropped. -/
def afterSign? (sign : Char) (cs : List Char) : Option (List Char) :=
  match Text.dropBlanks cs with
  | c :: rest => if c = sign then some (Text.dropBlanks rest) else none
  | [] => none

/-- The text after a closing bracket, with any blanks before it dropped. -/
def afterClosing? (cs : List Char) : Option (List Char) :=
  match Text.dropBlanks cs with
  | ']' :: rest => some rest
  | _ => none

/-- A parameter name at the start of a text and what follows it. -/
def readName? : List Char → Option (List Char × List Char)
  | [] => none
  | c :: cs =>
    if c.isAlpha then some (c :: cs.takeWhile isNameChar, cs.dropWhile isNameChar) else none

/-- One `name=value` and what follows it. -/
def readEntry (cs : List Char) : Except Fault (Param × List Char) :=
  match readName? cs with
  | none => .error (.noName (String.ofList cs))
  | some (name, rest) =>
    match afterSign? '=' rest with
    | none => .error (.noEquals (String.ofList name))
    | some rest => do
      let (value, rest) ← Value.read rest
      return ({ name := String.ofList name, value := value }, rest)

/-! ### Reading shortens the text -/

theorem readQuoted?_length {cs : List Char} {r : List Char × List Char}
    (h : readQuoted? cs = some r) : r.2.length < cs.length := by
  fun_induction readQuoted? cs generalizing r with
  | case1 => simp at h
  | case2 => simp at h
  | case3 cs => simp at h
  | case4 c cs hc ih =>
    obtain ⟨u, hu, rfl⟩ := Option.map_eq_some_iff.1 h
    have := ih hu
    simp only [List.length_cons]
    omega
  | case5 cs =>
    simp only [Option.some.injEq] at h
    subst h
    simp
  | case6 c cs _ _ hc ih =>
    obtain ⟨u, hu, rfl⟩ := Option.map_eq_some_iff.1 h
    have := ih hu
    simp only [List.length_cons]
    omega

theorem length_dropWhile_le (p : Char → Bool) (cs : List Char) :
    (cs.dropWhile p).length ≤ cs.length :=
  (List.dropWhile_suffix p).length_le

theorem afterSign?_length {sign : Char} {cs rest : List Char}
    (h : afterSign? sign cs = some rest) : rest.length < cs.length := by
  have hd := length_dropWhile_le Text.isBlank cs
  unfold afterSign? Text.dropBlanks at h
  split at h
  · rename_i c r hc
    split at h
    · have hr := length_dropWhile_le Text.isBlank r
      rw [hc, List.length_cons] at hd
      simp only [Option.some.injEq] at h
      subst h
      omega
    · simp at h
  · simp at h

theorem isPrefixOf?_length {word cs rest : List Char} (h : word.isPrefixOf? cs = some rest) :
    rest.length ≤ cs.length := by
  induction word generalizing cs with
  | nil => exact Nat.le_of_eq (congrArg _ (Option.some.inj h).symm)
  | cons w ws ih =>
      cases cs with
      | nil => cases h
      | cons c cs =>
          change (if w == c then ws.isPrefixOf? cs else none) = some rest at h
          split at h
          · exact Nat.le_succ_of_le (ih h)
          · cases h

theorem afterWord?_length {word cs rest : List Char} (h : afterWord? word cs = some rest) :
    rest.length ≤ cs.length := by
  obtain ⟨r, hr, hif⟩ := Option.bind_eq_some_iff.1 h
  split at hif
  · simp at hif
  · simp only [Option.some.injEq] at hif
    subst hif
    exact isPrefixOf?_length hr

theorem readFlag?_length {cs : List Char} {r : Bool × List Char} (h : readFlag? cs = some r) :
    r.2.length ≤ cs.length := by
  obtain ⟨w, _, hw⟩ := List.exists_of_findSome?_eq_some h
  obtain ⟨rest, hrest, rfl⟩ := Option.map_eq_some_iff.1 hw
  exact afterWord?_length hrest

theorem readSign_length (cs : List Char) : (readSign cs).2.length ≤ cs.length := by
  fun_cases readSign cs <;> simp

namespace Value

theorem read_length {cs rest : List Char} {v : Value} (h : read cs = .ok (v, rest)) :
    rest.length ≤ cs.length := by
  unfold read at h
  split at h
  · rename_i r hr
    simp only [Except.ok.injEq] at h
    subst h
    unfold readText? at hr
    split at hr
    · simp at hr
    · split at hr
      · obtain ⟨u, hu, hv⟩ := Option.map_eq_some_iff.1 hr
        have := readQuoted?_length hu
        simp only [Prod.mk.injEq] at hv
        rw [List.length_cons, ← hv.2]
        omega
      · simp at hr
  · split at h
    · rename_i b r hr
      simp only [Except.ok.injEq, Prod.mk.injEq] at h
      rw [← h.2]
      exact readFlag?_length hr
    · have hs := readSign_length cs
      split at h
      · rename_i digits r hd
        unfold Text.readDigits? at hd
        split at hd
        · simp at hd
        · have hw := length_dropWhile_le Text.isDigit (readSign cs).2
          simp only [Option.some.injEq, Prod.mk.injEq] at hd
          cases hn : numberOf (readSign cs).1 digits with
          | error e =>
            rw [hn] at h
            simp [Except.map] at h
          | ok w =>
            rw [hn] at h
            simp only [Except.map, Except.ok.injEq, Prod.mk.injEq] at h
            rw [← h.2, ← hd.2]
            omega
      · simp at h

end Value

theorem readEntry_length {cs rest : List Char} {p : Param} (h : readEntry cs = .ok (p, rest)) :
    rest.length < cs.length := by
  unfold readEntry at h
  split at h
  · simp at h
  · rename_i name r hname
    have hn : r.length < cs.length := by
      unfold readName? at hname
      split at hname
      · simp at hname
      · split at hname
        · rename_i c tail _
          have := length_dropWhile_le isNameChar tail
          simp only [Option.some.injEq, Prod.mk.injEq] at hname
          rw [List.length_cons, ← hname.2]
          omega
        · simp at hname
    split at h
    · simp at h
    · rename_i r2 hs
      have hs := afterSign?_length hs
      cases hv : Value.read r2 with
      | error e =>
        rw [hv] at h
        simp [bind, Except.bind] at h
      | ok w =>
        rw [hv] at h
        simp only [bind, Except.bind, pure, Except.pure, Except.ok.injEq, Prod.mk.injEq] at h
        have hw : Value.read r2 = .ok (w.1, w.2) := hv
        have := Value.read_length hw
        rw [← h.2]
        omega

/-! ### Lists -/

/-- The entries of a list up to its closing bracket, and what follows it. -/
def readEntries (cs : List Char) : Except Fault (List Param × List Char) :=
  match h : readEntry cs with
  | .error e => .error e
  | .ok (p, rest) =>
    match afterClosing? rest with
    | some tail => .ok ([p], tail)
    | none =>
      match hs : afterSign? ',' rest with
      | none => .error (.noSeparator (String.ofList rest))
      | some next =>
        have : next.length < cs.length := by
          have h1 := readEntry_length h
          have h2 := afterSign?_length hs
          omega
        match readEntries next with
        | .error e => .error e
        | .ok (ps, tail) => .ok (p :: ps, tail)
termination_by cs.length

/-- The parameters of a bracketed list and what follows it. -/
def readList (cs : List Char) : Except Fault (List Param × List Char) :=
  match cs with
  | '[' :: rest =>
    match afterClosing? rest with
    | some tail => .ok ([], tail)
    | none => readEntries (Text.dropBlanks rest)
  | _ => .error (.noList (String.ofList cs))

/-- The parameters of a whole bracketed list. -/
def parseList (cs : List Char) : Except Fault (List Param) :=
  match readList cs with
  | .error e => .error e
  | .ok (ps, rest) =>
    if (Text.trim rest).isEmpty then .ok ps
    else .error (.textAfterList (String.ofList (Text.trim rest)))

end IceFigures
