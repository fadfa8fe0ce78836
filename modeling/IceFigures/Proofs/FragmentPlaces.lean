import IceFigures.Proofs.Segments
import Mathlib.Data.List.DropRight

/-!
# Where Fragments Stand

The fragments of a text account for all of it. Each stands in its line at its
own column, between two separators and with nothing but blanks in between
(`Fragment.CutFrom`), and every character that is neither a blank nor a
separator nor part of a comment stands in one fragment and in no other
(`Fragment.Accounts`).

Columns are counted along a line while its pieces are trimmed and blank ones are
left out. All statements about pieces are therefore about the line that they
make when they are joined again, moved by the column at which the first of them
starts; an induction over the pieces then adds one piece and one separator at a
time.

## Main definitions

* `Fragment.CutFrom`: How a fragment stands in a line.
* `Fragment.Precedes`: One fragment ends before another one starts.
* `Fragment.Covers`: The characters of a fragment.
* `Written`: Characters that are part of a fragment.
* `Fragment.StandsIn`: How a fragment stands in a text.
* `Fragment.Accounts`: Fragments that account for a text.
* `Fragment.lowered`: A fragment further down.

## Theorems

* `Text.trim_cut`: A text is what is left of it between its blanks.
* `cutFrom_of_mem_ofLine`: Fragments stand in their lines.
* `exists_covers_of_written`: Written characters stand in fragments.
* `pairwise_ofLines`: Fragments come one after another.
* `accounts_ofText`: The fragments of a text account for it, line by line.
-/

namespace IceFigures

/-- The lines of a text. -/
def Text.lines (text : String) : List (List Char) :=
  text.toList.splitOn '\n'

/-- Characters of a line that are written: neither blanks nor semicolons, and in
    front of the first comment sign. -/
structure Written (cs : List Char) (col : Nat) (c : Char) : Prop where
  get : cs[col]? = some c
  not_blank : Text.isBlank c = false
  not_semicolon : c ≠ ';'
  not_comment : '#' ∉ cs.take (col + 1)

namespace Fragment

/-- A fragment that stands in a line at its own column, after blanks and the
    start of the line or a semicolon, and before blanks and the end of the line,
    a semicolon or a comment. -/
def CutFrom (f : Fragment) (line : List Char) : Prop :=
  ∃ before left right behind : List Char,
    line = before ++ left ++ f.text.toList ++ right ++ behind ∧
      f.place.col = (before ++ left).length ∧
      (∀ c ∈ left ++ right, Text.isBlank c = true) ∧ '#' ∉ before ∧
      (before = [] ∨ before.getLast? = some ';') ∧
      (behind = [] ∨ behind.head? = some ';' ∨ behind.head? = some '#')

/-- A fragment that ends before another one starts. -/
def Precedes (f g : Fragment) : Prop :=
  f.place.row < g.place.row ∨
    f.place.row = g.place.row ∧ f.place.col + f.text.toList.length < g.place.col

/-- Whether a character of the text belongs to the fragment. -/
def Covers (f : Fragment) (row col : Nat) : Prop :=
  f.place.row = row ∧ f.place.col ≤ col ∧ col < f.place.col + f.text.toList.length

/-- The fragment some rows further down. -/
def lowered (rows : Nat) (f : Fragment) : Fragment :=
  { f with place := { f.place with row := f.place.row + rows } }

/-- Fragments that account for a text, from its first line to its last. -/
structure Accounts (text : String) (fs : List Fragment) : Prop where
  /-- They come one after another and do not overlap. -/
  precedes : fs.Pairwise Precedes
  /-- They hold no line end, semicolon or comment sign. -/
  plain : ∀ f ∈ fs, IsPlain f.text.toList
  /-- None of them is empty, and there is no blank at either end. -/
  ne_nil : ∀ f ∈ fs, f.text.toList ≠ []
  head_not_blank : ∀ f ∈ fs, ∀ c ∈ f.text.toList.head?, Text.isBlank c = false
  last_not_blank : ∀ f ∈ fs, ∀ c ∈ f.text.toList.getLast?, Text.isBlank c = false
  /-- They stand in their rows, up to the separators around them. -/
  cut : ∀ f ∈ fs, ∃ line, (Text.lines text)[f.place.row]? = some line ∧ f.CutFrom line
  /-- Whatever is written stands in exactly one of them. -/
  covered : ∀ row col line c, (Text.lines text)[row]? = some line → Written line col c →
    ∃! f, f ∈ fs ∧ f.Covers row col

end Fragment

/-! ### Trimming -/

namespace Text

/-- A text is what is left of it between its blanks. -/
theorem trim_cut (cs : List Char) :
    ∃ right, cs = cs.takeWhile isBlank ++ trim cs ++ right ∧ ∀ c ∈ right, isBlank c = true := by
  refine ⟨(dropBlanks cs).rtakeWhile isBlank, ?_, fun c hc => List.mem_rtakeWhile_imp hc⟩
  have hend : trim cs ++ (dropBlanks cs).rtakeWhile isBlank = dropBlanks cs :=
    List.rdropWhile_append_rtakeWhile
  rw [List.append_assoc, hend, dropBlanks, List.takeWhile_append_dropWhile]

theorem isBlank_of_mem_head?_trim {cs : List Char} {c : Char} (h : c ∈ (trim cs).head?) :
    isBlank c = false := by
  have hstart : trim cs <+: dropBlanks cs := List.rdropWhile_prefix _ _
  rcases List.head?_eq_some_iff.1 h with ⟨tail, htail⟩
  rcases hstart with ⟨right, hright⟩
  have hhead := List.head?_dropWhile_not isBlank cs
  rw [← dropBlanks, ← hright, htail] at hhead
  exact hhead

theorem isBlank_of_mem_getLast?_trim {cs : List Char} {c : Char} (h : c ∈ (trim cs).getLast?) :
    isBlank c = false := by
  have hne : (dropBlanks cs).rdropWhile isBlank ≠ [] := by
    intro hnil
    rw [trim, show dropBlanksEnd (dropBlanks cs) = [] from hnil] at h
    cases h
  have hlast : ((dropBlanks cs).rdropWhile isBlank).getLast hne = c :=
    List.getLast_of_mem_getLast? h
  rw [← hlast, ← Bool.not_eq_true]
  exact List.rdropWhile_last_not _ _ hne

/-- A character that is no blank is left when a text is trimmed. -/
theorem lt_length_trim {cs : List Char} {k : Nat} {c : Char} (hget : cs[k]? = some c)
    (hc : isBlank c = false) :
    (cs.takeWhile isBlank).length ≤ k ∧ k < (cs.takeWhile isBlank).length + (trim cs).length := by
  rcases trim_cut cs with ⟨right, hcut, hright⟩
  have hne : ∀ d, isBlank d = true → d ≠ c := by
    intro d hd heq
    rw [heq, hc] at hd
    exact Bool.noConfusion hd
  rw [hcut, List.append_assoc] at hget
  constructor
  · by_contra hlt
    rw [List.getElem?_append_left (by omega)] at hget
    exact hne c (List.mem_takeWhile_imp (List.mem_of_getElem? hget)) rfl
  · by_contra hlt
    rw [List.getElem?_append_right (by omega), List.getElem?_append_right (by omega)] at hget
    exact hne c (hright c (List.mem_of_getElem? hget)) rfl

end Text

namespace Fragment

/-! ### Pieces -/

theorem ofPieces_cons (row col : Nat) (piece : List Char) (rest : List (List Char)) :
    ofPieces row col (piece :: rest) =
      if (Text.trim piece).isEmpty then ofPieces row (col + piece.length + 1) rest
      else { place := { row := row, col := col + (piece.takeWhile Text.isBlank).length },
             text := String.ofList (Text.trim piece) } ::
        ofPieces row (col + piece.length + 1) rest := rfl

/-- The piece in front of others is joined to them by a semicolon. -/
theorem intercalate_cons (piece : List Char) (rest : List (List Char)) :
    (rest = [] ∧ [';'].intercalate (piece :: rest) = piece) ∨
      [';'].intercalate (piece :: rest) = piece ++ ';' :: [';'].intercalate rest := by
  cases rest with
  | nil => exact Or.inl ⟨rfl, List.intercalate_singleton⟩
  | cons next later =>
      rw [List.intercalate_cons_cons, List.append_assoc, List.singleton_append]
      exact Or.inr rfl

/-- Joined pieces begin with the first of them. -/
theorem exists_intercalate_cons (piece : List Char) (rest : List (List Char)) :
    ∃ behind, [';'].intercalate (piece :: rest) = piece ++ behind ∧
      (behind = [] ∨ behind.head? = some ';') := by
  rcases intercalate_cons piece rest with ⟨-, hjoined⟩ | hjoined
  · exact ⟨[], by rw [hjoined, List.append_nil], Or.inl rfl⟩
  · exact ⟨_, hjoined, Or.inr rfl⟩

/-- A fragment that stands between semicolons in a text that starts at a column. -/
def StandsIn (f : Fragment) (col : Nat) (cs : List Char) : Prop :=
  ∃ before left right behind : List Char,
    cs = before ++ left ++ f.text.toList ++ right ++ behind ∧
      f.place.col = col + (before ++ left).length ∧
      (∀ c ∈ left ++ right, Text.isBlank c = true) ∧
      (before = [] ∨ before.getLast? = some ';') ∧ (behind = [] ∨ behind.head? = some ';')

/-- A fragment stands in the same place when a piece is put in front. -/
theorem StandsIn.after {f : Fragment} {col : Nat} {piece cs : List Char}
    (h : f.StandsIn (col + piece.length + 1) cs) : f.StandsIn col (piece ++ ';' :: cs) := by
  rcases h with ⟨before, left, right, behind, hcs, hcol, hblanks, hstart, hend⟩
  refine ⟨piece ++ ';' :: before, left, right, behind, ?_, ?_, hblanks, Or.inr ?_, hend⟩
  · rw [hcs]
    simp only [List.append_assoc, List.cons_append]
  · rw [hcol]
    simp only [List.length_append, List.length_cons]
    omega
  · rcases hstart with rfl | hlast
    · exact List.getLast?_concat
    · rw [List.getLast?_append, List.getLast?_cons, hlast]
      rfl

-- By induction on the pieces: what stands in front of a later piece grows by the
-- first one and a semicolon.
theorem standsIn_of_mem_ofPieces {row col : Nat} {pieces : List (List Char)} {f : Fragment}
    (h : f ∈ ofPieces row col pieces) : f.StandsIn col ([';'].intercalate pieces) := by
  induction pieces generalizing col with
  | nil => exact absurd h List.not_mem_nil
  | cons piece rest ih =>
      have hlater : f ∈ ofPieces row (col + piece.length + 1) rest →
          f.StandsIn col ([';'].intercalate (piece :: rest)) := by
        intro hmem
        rcases intercalate_cons piece rest with ⟨rfl, -⟩ | hjoined
        · exact absurd hmem List.not_mem_nil
        · rw [hjoined]
          exact (ih hmem).after
      rw [ofPieces_cons] at h
      split at h
      · exact hlater h
      rcases List.mem_cons.1 h with rfl | h
      · rcases Text.trim_cut piece with ⟨right, hcut, hright⟩
        rcases exists_intercalate_cons piece rest with ⟨behind, hjoined, hbehind⟩
        refine ⟨[], piece.takeWhile Text.isBlank, right, behind, ?_, rfl, ?_, Or.inl rfl, hbehind⟩
        · rw [hjoined, String.toList_ofList, List.nil_append, ← hcut]
        · intro c hc
          rcases List.mem_append.1 hc with hc | hc
          · exact List.mem_takeWhile_imp hc
          · exact hright c hc
      · exact hlater h

/-- What is written in joined pieces stands in a fragment of them. -/
theorem exists_covers (row col : Nat) {pieces : List (List Char)} {k : Nat} {c : Char}
    (hget : ([';'].intercalate pieces)[k]? = some c) (hblank : Text.isBlank c = false)
    (hsemicolon : c ≠ ';') : ∃ f ∈ ofPieces row col pieces, f.Covers row (col + k) := by
  induction pieces generalizing col k with
  | nil =>
      rw [List.intercalate_nil, List.getElem?_nil] at hget
      cases hget
  | cons piece rest ih =>
      rw [ofPieces_cons]
      by_cases hk : k < piece.length
      · -- The character is in the first piece, and is left when that is trimmed.
        rcases exists_intercalate_cons piece rest with ⟨behind, hjoined, -⟩
        rw [hjoined, List.getElem?_append_left hk] at hget
        have hrange := Text.lt_length_trim hget hblank
        have hbody : ¬(Text.trim piece).isEmpty = true := by
          rw [List.isEmpty_iff_length_eq_zero]
          omega
        rw [if_neg hbody]
        refine ⟨_, List.mem_cons_self, rfl, ?_, ?_⟩
        · exact Nat.add_le_add_left hrange.1 col
        · rw [String.toList_ofList]
          change col + k < col + _ + _
          omega
      · rcases intercalate_cons piece rest with ⟨rfl, hjoined⟩ | hjoined
        · rw [hjoined, List.getElem?_eq_none (Nat.le_of_not_lt hk)] at hget
          cases hget
        rw [hjoined, List.getElem?_append_right (Nat.le_of_not_lt hk)] at hget
        cases hindex : k - piece.length with
        | zero =>
            rw [hindex, List.getElem?_cons_zero, Option.some.injEq] at hget
            exact absurd hget.symm hsemicolon
        | succ j =>
            rw [hindex, List.getElem?_cons_succ] at hget
            rcases ih (col + piece.length + 1) hget with ⟨f, hf, hcovers⟩
            have hcol : col + piece.length + 1 + j = col + k := by omega
            rw [hcol] at hcovers
            split
            · exact ⟨f, hf, hcovers⟩
            · exact ⟨f, List.mem_cons_of_mem _ hf, hcovers⟩

theorem pairwise_ofPieces (row col : Nat) (pieces : List (List Char)) :
    (ofPieces row col pieces).Pairwise Precedes := by
  induction pieces generalizing col with
  | nil => exact List.Pairwise.nil
  | cons piece rest ih =>
      rw [ofPieces_cons]
      split
      · exact ih _
      refine List.pairwise_cons.2 ⟨fun g hg => Or.inr ?_, ih _⟩
      -- A piece is no longer than the columns it takes up.
      rcases Text.trim_cut piece with ⟨right, hcut, -⟩
      have hlength := congrArg List.length hcut
      rw [List.length_append, List.length_append] at hlength
      rcases mem_ofPieces hg with ⟨hrow, hcol, -, -⟩
      rw [String.toList_ofList]
      exact ⟨hrow.symm, by change col + _ + _ < g.place.col; omega⟩

/-! ### Lines -/

/-- The part of a line in front of its comment, and the rest of it. -/
theorem exists_comment (line : List Char) :
    ∃ comment, line = line.takeWhile (· ≠ '#') ++ comment ∧
      (comment = [] ∨ comment.head? = some '#') := by
  refine ⟨line.dropWhile (· ≠ '#'), List.takeWhile_append_dropWhile.symm, ?_⟩
  have hhead := List.head?_dropWhile_not (· ≠ '#') line
  cases hdrop : line.dropWhile (· ≠ '#') with
  | nil => exact Or.inl rfl
  | cons c cs =>
      rw [hdrop] at hhead
      right
      simpa using hhead

theorem not_mem_takeWhile (line : List Char) : '#' ∉ line.takeWhile (· ≠ '#') := by
  intro h
  have := List.mem_takeWhile_imp h
  rw [decide_eq_true_eq] at this
  exact this rfl

/-- Fragments stand in their lines. -/
theorem cutFrom_of_mem_ofLine {row : Nat} {line : List Char} {f : Fragment}
    (h : f ∈ ofLine row line) : f.CutFrom line := by
  have hstands := standsIn_of_mem_ofPieces h
  rw [List.intercalate_splitOn] at hstands
  rcases hstands with ⟨before, left, right, behind, hcut, hcol, hblanks, hstart, hend⟩
  rcases exists_comment line with ⟨comment, hline, hcomment⟩
  refine ⟨before, left, right, behind ++ comment, ?_, ?_, hblanks, ?_, hstart, ?_⟩
  · rw [← List.append_assoc, ← hcut]
    exact hline
  · rw [hcol, Nat.zero_add]
  · intro hmem
    refine not_mem_takeWhile line ?_
    rw [hcut]
    simp only [List.mem_append, hmem, true_or]
  · rcases hend with rfl | hend
    · rw [List.nil_append]
      exact hcomment.imp id Or.inr
    · rw [List.head?_append, hend]
      exact Or.inr (Or.inl rfl)

/-- Written characters of a line stand in fragments of it. -/
theorem exists_covers_of_written {line : List Char} {col : Nat} {c : Char}
    (h : Written line col c) (row : Nat) : ∃ f ∈ ofLine row line, f.Covers row col := by
  rcases exists_comment line with ⟨comment, hline, hcomment⟩
  have hget := h.get
  -- A character behind the first part of the line would stand in the comment.
  have hlt : col < (line.takeWhile (· ≠ '#')).length := by
    by_contra hge
    have hle := Nat.le_of_not_lt hge
    rw [hline, List.getElem?_append_right hle] at hget
    rcases hcomment with rfl | hhead
    · rw [List.getElem?_nil] at hget
      cases hget
    rcases List.head?_eq_some_iff.1 hhead with ⟨tail, rfl⟩
    refine h.not_comment ?_
    rw [hline, List.take_append, Nat.sub_add_comm hle, List.take_succ_cons]
    exact List.mem_append_right _ List.mem_cons_self
  have hjoined : [';'].intercalate ((line.takeWhile (· ≠ '#')).splitOn ';') =
      line.takeWhile (· ≠ '#') := List.intercalate_splitOn ';'
  rw [hline, List.getElem?_append_left hlt, ← hjoined] at hget
  rcases exists_covers row 0 hget h.not_blank h.not_semicolon with ⟨f, hf, hcovers⟩
  rw [Nat.zero_add] at hcovers
  exact ⟨f, hf, hcovers⟩

theorem mem_ofLines_iff {row : Nat} {lines : List (List Char)} {f : Fragment} :
    f ∈ ofLines row lines ↔ ∃ i line, lines[i]? = some line ∧ f ∈ ofLine (row + i) line := by
  induction lines generalizing row with
  | nil => simp only [ofLines, List.not_mem_nil, List.getElem?_nil, reduceCtorEq, false_and,
      exists_false]
  | cons line rest ih =>
      rw [ofLines, List.mem_append, ih]
      constructor
      · rintro (hmem | ⟨i, l, hl, hmem⟩)
        · exact ⟨0, line, rfl, hmem⟩
        · refine ⟨i + 1, l, hl, ?_⟩
          rwa [Nat.add_comm i 1, ← Nat.add_assoc]
      · rintro ⟨i, l, hl, hmem⟩
        cases i with
        | zero =>
            rw [List.getElem?_cons_zero, Option.some.injEq] at hl
            subst hl
            exact Or.inl hmem
        | succ i =>
            refine Or.inr ⟨i, l, hl, ?_⟩
            rwa [Nat.add_comm i 1, ← Nat.add_assoc] at hmem

theorem pairwise_ofLines (row : Nat) (lines : List (List Char)) :
    (ofLines row lines).Pairwise Precedes := by
  induction lines generalizing row with
  | nil => exact List.Pairwise.nil
  | cons line rest ih =>
      rw [ofLines, List.pairwise_append]
      refine ⟨pairwise_ofPieces row 0 _, ih _, fun f hf g hg => Or.inl ?_⟩
      have hrow := (mem_ofLine hf).1
      have hlater := (mem_ofLines hg).1
      omega

theorem ofLines_append (row : Nat) (above below : List (List Char)) :
    ofLines row (above ++ below) = ofLines row above ++ ofLines (row + above.length) below := by
  induction above generalizing row with
  | nil => rfl
  | cons line above ih =>
      rw [List.cons_append, ofLines, ofLines, ih, List.append_assoc, List.length_cons,
        Nat.add_assoc, Nat.add_comm 1]

theorem ofPieces_lowered (row rows col : Nat) (pieces : List (List Char)) :
    ofPieces (row + rows) col pieces = (ofPieces row col pieces).map (lowered rows) := by
  induction pieces generalizing col with
  | nil => rfl
  | cons piece rest ih =>
      rw [ofPieces_cons, ofPieces_cons, ih]
      split
      · rfl
      · rw [List.map_cons]
        rfl

theorem ofLines_lowered (row rows : Nat) (lines : List (List Char)) :
    ofLines (row + rows) lines = (ofLines row lines).map (lowered rows) := by
  induction lines generalizing row with
  | nil => rfl
  | cons line rest ih =>
      rw [ofLines, ofLines, List.map_append, ← ih, ofLine, ofPieces_lowered, ← ofLine,
        Nat.add_right_comm]

/-! ### Texts -/

theorem length_lines (text : String) : (Text.lines text).length = text.toList.count '\n' + 1 := by
  rw [Text.lines]
  induction text.toList with
  | nil => rfl
  | cons c cs ih =>
      rw [List.splitOn_cons_eq_if_modifyHead, List.count_cons, Nat.add_right_comm, ← ih]
      split
      · rfl
      · rw [List.length_modifyHead, Nat.add_zero]

theorem lines_append (above below : String) :
    Text.lines (above ++ "\n" ++ below) = Text.lines above ++ Text.lines below := by
  rw [Text.lines, String.toList_append, String.toList_append, List.append_assoc]
  exact List.splitOnP_append_cons above.toList below.toList (beq_self_eq_true '\n')

/-- Two fragments with a character in common are not one after the other. -/
theorem not_precedes_of_covers {f g : Fragment} {row col : Nat} (hf : f.Covers row col)
    (hg : g.Covers row col) : ¬f.Precedes g := by
  rcases hf with ⟨hfrow, hfcol, hfend⟩
  rcases hg with ⟨hgrow, hgcol, hgend⟩
  rintro (h | ⟨-, h⟩) <;> omega

/-- A character belongs to one of several fragments at most, if these come one
    after another. -/
theorem eq_of_covers {fs : List Fragment} (hfs : fs.Pairwise Precedes) {f g : Fragment}
    (hf : f ∈ fs) (hg : g ∈ fs) {row col : Nat} (hfc : f.Covers row col)
    (hgc : g.Covers row col) : f = g := by
  induction hfs with
  | nil => exact absurd hf List.not_mem_nil
  | cons hfirst _ ih =>
      rcases List.mem_cons.1 hf with rfl | hflater
      · rcases List.mem_cons.1 hg with rfl | hglater
        · rfl
        · exact absurd (hfirst g hglater) (not_precedes_of_covers hfc hgc)
      · rcases List.mem_cons.1 hg with rfl | hglater
        · exact absurd (hfirst f hflater) (not_precedes_of_covers hgc hfc)
        · exact ih hflater hglater

/-- A fragment is what is left of a text when it is trimmed. -/
theorem exists_trim_of_mem_ofPieces {row col : Nat} {pieces : List (List Char)} {f : Fragment}
    (h : f ∈ ofPieces row col pieces) :
    ∃ piece, f.text.toList = Text.trim piece ∧ Text.trim piece ≠ [] := by
  induction pieces generalizing col with
  | nil => exact absurd h List.not_mem_nil
  | cons piece rest ih =>
      rw [ofPieces_cons] at h
      split at h
      · exact ih h
      rename_i hbody
      rcases List.mem_cons.1 h with rfl | h
      · exact ⟨piece, String.toList_ofList, fun hnil => hbody (List.isEmpty_iff.2 hnil)⟩
      · exact ih h

/-- The fragments of a text account for it, and those of its lines do so on their
    own: what is written further down is cut up as if it stood alone. -/
theorem accounts_ofText (text below : String) :
    Accounts text (ofText text) ∧
      ofText (text ++ "\n" ++ below) =
        ofText text ++ (ofText below).map (lowered (text.toList.count '\n' + 1)) := by
  have hline : ∀ f ∈ ofText text, ∃ line, (Text.lines text)[f.place.row]? = some line ∧
      f ∈ ofLine f.place.row line := by
    intro f hf
    rcases mem_ofLines_iff.1 hf with ⟨i, line, hget, hmem⟩
    have hrow := (mem_ofLine hmem).1
    rw [Nat.zero_add] at hrow hmem
    exact ⟨line, hrow ▸ hget, hrow ▸ hmem⟩
  have hpairwise : (ofText text).Pairwise Precedes := pairwise_ofLines 0 _
  have htrim : ∀ f ∈ ofText text, ∃ piece, f.text.toList = Text.trim piece ∧
      Text.trim piece ≠ [] := by
    intro f hf
    rcases hline f hf with ⟨line, -, hmem⟩
    exact exists_trim_of_mem_ofPieces hmem
  refine ⟨⟨hpairwise, fun f hf => (isPlain_of_mem_ofText hf).1, ?_, ?_, ?_, ?_, ?_⟩, ?_⟩
  · intro f hf
    rcases htrim f hf with ⟨piece, htext, hne⟩
    rwa [htext]
  · intro f hf c hc
    rcases htrim f hf with ⟨piece, htext, -⟩
    exact Text.isBlank_of_mem_head?_trim (htext ▸ hc)
  · intro f hf c hc
    rcases htrim f hf with ⟨piece, htext, -⟩
    exact Text.isBlank_of_mem_getLast?_trim (htext ▸ hc)
  · intro f hf
    rcases hline f hf with ⟨line, hget, hmem⟩
    exact ⟨line, hget, cutFrom_of_mem_ofLine hmem⟩
  · intro row col line c hget hwritten
    rcases exists_covers_of_written hwritten row with ⟨f, hf, hcovers⟩
    have hmem : f ∈ ofText text := by
      refine mem_ofLines_iff.2 ⟨row, line, hget, ?_⟩
      rwa [Nat.zero_add]
    exact ⟨f, ⟨hmem, hcovers⟩, fun g hg => eq_of_covers hpairwise hg.1 hmem hg.2 hcovers⟩
  · change ofLines 0 (Text.lines _) = ofLines 0 (Text.lines text) ++ _
    rw [lines_append, ofLines_append, length_lines, ofLines_lowered]
    rfl

end Fragment

end IceFigures
