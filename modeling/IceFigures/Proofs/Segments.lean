import IceFigures.Proofs.Numerals
import IceFigures.Source.Fragment
import Mathlib.Data.List.Nodup
import Mathlib.Data.List.TakeWhile

/-!
# Fragments of a Text

Cutting a text into fragments and joining pieces to a text undo each other,
provided that the pieces hold no separator or comment sign and have nothing to
trim (`IsPiece`). What a fragment holds satisfies the first half of that for
any text, whatever stands in quotes, since a text is cut up before anything in
it is read.

No two fragments of a text start at the same place: along a line the columns
increase, and lines have different rows.

## Main definitions

* `IsPlain`: Texts without separators and comment signs.
* `IsPiece`: Pieces that can be joined to a text and cut out again.

## Theorems

* `isPlain_of_mem_ofText`: Fragments hold no separator.
* `nodup_ofText`: Fragments start at different places.
* `ofText_intercalate`: Joined pieces are cut out again.
-/

namespace IceFigures

/-- Characters that neither end a fragment nor start a comment. -/
def isPlainChar (c : Char) : Bool :=
  c != '\n' && c != ';' && c != '#'

/-- Texts without separators and comment signs. -/
def IsPlain (cs : List Char) : Prop :=
  ∀ c ∈ cs, isPlainChar c = true

/-- Pieces that can be joined to a text and cut out again. -/
structure IsPiece (cs : List Char) : Prop where
  plain : IsPlain cs
  ne_nil : cs ≠ []
  trim : Text.trim cs = cs

theorem IsPlain.not_mem {cs : List Char} (h : IsPlain cs) {x : Char} (hx : isPlainChar x = false) :
    x ∉ cs := by
  intro hmem
  rw [h x hmem] at hx
  exact Bool.noConfusion hx

/-! ### Cutting -/

-- By induction on the text: a character goes to the first piece, unless it is
-- the separator and starts a new one.
theorem mem_splitOn {x : Char} {cs piece : List Char} (h : piece ∈ cs.splitOn x) :
    x ∉ piece ∧ piece ⊆ cs := by
  induction cs generalizing piece with
  | nil =>
      rw [List.splitOn_nil, List.mem_singleton] at h
      rw [h]
      exact ⟨List.not_mem_nil, List.Subset.refl []⟩
  | cons c cs ih =>
      rw [List.splitOn_cons_eq_if_modifyHead] at h
      by_cases hc : (c == x) = true
      · rw [if_pos hc] at h
        rcases List.mem_cons.1 h with rfl | h
        · exact ⟨List.not_mem_nil, List.nil_subset _⟩
        · exact ⟨(ih h).1, List.subset_cons_of_subset c (ih h).2⟩
      · rw [if_neg hc] at h
        cases hsplit : cs.splitOn x with
        | nil => exact absurd hsplit (List.splitOn_ne_nil x cs)
        | cons first later =>
            rw [hsplit, List.modifyHead_cons] at h
            rw [hsplit] at ih
            rcases List.mem_cons.1 h with rfl | h
            · have hfirst := ih List.mem_cons_self
              refine ⟨?_, List.cons_subset_cons c hfirst.2⟩
              intro hmem
              rcases List.mem_cons.1 hmem with rfl | hmem
              · exact hc (beq_self_eq_true x)
              · exact hfirst.1 hmem
            · have hlater := ih (List.mem_cons_of_mem first h)
              exact ⟨hlater.1, List.subset_cons_of_subset c hlater.2⟩

theorem trim_subset (cs : List Char) : Text.trim cs ⊆ cs := by
  intro c hc
  unfold Text.trim Text.dropBlanksEnd Text.dropBlanks at hc
  rw [List.mem_reverse] at hc
  exact (List.dropWhile_suffix _).subset
    (List.mem_reverse.1 ((List.dropWhile_suffix _).subset hc))

/-- A piece that leaves something when it is trimmed is longer than the blanks in
    front of it. -/
theorem length_takeWhile_lt {piece : List Char} (h : (Text.trim piece).isEmpty = false) :
    (piece.takeWhile Text.isBlank).length < piece.length := by
  refine lt_of_le_of_ne (List.takeWhile_prefix _).length_le fun hlength => ?_
  have hall : piece.takeWhile Text.isBlank = piece :=
    (List.takeWhile_prefix _).eq_of_length hlength
  have hnone : Text.dropBlanks piece = [] := by
    rw [Text.dropBlanks, List.dropWhile_eq_nil_iff]
    exact List.takeWhile_eq_self_iff.1 hall
  rw [Text.trim, hnone] at h
  exact absurd h (by decide)

namespace Fragment

theorem mem_ofPieces {row : Nat} {pieces : List (List Char)} {col : Nat} {f : Fragment}
    (h : f ∈ ofPieces row col pieces) :
    f.place.row = row ∧ col ≤ f.place.col ∧ f.place.pass = none ∧
      ∃ piece ∈ pieces, f.text.toList ⊆ piece := by
  induction pieces generalizing col with
  | nil => exact absurd h List.not_mem_nil
  | cons piece rest ih =>
      rw [ofPieces] at h
      have hlater : f ∈ ofPieces row (col + piece.length + 1) rest →
          f.place.row = row ∧ col ≤ f.place.col ∧ f.place.pass = none ∧
            ∃ p ∈ piece :: rest, f.text.toList ⊆ p := by
        intro hmem
        rcases ih hmem with ⟨hrow, hcol, hpass, p, hp, hsub⟩
        exact ⟨hrow, by omega, hpass, p, List.mem_cons_of_mem piece hp, hsub⟩
      split at h
      · exact hlater h
      · rcases List.mem_cons.1 h with rfl | h
        · refine ⟨rfl, Nat.le_add_right _ _, rfl, piece, List.mem_cons_self, ?_⟩
          rw [String.toList_ofList]
          exact trim_subset piece
        · exact hlater h

theorem mem_ofLine {row : Nat} {line : List Char} {f : Fragment} (h : f ∈ ofLine row line) :
    f.place.row = row ∧ f.place.pass = none ∧
      ∀ c ∈ f.text.toList, c ∈ line ∧ c ≠ ';' ∧ c ≠ '#' := by
  rcases mem_ofPieces h with ⟨hrow, -, hpass, piece, hpiece, hsub⟩
  rcases mem_splitOn hpiece with ⟨hsign, hline⟩
  refine ⟨hrow, hpass, fun c hc => ?_⟩
  have hmem := hline (hsub hc)
  refine ⟨(List.takeWhile_prefix _).subset hmem, ?_, ?_⟩
  · intro heq
    exact hsign (heq ▸ hsub hc)
  · have := List.mem_takeWhile_imp hmem
    rwa [decide_eq_true_eq] at this

theorem mem_ofLines {lines : List (List Char)} {row : Nat} {f : Fragment}
    (h : f ∈ ofLines row lines) :
    row ≤ f.place.row ∧ f.place.pass = none ∧
      ∃ line ∈ lines, ∀ c ∈ f.text.toList, c ∈ line ∧ c ≠ ';' ∧ c ≠ '#' := by
  induction lines generalizing row with
  | nil => exact absurd h List.not_mem_nil
  | cons line rest ih =>
      rw [ofLines] at h
      rcases List.mem_append.1 h with h | h
      · rcases mem_ofLine h with ⟨hrow, hpass, hchars⟩
        exact ⟨hrow ▸ Nat.le_refl _, hpass, line, List.mem_cons_self, hchars⟩
      · rcases ih h with ⟨hrow, hpass, l, hl, hchars⟩
        exact ⟨by omega, hpass, l, List.mem_cons_of_mem line hl, hchars⟩

/-- Fragments hold no separator and no comment sign. -/
theorem isPlain_of_mem_ofText {text : String} {f : Fragment} (h : f ∈ ofText text) :
    IsPlain f.text.toList ∧ f.place.pass = none := by
  rcases mem_ofLines h with ⟨-, hpass, line, hline, hchars⟩
  refine ⟨fun c hc => ?_, hpass⟩
  rcases hchars c hc with ⟨hmem, hsemicolon, hsign⟩
  have hend : c ≠ '\n' := fun heq => (mem_splitOn hline).1 (heq ▸ hmem)
  rw [isPlainChar, Bool.and_eq_true, Bool.and_eq_true, bne_iff_ne, bne_iff_ne, bne_iff_ne]
  exact ⟨⟨hend, hsemicolon⟩, hsign⟩

/-! ### Places -/

theorem nodup_ofPieces (row : Nat) (pieces : List (List Char)) (col : Nat) :
    ((ofPieces row col pieces).map (·.place)).Nodup := by
  induction pieces generalizing col with
  | nil => exact List.nodup_nil
  | cons piece rest ih =>
      rw [ofPieces]
      split
      · exact ih _
      · rename_i hbody
        rw [Bool.not_eq_true] at hbody
        rw [List.map_cons, List.nodup_cons]
        refine ⟨?_, ih _⟩
        intro hmem
        rcases List.mem_map.1 hmem with ⟨f, hf, hplace⟩
        -- Later pieces start behind this one.
        have hcol := (mem_ofPieces hf).2.1
        have hlead := length_takeWhile_lt hbody
        rw [hplace] at hcol
        simp only at hcol
        omega

/-- Fragments start at different places. -/
theorem nodup_ofText (text : String) : ((ofText text).map (·.place)).Nodup := by
  have hlines : ∀ (lines : List (List Char)) (row : Nat),
      ((ofLines row lines).map (·.place)).Nodup := by
    intro lines
    induction lines with
    | nil => exact fun _ => List.nodup_nil
    | cons line rest ih =>
        intro row
        rw [ofLines, List.map_append]
        refine List.Nodup.append (nodup_ofPieces row _ 0) (ih _) fun p hp hq => ?_
        rcases List.mem_map.1 hp with ⟨f, hf, rfl⟩
        rcases List.mem_map.1 hq with ⟨g, hg, hplace⟩
        have hrow := (mem_ofLine hf).1
        have hlater := (mem_ofLines hg).1
        rw [hplace] at hlater
        omega
  exact hlines _ 0

/-! ### Joining -/

theorem mem_intercalate {x c : Char} {pieces : List (List Char)}
    (h : c ∈ [x].intercalate pieces) : c = x ∨ ∃ piece ∈ pieces, c ∈ piece := by
  induction pieces with
  | nil => exact absurd h List.not_mem_nil
  | cons piece rest ih =>
      cases rest with
      | nil =>
          rw [List.intercalate_singleton] at h
          exact Or.inr ⟨piece, List.mem_cons_self, h⟩
      | cons next later =>
          rw [List.intercalate_cons_cons, List.mem_append, List.mem_append] at h
          rcases h with (h | h) | h
          · exact Or.inr ⟨piece, List.mem_cons_self, h⟩
          · exact Or.inl (List.mem_singleton.1 h)
          · rcases ih h with hx | ⟨p, hp, hc⟩
            · exact Or.inl hx
            · exact Or.inr ⟨p, List.mem_cons_of_mem piece hp, hc⟩

theorem map_text_ofPieces (row : Nat) {pieces : List (List Char)} (h : ∀ p ∈ pieces, IsPiece p)
    (col : Nat) : (ofPieces row col pieces).map (·.text) = pieces.map String.ofList := by
  induction pieces generalizing col with
  | nil => rfl
  | cons piece rest ih =>
      have hpiece := h piece List.mem_cons_self
      have hbody : ¬piece.isEmpty = true := by
        rw [List.isEmpty_iff]
        exact hpiece.ne_nil
      rw [ofPieces]
      rw [hpiece.trim, if_neg hbody, List.map_cons, List.map_cons,
        ih fun p hp => h p (List.mem_cons_of_mem piece hp)]

/-- A line of pieces, each but the first behind a semicolon. -/
theorem map_text_ofLine (row : Nat) {pieces : List (List Char)} (hne : pieces ≠ [])
    (h : ∀ p ∈ pieces, IsPiece p) :
    (ofLine row ([';'].intercalate pieces)).map (·.text) = pieces.map String.ofList := by
  have hsign : ∀ c ∈ [';'].intercalate pieces, decide (c ≠ '#') = true := by
    intro c hc
    rw [decide_eq_true_eq]
    rcases mem_intercalate hc with rfl | ⟨p, hp, hcp⟩
    · decide
    · intro heq
      exact (h p hp).plain.not_mem (x := '#') (by decide) (heq ▸ hcp)
  rw [ofLine, List.takeWhile_eq_self_iff.2 hsign,
    List.splitOn_intercalate ';' (fun p hp => (h p hp).plain.not_mem (by decide)) hne]
  exact map_text_ofPieces row h 0

theorem map_text_ofLines {pieces : List (List Char)} (h : ∀ p ∈ pieces, IsPiece p) (row : Nat) :
    (ofLines row pieces).map (·.text) = pieces.map String.ofList := by
  induction pieces generalizing row with
  | nil => rfl
  | cons piece rest ih =>
      have hline := map_text_ofLine row (List.cons_ne_nil piece []) fun p hp => by
        rw [List.mem_singleton.1 hp]
        exact h piece List.mem_cons_self
      rw [List.intercalate_singleton] at hline
      rw [ofLines, List.map_append, hline, ih fun p hp => h p (List.mem_cons_of_mem piece hp)]
      rfl

/-- Pieces joined by a separator are cut out again. -/
theorem ofText_intercalate {separator : String} (hseparator : separator = ";" ∨ separator = "\n")
    {pieces : List String} (h : ∀ p ∈ pieces, IsPiece p.toList) :
    (ofText (separator.intercalate pieces)).map (·.text) = pieces := by
  have hpieces : ∀ cs ∈ pieces.map String.toList, IsPiece cs := by
    intro cs hcs
    rcases List.mem_map.1 hcs with ⟨p, hp, rfl⟩
    exact h p hp
  have hback : (pieces.map String.toList).map String.ofList = pieces := by
    rw [List.map_map]
    exact (List.map_congr_left fun s _ => String.ofList_toList).trans (List.map_id pieces)
  by_cases hnone : pieces = []
  · subst hnone
    rcases hseparator with rfl | rfl <;> rfl
  have hne : pieces.map String.toList ≠ [] := by
    intro hnil
    exact hnone (List.map_eq_nil_iff.1 hnil)
  rw [ofText, String.toList_intercalate]
  -- Behind semicolons all pieces stand on one line, otherwise each on its own.
  rcases hseparator with rfl | rfl
  · have hend : '\n' ∉ [';'].intercalate (pieces.map String.toList) := by
      intro hmem
      rcases mem_intercalate hmem with heq | ⟨p, hp, hc⟩
      · exact absurd heq (by decide)
      · exact (hpieces p hp).plain.not_mem (by decide) hc
    change (ofLines 0 (([';'].intercalate (pieces.map String.toList)).splitOn '\n')).map _ = _
    rw [List.splitOn_eq_singleton hend, ofLines, ofLines, List.append_nil,
      map_text_ofLine 0 hne hpieces, hback]
  · change (ofLines 0 ((['\n'].intercalate (pieces.map String.toList)).splitOn '\n')).map _ = _
    rw [List.splitOn_intercalate '\n' (fun p hp => (hpieces p hp).plain.not_mem (by decide)) hne,
      map_text_ofLines hpieces, hback]

end Fragment

end IceFigures
