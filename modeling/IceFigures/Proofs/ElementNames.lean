import IceFigures.Proofs.DrawnShapes

/-!
# Names of Elements

Definitions and drawn items are named by two schemes that know nothing of each
other: a definition by the text of its primitive, an item by its place and a
count. No two elements of a diagram have the same name all the same. Names of
items start with a letter that starts neither a move nor a mark. Among
themselves they differ since place and count can both be read off a name, and
since the count of a place goes up with each name it gives, whatever moves,
passes and nested repeats it serves.

What is drawn for a sequence of steps is named as if all its places had been
asked for a name in one row (`Names.nextAll`). Most facts about such a row are
proved by induction from its end, where the last place asks. How a row is
numbered is told from its front: a place has been counted by all that stood
before it, and only those of its own kind matter (`Names.nextAll_fst`).

The text of a primitive is spelled out character by character, but never its
first letter, which is one of five. None of them starts a mark or a place
(`namesTexts_ident`).

## Main definitions

* `stemOf`: The stem of a name.
* `Names.nextAll`: The names that a row of places gives.
* `Names.Gives`: Items that have been named in a row.
* `NamesTexts`: Namings of texts by which primitives can be drawn.
* `Diagram.NamesElements`: Diagrams whose elements are named apart.

## Theorems

* `Names.name_inj`: Place and count can be read off a name.
* `Names.issueAll_eq`: Places from outside give the names of a row, if they have stems.
* `Names.nodup_nextAll`: The names of a row differ.
* `Names.stems_nextAll`: The stems of a row, in order of first use.
* `Names.numbers_nextAll`: The names of a row, numbered place by place.
* `gives_placeStages`: What stages put on the page is named in a row.
* `namesTexts_ident`: Texts are named apart, and apart from marks and items.
* `namesElements_ofText`: The elements of every diagram are named apart.
-/

namespace IceFigures

/-! ### Stems -/

/-- What stands in front of the count in a name. -/
def beforeCount : List Char → List Char
  | '_' :: 'n' :: _ => []
  | c :: cs => c :: beforeCount cs
  | [] => []

/-- The stem of a name. -/
def stemOf (name : String) : String :=
  String.ofList (beforeCount name.toList)

theorem Place.ne_of_mem_stemChars {p : Place} {c : Char} (h : c ∈ p.stemChars) : c ≠ 'n' := by
  have hdigits : ∀ {n}, c ∈ Nat.toDigits 10 n → c ≠ 'n' := by
    rintro n hc rfl
    exact absurd (Text.isDigit_of_mem_toDigits hc) (by decide)
  have hpass : c ∈ passChars p.pass → c ≠ 'n' := by
    intro hc
    cases hp : p.pass with
    | none =>
        rw [hp] at hc
        exact absurd hc List.not_mem_nil
    | some n =>
        rw [hp] at hc
        rcases List.mem_cons.1 hc with rfl | hc
        · decide
        · rcases List.mem_cons.1 hc with rfl | hc
          · decide
          · exact hdigits hc
  rw [stemChars_eq] at h
  simp only [List.mem_cons, List.mem_append] at h
  rcases h with rfl | rfl | h | rfl | rfl | rfl | h | h
  · decide
  · decide
  · exact hdigits h
  · decide
  · decide
  · decide
  · exact hdigits h
  · exact hpass h

theorem beforeCount_append {stem tail : List Char} (hstem : ∀ c ∈ stem, c ≠ 'n')
    (htail : tail = [] ∨ ∃ digits, tail = '_' :: 'n' :: digits) :
    beforeCount (stem ++ tail) = stem := by
  induction stem with
  | nil => rcases htail with rfl | ⟨digits, rfl⟩ <;> rfl
  | cons c cs ih =>
      rw [List.cons_append, beforeCount, ih fun d hd => hstem d (List.mem_cons_of_mem c hd)]
      -- A count would have to begin inside of the stem.
      intro rest _ hrest
      cases cs with
      | nil => rcases htail with rfl | ⟨digits, rfl⟩ <;> simp at hrest
      | cons d ds =>
          exact hstem d (by simp) (List.cons.inj hrest).1

namespace Names

theorem toList_tailAt (n : Nat) :
    (tailAt n).toList = if n = 1 then [] else '_' :: 'n' :: Nat.toDigits 10 n := by
  unfold tailAt
  split
  · rfl
  · rw [String.toList_ofList]
    rfl

/-- The stem of a place is that of all its names. -/
theorem stemOf_name (p : Place) (n : Nat) : stemOf (p.stem ++ tailAt n) = p.stem := by
  rw [stemOf, String.toList_append, toList_tailAt, Place.stem, String.toList_ofList,
    beforeCount_append fun c hc => Place.ne_of_mem_stemChars hc]
  split
  · exact Or.inl rfl
  · exact Or.inr ⟨_, rfl⟩

theorem append_tailAt (stem : String) (n : Nat) :
    stem ++ tailAt n =
      if n = 1 then stem else stem ++ "_n" ++ String.ofList (Nat.toDigits 10 n) := by
  unfold tailAt
  by_cases hn : n = 1
  · rw [if_pos hn, if_pos hn, String.append_empty]
  · rw [if_neg hn, if_neg hn, String.ofList_append, String.ofList_toList, String.append_assoc]

theorem tailAt_injective : Function.Injective tailAt := by
  intro m n h
  have hchars := congrArg String.toList h
  rw [toList_tailAt, toList_tailAt] at hchars
  by_cases hm : m = 1
  · by_cases hn : n = 1
    · rw [hm, hn]
    · simp [hm, hn] at hchars
  · by_cases hn : n = 1
    · simp [hm, hn] at hchars
    · simp only [if_neg hm, if_neg hn, List.cons.injEq, true_and] at hchars
      exact (Text.toDigits_append_inj (Text.stops_nil _) (Text.stops_nil _)
        (congrArg (· ++ []) hchars)).1

/-- Place and count can be read off a name. -/
theorem name_inj {p q : Place} {m n : Nat} (h : p.stem ++ tailAt m = q.stem ++ tailAt n) :
    p = q ∧ m = n := by
  have hstem := congrArg stemOf h
  rw [stemOf_name, stemOf_name] at hstem
  have hplace := Place.stem_injective hstem
  subst hplace
  exact ⟨rfl, tailAt_injective (String.append_right_inj _ |>.1 h)⟩

/-! ### Names in a row -/

/-- The names that a row of places gives, one after another. -/
def nextAll : Names → List Place → List String × Names
  | names, [] => ([], names)
  | names, p :: ps =>
    ((names.next p).1 :: (nextAll (names.next p).2 ps).1, (nextAll (names.next p).2 ps).2)

theorem nextAll_append (names : Names) (ps qs : List Place) :
    nextAll names (ps ++ qs) =
      ((nextAll names ps).1 ++ (nextAll (nextAll names ps).2 qs).1,
        (nextAll (nextAll names ps).2 qs).2) := by
  induction ps generalizing names with
  | nil => rfl
  | cons p ps ih => rw [List.cons_append, nextAll, ih, nextAll, List.cons_append]

theorem nextAll_concat (names : Names) (ps : List Place) (p : Place) :
    nextAll names (ps ++ [p]) =
      ((nextAll names ps).1 ++ [((nextAll names ps).2.next p).1],
        ((nextAll names ps).2.next p).2) :=
  nextAll_append names ps [p]

/-- Places that are given from outside give the names of their row, or none at all if one of
    them is too far away for a stem. -/
theorem issueAll_eq (names : Names) (ps : List Place) :
    names.issueAll ps =
      if ps.all Place.hasStem then .ok (names.nextAll ps) else .error .unwritable := by
  induction ps generalizing names with
  | nil => rfl
  | cons p ps ih =>
      rw [issueAll, issue, List.all_cons]
      cases p.hasStem with
      | false => rfl
      | true =>
          simp only [if_true, bind, Except.bind, ih, Bool.true_and]
          cases ps.all Place.hasStem <;> rfl

theorem next_fst (names : Names) (p : Place) :
    (names.next p).1 = p.stem ++ tailAt (names.count p + 1) :=
  nameAt_eq p _

/-- A name counts for its place alone. -/
theorem count_next (names : Names) (p q : Place) :
    (names.next p).2.count q = names.count q + if p = q then 1 else 0 := by
  rcases names with ⟨uses⟩
  change Names.count ⟨bump p uses⟩ q = _
  induction uses with
  | nil => by_cases h : p = q <;> simp [count, bump, h]
  | cons u us ih =>
      unfold count at ih ⊢
      rw [bump]
      by_cases hu : u.1 = p
      · rw [if_pos hu]
        by_cases h : p = q
        · simp [hu, h]
        · simp [hu, h]
      · rw [if_neg hu]
        by_cases h : u.1 = q
        · have hpq : p ≠ q := fun heq => hu (h.trans heq.symm)
          simp [h, hpq]
        · simpa [h] using ih

/-- No name of a row has a higher count than its place. -/
theorem mem_nextAll {ps : List Place} {name : String} (h : name ∈ (nextAll {} ps).1) :
    ∃ p n, n ≤ (nextAll {} ps).2.count p ∧ name = p.stem ++ tailAt n := by
  induction ps using List.reverseRecOn with
  | nil => exact absurd h List.not_mem_nil
  | append_singleton ps p ih =>
      rw [nextAll_concat] at h ⊢
      rcases List.mem_append.1 h with h | h
      · rcases ih h with ⟨q, n, hn, rfl⟩
        exact ⟨q, n, by rw [count_next]; omega, rfl⟩
      · refine ⟨p, (nextAll {} ps).2.count p + 1, ?_, ?_⟩
        · rw [count_next, if_pos rfl]
        · rw [List.mem_singleton.1 h, next_fst]

/-- The names of a row differ. -/
theorem nodup_nextAll (ps : List Place) : (nextAll {} ps).1.Nodup := by
  induction ps using List.reverseRecOn with
  | nil => exact List.nodup_nil
  | append_singleton ps p ih =>
      rw [nextAll_concat]
      refine List.Nodup.append ih (List.nodup_singleton _) ?_
      -- The new name has a count that its place has not reached before.
      rw [List.disjoint_singleton]
      intro h
      rcases mem_nextAll h with ⟨q, n, hn, hname⟩
      rw [next_fst] at hname
      rcases name_inj hname with ⟨rfl, rfl⟩
      omega

/-- The names of a row have the stems of its places. -/
theorem map_stemOf_nextAll (names : Names) (ps : List Place) :
    (nextAll names ps).1.map stemOf = ps.map Place.stem := by
  induction ps generalizing names with
  | nil => rfl
  | cons p ps ih => rw [nextAll, List.map_cons, ih, next_fst, stemOf_name, List.map_cons]

theorem stems_next (names : Names) (p : Place) :
    (names.next p).2.stems =
      if p.stem ∈ names.stems then names.stems else names.stems ++ [p.stem] := by
  rcases names with ⟨uses⟩
  change Names.stems ⟨bump p uses⟩ = _
  unfold stems
  induction uses with
  | nil => rfl
  | cons u us ih =>
      rw [bump]
      by_cases hu : u.1 = p
      · simp [hu]
      · have hstem : p.stem ≠ u.1.stem := fun h => hu (Place.stem_injective h).symm
        simp only [if_neg hu, List.map_cons, List.mem_cons, hstem, false_or] at ih ⊢
        rw [ih]
        split <;> rfl

theorem eraseDups_concat {α : Type} [BEq α] [LawfulBEq α] (as : List α) (a : α) :
    (as ++ [a]).eraseDups = if as.contains a then as.eraseDups else as.eraseDups ++ [a] := by
  rw [List.eraseDups_append]
  by_cases h : a ∈ as
  · simp [List.removeAll, h]
  · simp [List.removeAll, h, List.eraseDups_cons]

/-- The stems of a row, in order of first use. -/
theorem stems_nextAll (ps : List Place) :
    (nextAll {} ps).2.stems = (ps.map Place.stem).eraseDups := by
  induction ps using List.reverseRecOn with
  | nil => rfl
  | append_singleton ps p ih =>
      rw [nextAll_concat, stems_next, ih, List.map_append, List.map_singleton, eraseDups_concat]
      simp

/-- A name of a row counts how often its place has stood in the row up to there. -/
theorem nextAll_fst (names : Names) (ps : List Place) :
    (nextAll names ps).1 =
      ps.mapIdx fun i p => p.stem ++ tailAt (names.count p + (ps.take (i + 1)).count p) := by
  induction ps generalizing names with
  | nil => rfl
  | cons p ps ih =>
      rw [nextAll, next_fst, ih, List.mapIdx_cons, List.take_succ_cons, List.take_zero,
        List.count_singleton_self]
      refine congrArg (List.cons _ <| List.mapIdx · ps) (funext fun i => funext fun q => ?_)
      -- The first of the row counts for its own place alone.
      rw [count_next, List.take_succ_cons, List.count_cons, Nat.add_assoc, Nat.add_comm (ite ..)]
      simp only [beq_iff_eq]

-- Both by induction from the end: an element is kept if it has not been met before it.
theorem nodup_eraseDups {α : Type} [BEq α] [LawfulBEq α] (as : List α) :
    as.eraseDups.Nodup := by
  induction as using List.reverseRecOn with
  | nil => exact List.nodup_nil
  | append_singleton as a ih =>
      rw [eraseDups_concat]
      by_cases h : a ∈ as
      · rwa [if_pos (List.contains_iff_mem.2 h)]
      · rw [if_neg (mt List.contains_iff_mem.1 h)]
        exact ih.append (List.nodup_singleton a)
          (List.disjoint_singleton.2 fun hmem => h (List.mem_eraseDups.1 hmem))

theorem eraseDups_map {α β : Type} [BEq α] [LawfulBEq α] [BEq β] [LawfulBEq β] {f : α → β}
    (hf : Function.Injective f) (as : List α) :
    (as.map f).eraseDups = as.eraseDups.map f := by
  induction as using List.reverseRecOn with
  | nil => rfl
  | append_singleton as a ih =>
      rw [List.map_append, List.map_singleton, eraseDups_concat, eraseDups_concat, ih]
      by_cases h : a ∈ as
      · rw [if_pos (List.contains_iff_mem.2 h),
          if_pos (List.contains_iff_mem.2 (List.mem_map_of_mem h))]
      · rw [if_neg (mt List.contains_iff_mem.1 h),
          if_neg (mt List.contains_iff_mem.1 (mt (List.mem_map_of_injective hf).1 h)),
          List.map_append, List.map_singleton]

/-- A row that starts afresh never repeats a name. A place that stands in it for the first
    time gives its stem, and from the second time on it adds how often it has stood there,
    whatever stands in between. The stems are those of the places of the row in order of
    first use, each listed once. -/
theorem numbers_nextAll (ps : List Place) :
    (nextAll {} ps).1.Nodup ∧
      (nextAll {} ps).1 = ps.mapIdx (fun i p =>
        let k := (ps.take (i + 1)).count p
        if k = 1 then p.stem else p.stem ++ "_n" ++ String.ofList (Nat.toDigits 10 k)) ∧
      (nextAll {} ps).2.stems = ps.eraseDups.map Place.stem ∧
      (ps.eraseDups.map Place.stem).Nodup := by
  refine ⟨nodup_nextAll ps, ?_, ?_, (nodup_eraseDups ps).map Place.stem_injective⟩
  · rw [nextAll_fst]
    refine congrArg (List.mapIdx · ps) (funext fun i => funext fun p => ?_)
    have hcount : (({} : Names).count p) = 0 := rfl
    rw [hcount, Nat.zero_add]
    exact append_tailAt p.stem _
  · rw [stems_nextAll, eraseDups_map Place.stem_injective]

end Names

/-! ### Naming items -/

/-- Items whose names are those of a row of places, with the names from before
    the row and from after it. -/
def Names.Gives (names : Names) (items : List Svg.Item) (names' : Names) : Prop :=
  ∃ ps, names.nextAll ps = (items.filterMap Svg.Item.name, names')

namespace Names.Gives

theorem of_unnamed {names : Names} {items : List Svg.Item} (h : ∀ i ∈ items, i.name = none) :
    names.Gives items names :=
  ⟨[], by rw [List.filterMap_eq_nil_iff.2 h]; rfl⟩

theorem append {names names' names'' : Names} {items items' : List Svg.Item}
    (h : names.Gives items names') (h' : names'.Gives items' names'') :
    names.Gives (items ++ items') names'' := by
  rcases h with ⟨ps, hps⟩
  rcases h' with ⟨qs, hqs⟩
  exact ⟨ps ++ qs, by rw [nextAll_append, hps, hqs, List.filterMap_append]⟩

end Names.Gives

theorem gives_nameItemsFrom (p : Place) (names : Names) (items : List Svg.Item) :
    names.Gives (nameItemsFrom p names items).1 (nameItemsFrom p names items).2 := by
  induction items generalizing names with
  | nil => exact ⟨[], rfl⟩
  | cons i is ih =>
      rcases ih (names.next p).2 with ⟨ps, hps⟩
      refine ⟨p :: ps, ?_⟩
      rw [Names.nextAll, hps]
      rfl

/-- What a step draws is named in a row, if it has a place; otherwise it has no
    names. -/
theorem gives_drawStep (before : Skater) (settings : Settings) (names : Names) (s : Step) :
    names.Gives (drawStep before settings names s).1 (drawStep before settings names s).2 := by
  unfold drawStep nameItems
  cases s.place with
  | none => exact .of_unnamed fun _ hi => Move.name_of_mem_draw hi
  | some p => exact gives_nameItemsFrom p names _

/-- What stages put on the page is named in a row. -/
theorem gives_placeStages (settings : Settings) (names : Names) (stages : List Stage) :
    names.Gives (placeStages settings names stages).1 (placeStages settings names stages).2.1 := by
  induction stages generalizing settings names with
  | nil => exact .of_unnamed fun _ hi => absurd hi List.not_mem_nil
  | cons stage rest ih =>
      rw [placeStages_cons]
      refine .append (.append (.append ?_ (gives_drawStep _ _ _ _)) ?_) (ih _ _)
      · exact .of_unnamed fun _ hi => name_of_mem_markAt hi
      · exact .of_unnamed fun _ hi => name_of_mem_markAt hi

/-! ### Items with a name -/

/-- Whether an item is text. -/
def Svg.Item.isText (i : Svg.Item) : Bool :=
  match i.content with
  | .caption _ => true
  | _ => false

/-- Items that a name is expected of: texts, and uses other than marks. -/
def Svg.Item.Nameable (i : Svg.Item) : Prop :=
  i.isText = true ∨ ∃ t ∈ i.target?, t ∉ markNames

theorem isSome_name_of_mem_nameItemsFrom {p : Place} {names : Names} {items : List Svg.Item}
    {i : Svg.Item} (h : i ∈ (nameItemsFrom p names items).1) : i.name.isSome = true := by
  induction items generalizing names with
  | nil => exact absurd h List.not_mem_nil
  | cons j js ih =>
      rcases List.mem_cons.1 h with rfl | h
      · rfl
      · exact ih h

theorem not_nameable_of_mem_markAt {shown : Bool} {s : Skater} {mark : String}
    (hmark : mark ∈ markNames) {settings : Settings} {i : Svg.Item}
    (h : i ∈ markAt shown s mark settings) : ¬i.Nameable := by
  cases shown with
  | false => exact absurd h List.not_mem_nil
  | true =>
      rw [List.mem_singleton.1 h]
      rintro (htext | ⟨t, ht, hother⟩)
      · exact Bool.noConfusion htext
      · exact hother (Option.some.inj ht ▸ hmark)

/-- Stages of steps with places name everything but marks. -/
theorem isSome_name_of_mem_placeStages {settings : Settings} {names : Names}
    {stages : List Stage} (hplaces : ∀ stage ∈ stages, stage.step.place.isSome = true)
    {i : Svg.Item} (h : i ∈ (placeStages settings names stages).1) (hi : i.Nameable) :
    i.name.isSome = true := by
  induction stages generalizing settings names with
  | nil => exact absurd h List.not_mem_nil
  | cons stage rest ih =>
      rw [placeStages_cons] at h
      simp only [List.mem_append] at h
      rcases h with ((hstart | hdrawn) | hend) | hlater
      · exact absurd hi (not_nameable_of_mem_markAt (by decide) hstart)
      · rcases Option.isSome_iff_exists.1 (hplaces stage List.mem_cons_self) with ⟨p, hp⟩
        rw [drawStep, hp] at hdrawn
        exact isSome_name_of_mem_nameItemsFrom hdrawn
      · exact absurd hi (not_nameable_of_mem_markAt (by decide) hend)
      · exact ih (fun s hs => hplaces s (List.mem_cons_of_mem _ hs)) hlater

/-! ### Names of definitions -/

/-- A naming of texts by which primitives can be drawn: no two texts share a name, all names
    are safe in a page, and those of primitives are neither marks nor names of items. -/
structure NamesTexts (name : String → String) : Prop where
  injective : Function.Injective name
  safe : ∀ s, ∀ c ∈ (name s).toList, c.isAlphanum = true ∨ c ∈ ['.', '-', '_']
  lettered : ∀ p : Primitive, ∃ c ∈ (name p.move.written).toList.head?, c.isAlpha = true
  unmarked : ∀ p : Primitive, name p.move.written ∉ [startMark, endMark]
  placeless : ∀ p : Primitive, ¬"r_".toList <+: (name p.move.written).toList

theorem Primitive.ident_written (p : Primitive) : Svg.ident p.move.written = p.name := by
  rw [Svg.ident, Move.written, String.toList_ofList, p.name_eq]
  rfl

/-- Texts are named apart from each other, from marks and from items, and safely. -/
theorem namesTexts_ident : NamesTexts Svg.ident := by
  constructor
  case injective =>
    intro s t h
    exact String.toList_injective (Svg.identChars_injective (String.ofList_injective h))
  case safe =>
    intro s c hc
    rw [Svg.ident, String.toList_ofList] at hc
    rcases Svg.isPlain_of_mem_identChars hc with hplain | rfl
    · simp only [Svg.isPlain, Bool.or_eq_true, decide_eq_true_eq] at hplain
      rcases hplain with (hc | rfl) | rfl
      · exact Or.inl hc
      · exact Or.inr (by decide)
      · exact Or.inr (by decide)
    · exact Or.inr (by decide)
  case lettered =>
    have hletter : ∀ c ∈ skatedOpenings, c.isAlpha = true := by decide
    intro p
    rcases p.name_eq_cons with ⟨c, cs, hname, hc⟩
    rw [p.ident_written, hname]
    exact ⟨c, rfl, hletter c hc⟩
  case unmarked =>
    intro p
    rw [p.ident_written]
    exact p.name_not_mem_markNames
  case placeless =>
    intro p hprefix
    rcases p.name_eq_cons with ⟨c, cs, hname, hc⟩
    rw [p.ident_written, hname] at hprefix
    -- No text of a primitive starts with the letter of a row.
    rw [← (List.cons_prefix_cons.1 hprefix).1] at hc
    exact absurd hc (by decide)

/-! ### Diagrams -/

/-- A diagram whose elements are named apart: no identifier stands twice, all
    texts and all uses but marks have one, and the stems are those of the names
    on the page, in the order in which they first appear. -/
structure Diagram.NamesElements (d : Diagram) : Prop where
  distinct : (d.document.xml.values Svg.identifierKey).Nodup
  named : ∀ i ∈ d.document.items, i.Nameable → ∃ name ∈ i.name, name ≠ ""
  stems : d.stems = ((d.document.items.filterMap Svg.Item.name).map stemOf).eraseDups

/-- The names of a row start with the letter of a row. -/
theorem head?_of_mem_nextAll {ps : List Place} {name : String}
    (h : name ∈ (Names.nextAll {} ps).1) : name.toList.head? = some 'r' := by
  rcases Names.mem_nextAll h with ⟨p, n, -, rfl⟩
  rw [String.toList_append, Place.stem, String.toList_ofList, Place.stemChars_eq]
  rfl

/-- No definition has a name that starts with the letter of a row. -/
theorem head?_of_mem_definitionsOf {steps : List Step} {f : Svg.Definition}
    (h : f ∈ definitionsOf steps) : f.name.toList.head? ≠ some 'r' := by
  rcases mem_definitions_iff.1 (mem_of_mem_firstOfName h).1 with ⟨p, -, rfl⟩ | ⟨s, -, hmark⟩
  · rcases p.name_eq_cons with ⟨c, cs, hname, hc⟩
    rw [← Primitive.name, hname, List.head?_cons]
    rintro hr
    rw [Option.some.inj hr] at hc
    exact absurd hc (by decide)
  · have hmarks : ∀ mark ∈ markNames, mark.toList.head? ≠ some 'r' := by decide
    exact hmarks _ (name_of_mem_marks hmark)

theorem disjoint_names (steps : List Step) (ps : List Place) :
    List.Disjoint ((definitionsOf steps).map Svg.Definition.name) (Names.nextAll {} ps).1 := by
  intro name hdefinition hitem
  rcases List.mem_map.1 hdefinition with ⟨f, hf, rfl⟩
  exact head?_of_mem_definitionsOf hf (head?_of_mem_nextAll hitem)

/-- The elements of steps with places are named apart. -/
theorem namesElements_ofSteps {steps : List Step} (h : ∀ s ∈ steps, s.place.isSome = true) :
    (Diagram.ofSteps steps).NamesElements := by
  rcases gives_placeStages { preparedSettings steps with bounds := boundsOf (walk steps) } {}
    (walk steps) with ⟨ps, hps⟩
  have hnames : (Diagram.ofSteps steps).document.items.filterMap Svg.Item.name =
      (Names.nextAll {} ps).1 := by
    rw [filterMap_items_ofSteps (fun _ => rfl), hps]
    rfl
  constructor
  case distinct =>
    rw [Svg.Document.identifiers_xml, hnames]
    exact ((nodup_firstOfName [] _).append (Names.nodup_nextAll ps)
      (disjoint_names steps ps)).filter _
  case named =>
    intro i hi hnameable
    rcases mem_items_ofSteps hi with hplaced | ⟨s, rfl⟩
    · have hplaces : ∀ stage ∈ walk steps, stage.step.place.isSome = true := by
        intro stage hstage
        refine h stage.step ?_
        rw [← map_step_walk steps]
        exact List.mem_map_of_mem hstage
      rcases Option.isSome_iff_exists.1
        (isSome_name_of_mem_placeStages hplaces hplaced hnameable) with ⟨name, hname⟩
      refine ⟨name, hname, ?_⟩
      rintro rfl
      have hmem : "" ∈ (Names.nextAll {} ps).1 := by
        rw [← hnames]
        exact List.mem_filterMap.2 ⟨i, hi, hname⟩
      exact absurd (head?_of_mem_nextAll hmem) (by decide)
    · -- A shape is neither text nor a use.
      rcases hnameable with htext | ⟨t, ht, -⟩
      · exact Bool.noConfusion htext
      · cases ht
  case stems =>
    rw [hnames, Names.map_stemOf_nextAll, ← Names.stems_nextAll, hps]
    rfl

/-- Whatever is drawn for a text has a place. -/
theorem isSome_place_of_expand {text : String} {steps : List Step}
    (h : expand text = .ok steps) : ∀ s ∈ steps, s.place.isSome = true := by
  intro t ht
  rcases exists_written_of_expand h with ⟨written, htext, hcopies⟩
  rcases hcopies t ht with ⟨s, hs, pass, hcopy⟩
  rcases places_ofText htext with ⟨places, hplaces, -, -⟩
  have hmem : s.place ∈ places.map some := by
    rw [← hplaces]
    exact List.mem_map_of_mem hs
  rcases List.mem_map.1 hmem with ⟨p, -, hp⟩
  rw [hcopy.place, ← hp]
  rfl

/-- The elements of the diagram of a text are named apart. -/
theorem namesElements_ofText {text : String} {d : Diagram} (h : Diagram.ofText text = .ok d) :
    d.NamesElements := by
  rcases ofText_eq_ok h with ⟨steps, hexpand, rfl⟩
  exact namesElements_ofSteps (isSome_place_of_expand hexpand)

theorem namesElements_ofText_markedText :
    Diagram.ofText markedText = .ok (Diagram.ofSteps markedSteps) ∧
      (Diagram.ofSteps markedSteps).NamesElements :=
  ⟨ofText_markedText.2, namesElements_ofText ofText_markedText.2⟩

end IceFigures
