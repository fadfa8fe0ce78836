import IceFigures.Proofs.CanonicalText
import IceFigures.Proofs.Markup
import IceFigures.Proofs.Names
import IceFigures.Proofs.Primitives
import IceFigures.Proofs.Replay

/-!
# Drawn Shapes

Definitions are collected before anything is placed, and what is placed refers
to them by name alone. This module shows that the two passes agree: every
primitive of a sequence is drawn once, in order, by a name under which its own
definition is found.

Marks are the only other uses. They are switched on by a directive that also
supplies their definitions, and nothing is marked before it.

## Main definitions

* `markNames`: The names of marks.
* `Svg.Document.DrawsShapes`: Documents that draw primitives, each with its own
  shape.

## Theorems

* `find?_firstOfName`: The first definition of a name is kept.
* `targetsOf_draw`: A move uses the names of its primitives.
* `targets_placeStages`: So do the stages of a walk, but for marks.
* `drawsShapes_ofSteps`: Steps on their own edges are drawn with their shapes.
* `drawsShapes_ofText`: Every diagram of a text draws the shapes of its steps.
-/

namespace IceFigures

open Svg (targetsOf)

/-- The names of marks. -/
def markNames : List String :=
  [startMark, endMark]

/-- A document whose uses, but for marks, draw the given primitives in order.
    What is found under the name of a primitive is what the primitive is drawn
    from as a move of its own, and no definition goes unused. -/
structure Svg.Document.DrawsShapes (d : Svg.Document) (ps : List Primitive) : Prop where
  distinct : (d.definitions.map Svg.Definition.name).Nodup
  resolved : ∀ r ∈ d.xml.values Svg.referenceKey, ∃ f ∈ d.definitions, r = "#" ++ f.name
  drawn : (d.targets.filter fun t => t ∉ markNames) = ps.map Primitive.name
  shaped : ∀ p ∈ ps, (d.definitions.find? (·.name = p.name)).toList = p.move.definitions
  used : ∀ f ∈ d.definitions, f.name ∉ markNames → f.name ∈ d.targets

/-! ### Definitions -/

theorem mem_of_mem_firstOfName {seen : List String} {ds : List Svg.Definition}
    {d : Svg.Definition} (h : d ∈ firstOfName seen ds) : d ∈ ds ∧ d.name ∉ seen := by
  induction ds generalizing seen with
  | nil => exact absurd h List.not_mem_nil
  | cons e ds ih =>
      rw [firstOfName] at h
      split at h
      · rcases ih h with ⟨hmem, hseen⟩
        exact ⟨List.mem_cons_of_mem e hmem, hseen⟩
      · rename_i hnew
        rcases List.mem_cons.1 h with rfl | h
        · exact ⟨List.mem_cons_self, fun hmem => hnew (List.contains_iff_mem.2 hmem)⟩
        · rcases ih h with ⟨hmem, hseen⟩
          exact ⟨List.mem_cons_of_mem e hmem, fun hmem' => hseen (List.mem_cons_of_mem _ hmem')⟩

/-- No name is kept twice. -/
theorem nodup_firstOfName (seen : List String) (ds : List Svg.Definition) :
    ((firstOfName seen ds).map Svg.Definition.name).Nodup := by
  induction ds generalizing seen with
  | nil => exact List.nodup_nil
  | cons d ds ih =>
      rw [firstOfName]
      split
      · exact ih seen
      · rw [List.map_cons, List.nodup_cons]
        refine ⟨fun h => ?_, ih _⟩
        rcases List.mem_map.1 h with ⟨e, he, hname⟩
        exact (mem_of_mem_firstOfName he).2 (hname ▸ List.mem_cons_self)

/-- The first definition of a name is kept, unless the name was seen before. -/
theorem find?_firstOfName {seen : List String} {name : String} (hname : name ∉ seen)
    (ds : List Svg.Definition) :
    (firstOfName seen ds).find? (·.name = name) = ds.find? (·.name = name) := by
  induction ds generalizing seen with
  | nil => rfl
  | cons d ds ih =>
      rw [firstOfName]
      by_cases hd : d.name = name
      · have hnew : ¬seen.contains d.name = true :=
          fun h => hname (hd ▸ List.contains_iff_mem.1 h)
        rw [if_neg hnew]
        simp only [List.find?_cons, hd, decide_true]
      · have hrest : ∀ es : List Svg.Definition,
            (d :: es).find? (·.name = name) = es.find? (·.name = name) := by
          intro es
          simp only [List.find?_cons, hd, decide_false]
        rw [hrest]
        split
        · exact ih hname
        · rw [hrest]
          refine ih fun h => ?_
          rcases List.mem_cons.1 h with rfl | h
          · exact hd rfl
          · exact hname h

/-- Some definition of every name is kept. -/
theorem exists_mem_firstOfName {ds : List Svg.Definition} {d : Svg.Definition} (hd : d ∈ ds) :
    ∃ f ∈ firstOfName [] ds, f.name = d.name := by
  cases hfind : (firstOfName [] ds).find? (·.name = d.name) with
  | none =>
      rw [find?_firstOfName List.not_mem_nil] at hfind
      exact absurd (decide_eq_true rfl) (List.find?_eq_none.1 hfind d hd)
  | some f =>
      have hname := List.find?_some hfind
      rw [decide_eq_true_eq] at hname
      exact ⟨f, List.mem_of_find?_eq_some hfind, hname⟩

/-! ### Uses -/

theorem targetsOf_append (items items' : List Svg.Item) :
    targetsOf (items ++ items') = targetsOf items ++ targetsOf items' :=
  List.filterMap_append

theorem targetsOf_eq_nil {items : List Svg.Item} (h : ∀ i ∈ items, i.target? = none) :
    targetsOf items = [] :=
  List.filterMap_eq_nil_iff.2 h

theorem targetsOf_drawShape (before : Skater) (settings : Settings) (name : String)
    (labels : List PartLabel) :
    targetsOf (Part.drawShape before settings name labels) = [name] := by
  have hlabels : targetsOf (drawLabels before settings labels) = [] := by
    refine targetsOf_eq_nil fun i hi => ?_
    rcases List.mem_map.1 hi with ⟨l, -, rfl⟩
    rfl
  have hcons : targetsOf (Part.drawShape before settings name labels) =
      name :: targetsOf (drawLabels before settings labels) := rfl
  rw [hcons, hlabels]

theorem Part.targetsOf_draw (before : Skater) (settings : Settings) (p : Part) :
    targetsOf (p.draw before settings) = p.primitives.map Primitive.name := by
  cases p with
  | curve c => exact targetsOf_drawShape _ _ _ _
  | straight s => exact targetsOf_drawShape _ _ _ _
  | hop h => exact targetsOf_drawShape _ _ _ _
  | shift s => rfl
  | label l => rfl

theorem map_snd_walkParts (s : Skater) (ps : List Part) : (walkParts s ps).map Prod.snd = ps := by
  induction ps generalizing s with
  | nil => rfl
  | cons p ps ih => rw [walkParts, List.map_cons, ih]

theorem targetsOf_drawUntimed (settings : Settings) (walk : List (Skater × Part)) :
    targetsOf (Figure.drawUntimed settings walk) =
      ((walk.map Prod.snd).flatMap Part.primitives).map Primitive.name := by
  induction walk with
  | nil => rfl
  | cons sp walk ih =>
      rw [Figure.drawUntimed, List.flatMap_cons, targetsOf_append, Part.targetsOf_draw,
        ← Figure.drawUntimed, ih, List.map_cons, List.flatMap_cons, List.map_append]

theorem Figure.targetsOf_draw (before : Skater) (settings : Settings) (f : Figure) :
    targetsOf (f.draw before settings) =
      (f.parts.flatMap Part.primitives).map Primitive.name := by
  have hparts : (f.walk before).map Prod.snd = f.parts := map_snd_walkParts before f.parts
  rw [draw, ← hparts]
  cases f.walk before with
  | nil => rfl
  | cons sp rest =>
      simp only
      rw [targetsOf_append, Part.targetsOf_draw, targetsOf_drawUntimed, List.map_cons,
        List.flatMap_cons, List.map_append]

/-- A move uses the names of its primitives, in the order of its parts. -/
theorem Move.targetsOf_draw (before : Skater) (settings : Settings) (m : Move) :
    targetsOf (m.draw before settings) = m.primitives.map Primitive.name := by
  cases m with
  | part p =>
      rw [primitives_part]
      exact p.targetsOf_draw before settings
  | figure f => exact f.targetsOf_draw before settings
  | _ => rfl

/-- Naming items changes nothing that they use. -/
theorem targetsOf_nameItems (place : Option Place) (names : Names) (items : List Svg.Item) :
    targetsOf (nameItems place names items).1 = targetsOf items :=
  filterMap_nameItems (fun _ _ => rfl) place names items

theorem targetsOf_drawStep (before : Skater) (settings : Settings) (names : Names) (s : Step) :
    targetsOf (drawStep before settings names s).1 = s.move.primitives.map Primitive.name := by
  rw [drawStep, targetsOf_nameItems, Move.targetsOf_draw]

/-! ### Marks -/

theorem mem_markNames_of_mem_markAt {shown : Bool} {s : Skater} {mark t : String}
    {settings : Settings} (hmark : mark ∈ markNames)
    (h : t ∈ targetsOf (markAt shown s mark settings)) : shown = true ∧ t ∈ markNames := by
  cases shown with
  | false => exact absurd h List.not_mem_nil
  | true => exact ⟨rfl, List.mem_singleton.1 h ▸ hmark⟩

/-- No primitive has the name of a mark. -/
theorem Primitive.name_not_mem_markNames (p : Primitive) : p.name ∉ markNames := by
  rcases p.name_eq_cons with ⟨c, cs, hname, hc⟩
  have hmark : ∀ mark ∈ markNames, ∀ d ∈ mark.toList.take 1, d ∉ skatedOpenings := by
    decide
  intro h
  exact hmark _ h c (by rw [hname]; exact List.mem_cons_self) hc

/-- Marks are switched on by what supplies them. -/
theorem Move.markers_configure {m : Move} {settings : Settings}
    (h : (m.configure settings).markers = true) :
    settings.markers = true ∨ m.marks.map Svg.Definition.name = markNames := by
  cases m with
  | info i =>
      right
      have hmarkers : i.markers = true := h
      rw [marks, Info.definitions, if_pos hmarkers]
      rfl
  | _ => exact Or.inl h

theorem markers_laterSettings (settings : Settings) (s : Step) :
    (laterSettings settings s).markers = (s.move.configure settings).markers :=
  get_laterSettings Settings.markers (fun _ _ => rfl) settings s

/-! ### Stages -/

theorem map_step_walkFrom (skater : Skater) (steps : List Step) :
    (walkFrom skater steps).map Stage.step = steps := by
  induction steps generalizing skater with
  | nil => rfl
  | cons s rest ih =>
      rw [walkFrom, List.map_cons, ih]
      rfl

theorem map_step_walk (steps : List Step) : (walk steps).map Stage.step = steps := by
  cases steps with
  | nil => rfl
  | cons s rest =>
      rw [walk, List.map_cons, map_step_walkFrom]
      rfl

/-- The primitives of a sequence of steps, in order. -/
def primitivesOf (steps : List Step) : List Primitive :=
  steps.flatMap fun s => s.move.primitives

theorem filter_targetsOf_markAt (shown : Bool) (s : Skater) {mark : String}
    (hmark : mark ∈ markNames) (settings : Settings) :
    ((targetsOf (markAt shown s mark settings)).filter fun t => t ∉ markNames) = [] := by
  rw [List.filter_eq_nil_iff]
  intro t ht
  simpa using (mem_markNames_of_mem_markAt hmark ht).2

theorem filter_map_name (ps : List Primitive) :
    ((ps.map Primitive.name).filter fun t => t ∉ markNames) = ps.map Primitive.name := by
  rw [List.filter_eq_self]
  intro t ht
  rcases List.mem_map.1 ht with ⟨p, -, rfl⟩
  exact decide_eq_true p.name_not_mem_markNames

/-- Stages use the names of their primitives, apart from marks. -/
theorem targets_placeStages (settings : Settings) (names : Names) (stages : List Stage) :
    ((targetsOf (placeStages settings names stages).1).filter fun t => t ∉ markNames) =
      (primitivesOf (stages.map Stage.step)).map Primitive.name := by
  induction stages generalizing settings names with
  | nil => rfl
  | cons stage rest ih =>
      rw [placeStages_cons, targetsOf_append, targetsOf_append, targetsOf_append,
        targetsOf_drawStep, List.filter_append, List.filter_append, List.filter_append, ih,
        filter_targetsOf_markAt _ _ (by decide), filter_targetsOf_markAt _ _ (by decide),
        filter_map_name, List.nil_append, List.append_nil, List.map_cons, primitivesOf,
        primitivesOf, List.flatMap_cons, List.map_append]

-- By induction on the stages, for all settings: if marks are shown at a stage,
-- they were shown all along or a stage before it has switched them on.
theorem markNames_of_mem_targets {settings : Settings} {names : Names} {stages : List Stage}
    {t : String} (ht : t ∈ targetsOf (placeStages settings names stages).1)
    (hmark : t ∈ markNames) :
    settings.markers = true ∨
      ∃ s ∈ stages.map Stage.step, s.move.marks.map Svg.Definition.name = markNames := by
  induction stages generalizing settings names with
  | nil => exact absurd ht List.not_mem_nil
  | cons stage rest ih =>
      rw [placeStages_cons, targetsOf_append, targetsOf_append, targetsOf_append,
        targetsOf_drawStep] at ht
      simp only [List.mem_append] at ht
      rcases ht with ((hstart | hdrawn) | hend) | hlater
      · exact Or.inl (mem_markNames_of_mem_markAt (by decide) hstart).1
      · rcases List.mem_map.1 hdrawn with ⟨p, -, rfl⟩
        exact absurd hmark p.name_not_mem_markNames
      · exact Or.inl (mem_markNames_of_mem_markAt (by decide) hend).1
      · rcases ih hlater with hshown | ⟨s, hs, hmarks⟩
        · rw [markers_laterSettings] at hshown
          rcases Move.markers_configure hshown with hbefore | hmarks
          · exact Or.inl hbefore
          · exact Or.inr ⟨stage.step, List.mem_cons_self, hmarks⟩
        · exact Or.inr ⟨s, List.mem_cons_of_mem _ hs, hmarks⟩

/-! ### Diagrams -/

theorem markers_preparedSettings (steps : List Step) :
    (preparedSettings steps).markers = false := by
  refine get_preparedSettings Settings.markers (fun m settings => ?_) steps
  cases m <;> rfl

/-- What is drawn around the steps uses no definition. -/
theorem targets_ofSteps (steps : List Step) :
    (Diagram.ofSteps steps).document.targets = targetsOf (placed steps).1 :=
  filterMap_items_ofSteps (fun _ => rfl) steps

/-- The definitions that steps use or supply. -/
theorem mem_definitions_iff {steps : List Step} {f : Svg.Definition} :
    f ∈ (steps.flatMap fun s => s.move.definitions) ↔
      (∃ p ∈ primitivesOf steps, p.definition = f) ∨ ∃ s ∈ steps, f ∈ s.move.marks := by
  simp only [primitivesOf, List.mem_flatMap, Move.definitions_eq, List.mem_append, List.mem_map]
  constructor
  · rintro ⟨s, hs, ⟨p, hp, rfl⟩ | hmark⟩
    · exact Or.inl ⟨p, ⟨s, hs, hp⟩, rfl⟩
    · exact Or.inr ⟨s, hs, hmark⟩
  · rintro (⟨p, ⟨s, hs, hp⟩, rfl⟩ | ⟨s, hs, hmark⟩)
    · exact ⟨s, hs, Or.inl ⟨p, hp, rfl⟩⟩
    · exact ⟨s, hs, Or.inr hmark⟩

theorem name_of_mem_marks {m : Move} {f : Svg.Definition} (h : f ∈ m.marks) :
    f.name ∈ markNames := by
  cases m with
  | info i =>
      rw [Move.marks, Info.definitions] at h
      split at h
      · simp only [List.mem_cons, List.not_mem_nil, or_false] at h
        rcases h with rfl | rfl <;> decide
      · exact absurd h List.not_mem_nil
  | _ => exact absurd h List.not_mem_nil

/-- Every primitive of steps on their own edges is found by its name. -/
theorem find?_definitionsOf {steps : List Step} (h : ∀ s ∈ steps, s.move.OnOwnEdge)
    {p : Primitive} (hp : p ∈ primitivesOf steps) :
    (definitionsOf steps).find? (·.name = p.name) = some p.definition := by
  have hown : ∀ q ∈ primitivesOf steps, q.OnOwnEdge := by
    intro q hq
    rcases List.mem_flatMap.1 hq with ⟨s, hs, hmem⟩
    exact Move.onOwnEdge_of_mem_primitives (h s hs) q hmem
  rw [definitionsOf, find?_firstOfName List.not_mem_nil]
  cases hfind : (steps.flatMap fun s => s.move.definitions).find? (·.name = p.name) with
  | none =>
      have hmem := mem_definitions_iff.2 (Or.inl ⟨p, hp, rfl⟩)
      exact absurd (decide_eq_true rfl) (List.find?_eq_none.1 hfind p.definition hmem)
  | some f =>
      have hname := List.find?_some hfind
      rw [decide_eq_true_eq] at hname
      -- Whichever definition was collected first, it is that of a primitive with
      -- the same name, and so of the same primitive.
      rcases mem_definitions_iff.1 (List.mem_of_find?_eq_some hfind) with
        ⟨q, hq, rfl⟩ | ⟨s, -, hmark⟩
      · rw [Primitive.name_injective (hown q hq) (hown p hp) hname]
      · exact absurd (hname ▸ name_of_mem_marks hmark) p.name_not_mem_markNames

/-- Steps on their own edges are drawn with the shapes of their primitives. -/
theorem drawsShapes_ofSteps {steps : List Step} (h : ∀ s ∈ steps, s.move.OnOwnEdge) :
    (Diagram.ofSteps steps).document.DrawsShapes (primitivesOf steps) := by
  have hdrawn := targets_placeStages
    { preparedSettings steps with bounds := boundsOf (walk steps) } {} (walk steps)
  rw [map_step_walk, ← placed] at hdrawn
  have huses : ∀ p ∈ primitivesOf steps, p.name ∈ targetsOf (placed steps).1 := by
    intro p hp
    have hmem := List.mem_map_of_mem (f := Primitive.name) hp
    rw [← hdrawn] at hmem
    exact List.mem_of_mem_filter hmem
  constructor
  case distinct => exact nodup_firstOfName [] _
  case resolved =>
    intro r hr
    rw [Svg.Document.references_xml, targets_ofSteps] at hr
    rcases List.mem_map.1 hr with ⟨t, ht, rfl⟩
    by_cases hmark : t ∈ markNames
    · rcases markNames_of_mem_targets ht hmark with hshown | ⟨s, hs, hmarks⟩
      · rw [markers_preparedSettings] at hshown
        exact Bool.noConfusion hshown
      · rw [map_step_walk] at hs
        rw [← hmarks] at hmark
        rcases List.mem_map.1 hmark with ⟨f, hf, hname⟩
        rcases exists_mem_firstOfName (mem_definitions_iff.2 (Or.inr ⟨s, hs, hf⟩)) with
          ⟨g, hg, hname'⟩
        exact ⟨g, hg, by rw [hname', hname]⟩
    · have hprimitive : t ∈ (primitivesOf steps).map Primitive.name := by
        rw [← hdrawn]
        exact List.mem_filter.2 ⟨ht, decide_eq_true hmark⟩
      rcases List.mem_map.1 hprimitive with ⟨p, hp, rfl⟩
      exact ⟨p.definition, List.mem_of_find?_eq_some (find?_definitionsOf h hp), rfl⟩
  case drawn =>
    rw [targets_ofSteps]
    exact hdrawn
  case shaped =>
    intro p hp
    have hfind := congrArg Option.toList (find?_definitionsOf h hp)
    rw [Option.toList_some, ← p.definitions_move] at hfind
    exact hfind
  case used =>
    intro f hf hmark
    rw [targets_ofSteps]
    rcases mem_definitions_iff.1 (mem_of_mem_firstOfName hf).1 with ⟨p, hp, rfl⟩ | ⟨s, -, hs⟩
    · exact huses p hp
    · exact absurd (name_of_mem_marks hs) hmark

/-! ### Texts -/

/-- Whatever is written and drawn keeps to its own edges. -/
theorem onOwnEdge_of_expand {text : String} {steps : List Step} (h : expand text = .ok steps) :
    ∀ s ∈ steps, s.move.OnOwnEdge := by
  intro t ht
  rcases exists_written_of_expand h with ⟨written, htext, hcopies⟩
  rcases hcopies t ht with ⟨s, hs, pass, hcopy⟩
  have hown : s.move.OnOwnEdge := Move.onOwnEdge_of_fault? (ofText_cases htext s hs).1.move.sound
  rcases hcopy.move with hmove | hmove
  · rw [hmove]
    exact hown
  · rw [hmove]
    exact Move.onOwnEdge_opposite hown

/-- A text that has a diagram has the diagram of its unrolled steps. -/
theorem ofText_eq_ok {text : String} {d : Diagram} (h : Diagram.ofText text = .ok d) :
    ∃ steps, expand text = .ok steps ∧ d = Diagram.ofSteps steps := by
  unfold Diagram.ofText at h
  cases hexpand : expand text with
  | error e =>
      rw [hexpand] at h
      cases h
  | ok steps =>
      rw [hexpand] at h
      simp only [Diagram.checked] at h
      split at h
      · exact ⟨steps, rfl, (Except.ok.inj h).symm⟩
      · cases h

/-- The diagram of a text draws every primitive of the unrolled steps once, in
    order, with its own shape. -/
theorem drawsShapes_ofText {text : String} {d : Diagram} (h : Diagram.ofText text = .ok d) :
    ∃ steps, expand text = .ok steps ∧ d.document.DrawsShapes (primitivesOf steps) := by
  rcases ofText_eq_ok h with ⟨steps, hexpand, rfl⟩
  exact ⟨steps, hexpand, drawsShapes_ofSteps (onOwnEdge_of_expand hexpand)⟩

/-- Marks, an edge, and a hop that is skated twice. -/
def markedText : String :=
  "Info[markers=true];LFO;|:;RF-Hop;:|"

/-- The hop of the marked text in one of its passes. -/
def markedHop (pass : Nat) : Step where
  move := .part (.hop { code := ⟨.right, .forward, .flat⟩ })
  place := some { row := 0, col := 26, pass := some pass }

/-- The steps that the marked text is drawn as. -/
def markedSteps : List Step :=
  [{ move := .info { markers := true }, place := some { row := 0, col := 0 } },
    { outsideEdge .left with place := some { row := 0, col := 19 } }, markedHop 1, markedHop 2]

theorem ofText_markedText :
    expand markedText = .ok markedSteps ∧
      Diagram.ofText markedText = .ok (Diagram.ofSteps markedSteps) := by
  have hexpand : expand markedText = .ok markedSteps := by decide +kernel
  have hwritable :
      (Diagram.ofSteps markedSteps).document.items.all Svg.Item.isWritable = true := rfl
  refine ⟨hexpand, ?_⟩
  rw [Diagram.ofText, hexpand]
  exact if_pos hwritable

theorem drawsShapes_ofText_markedText :
    Diagram.ofText markedText = .ok (Diagram.ofSteps markedSteps) ∧
      ∃ steps, expand markedText = .ok steps ∧
        (Diagram.ofSteps markedSteps).document.DrawsShapes (primitivesOf steps) :=
  ⟨ofText_markedText.2, drawsShapes_ofText ofText_markedText.2⟩

end IceFigures
