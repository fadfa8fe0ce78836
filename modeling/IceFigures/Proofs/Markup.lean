import IceFigures.Svg.Shape
import Mathlib.Data.List.Basic

/-!
# Attributes of a Drawing

What the elements of a drawing say in one attribute. An attribute without a
value is left out when an element is written, so it does not count.

Only definitions and items carry an identifier, and only uses refer to one.

## Main definitions

* `Svg.Xml.values`: The values of an attribute, in the order of the elements.
* `Svg.Item.target?`: The name that an item refers to.
* `Svg.Document.targets`: The names that the uses of a document refer to.

## Theorems

* `Svg.Document.identifiers_xml`: The identifiers of a document.
* `Svg.Document.references_xml`: The references of a document.
-/

namespace IceFigures

namespace Svg

/-! ### Attributes -/

namespace Xml

/-- The values of an attribute of one element. -/
def valuesIn (key : String) (attributes : List (String × String)) : List String :=
  (attributes.filter fun a => a.1 = key ∧ a.2 ≠ "").map (·.2)

mutual

/-- The values of an attribute in an element and all elements below it. -/
def values (key : String) : Xml → List String
  | element _ attributes _ children => valuesIn key attributes ++ valuesAll key children
  | literal _ attributes _ => valuesIn key attributes

/-- The values of an attribute in several elements. -/
def valuesAll (key : String) : List Xml → List String
  | [] => []
  | x :: xs => values key x ++ valuesAll key xs

end

theorem valuesAll_eq_flatMap (key : String) (xs : List Xml) :
    valuesAll key xs = xs.flatMap (values key) := by
  induction xs with
  | nil => rfl
  | cons x xs ih => rw [valuesAll, ih, List.flatMap_cons]

end Xml

/-- The attribute that names an element. -/
def identifierKey : String := "id"

/-- The attribute that refers to a named element. -/
def referenceKey : String := "xlink:href"

/-- A value, unless it is empty. -/
def given (value : String) : List String :=
  if value = "" then [] else [value]

theorem flatMap_given (values : List String) : values.flatMap given = values.filter (· ≠ "") := by
  induction values with
  | nil => rfl
  | cons v vs ih =>
      rw [List.flatMap_cons, ih, given]
      by_cases h : v = "" <;> simp [h]

/-! ### Shapes and definitions -/

section Elements

-- An element of a drawing has one attribute of its own for each key.
attribute [local simp] Xml.values Xml.valuesAll Xml.valuesIn identifierKey referenceKey given

theorem Shape.identifiers_xml (name : String) (s : Shape) :
    (s.xml name).values identifierKey = given name := by
  by_cases h : name = "" <;> cases s <;> simp [Shape.xml, h]

theorem Shape.references_xml (name : String) (s : Shape) :
    (s.xml name).values referenceKey = [] := by
  cases s <;> simp [Shape.xml]

theorem Definition.identifiers_xml (name : String) (body : Definition.Body) :
    (Definition.xml name body).values identifierKey = given name := by
  cases body with
  | group shapes =>
      have hshapes : Xml.valuesAll identifierKey (shapes.map (Shape.xml "")) = [] := by
        rw [Xml.valuesAll_eq_flatMap, List.flatMap_map, List.flatMap_eq_nil_iff]
        exact fun s _ => s.identifiers_xml ""
      rw [xml, Xml.values, hshapes, List.append_nil]
      by_cases h : name = "" <;> simp [h]
  | single s => exact s.identifiers_xml name

theorem Definition.references_xml (name : String) (body : Definition.Body) :
    (Definition.xml name body).values referenceKey = [] := by
  cases body with
  | group shapes =>
      have hshapes : Xml.valuesAll referenceKey (shapes.map (Shape.xml "")) = [] := by
        rw [Xml.valuesAll_eq_flatMap, List.flatMap_map, List.flatMap_eq_nil_iff]
        exact fun s _ => s.references_xml ""
      rw [xml, Xml.values, hshapes, List.append_nil]
      simp
  | single s => exact s.references_xml name

/-! ### Items -/

theorem Caption.identifiers_xml (name : String) (c : Caption) :
    (c.xml name).values identifierKey = given name := by
  rcases c with ⟨pos, fontSize, rotation, body⟩
  rcases body with text | ⟨_ | n, text⟩ <;> by_cases h : name = "" <;> simp [Caption.xml, h]

theorem Caption.references_xml (name : String) (c : Caption) :
    (c.xml name).values referenceKey = [] := by
  rcases c with ⟨pos, fontSize, rotation, body⟩
  rcases body with text | ⟨_ | n, text⟩ <;> simp [Caption.xml]

namespace Item

/-- The name that an item refers to, if it uses a definition. -/
def target? (i : Item) : Option String :=
  match i.content with
  | .use target _ _ _ => some target
  | _ => none

theorem identifiers_xml (i : Item) : i.xml.values identifierKey = given (i.name.getD "") := by
  rcases i with ⟨content, name⟩
  cases content with
  | use target pos heading strokeWidth => by_cases h : name.getD "" = "" <;> simp [xml, h]
  | caption c => exact c.identifiers_xml _
  | shape s => exact s.identifiers_xml _

theorem references_xml (i : Item) :
    i.xml.values referenceKey = i.target?.toList.map ("#" ++ ·) := by
  rcases i with ⟨content, name⟩
  cases content with
  | use target pos heading strokeWidth => simp [xml, target?]
  | caption c => exact c.references_xml _
  | shape s => exact s.references_xml _

end Item

end Elements

/-! ### Documents -/

/-- The names that uses among items refer to, in order. -/
def targetsOf (items : List Item) : List String :=
  items.filterMap Item.target?

namespace Document

/-- The names that the uses of a document refer to, in order. -/
def targets (d : Document) : List String :=
  targetsOf d.items

/-- The values of an attribute that the elements around definitions and items
    do not have. -/
theorem values_xml {key : String} {d : Document}
    (hroot : Xml.valuesIn key (rootAttributes d.view) = []) (htype : key ≠ "type") :
    d.xml.values key =
      (d.definitions.flatMap fun f => (Definition.xml f.name f.body).values key) ++
        d.items.flatMap fun i => i.xml.values key := by
  have hstyle : Xml.valuesIn key [("type", "text/css")] = [] := by
    simp [Xml.valuesIn, htype.symm]
  simp only [xml, Xml.values, Xml.valuesAll, hroot, hstyle, Xml.valuesAll_eq_flatMap,
    List.flatMap_map, List.nil_append, List.append_nil]
  rfl

/-- The identifiers of a document: the names of its definitions, then those of
    its items. -/
theorem identifiers_xml (d : Document) :
    d.xml.values identifierKey =
      (d.definitions.map Definition.name ++ d.items.filterMap Item.name).filter (· ≠ "") := by
  have hitem : ∀ i : Item, i.xml.values identifierKey = i.name.toList.flatMap given := by
    intro i
    rw [i.identifiers_xml]
    cases i.name with
    | none => rfl
    | some name => exact (List.flatMap_singleton given name).symm
  rw [values_xml (by simp [rootAttributes, Xml.valuesIn, identifierKey]) (by decide),
    ← flatMap_given, List.flatMap_append, List.flatMap_map, List.filterMap_eq_flatMap_toList,
    List.flatMap_assoc]
  simp only [Definition.identifiers_xml, hitem]

/-- The references of a document: what its uses refer to, as fragments. -/
theorem references_xml (d : Document) :
    d.xml.values referenceKey = d.targets.map ("#" ++ ·) := by
  rw [values_xml (by simp [rootAttributes, Xml.valuesIn, referenceKey]) (by decide), targets,
    targetsOf, List.filterMap_eq_flatMap_toList, List.map_flatMap]
  simp only [Definition.references_xml, Item.references_xml, List.flatMap_eq_nil_iff.2,
    implies_true, List.nil_append]

end Document

end Svg

end IceFigures
