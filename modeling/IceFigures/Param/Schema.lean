import IceFigures.Param.Value

/-!
# Schemas

A kind of move lists its parameters in a schema: each has a name, a default and
a range of values that it accepts. One or two of the numeric ones may also be
set by a short code, one to three signs `+` or `-`, or `>` or `<`, each of
which stands for a fixed value, a detent.

## Main definitions

* `Range`: The values that a parameter accepts.
* `ShortKind`: The pair of signs of a short code.
* `Detents`: The values that short codes stand for.
* `ShortCode`: A pair of signs with its detents.
* `Field`: One parameter of a schema.
* `Schema`: The parameters of a kind of move, in order.

## Theorems

* `Detents.level?_eq_some`: A level that is found selects the value.
-/

namespace IceFigures

/-- The values that a parameter accepts. -/
inductive Range
  | text
  | any
  | nonneg
  | positive
  | flag
deriving DecidableEq

namespace Range

/-- What a message says is wanted. -/
def want : Range → String
  | text => "string"
  | any => "number"
  | nonneg => "number >= 0"
  | positive => "number > 0"
  | flag => "boolean"

/-- Whether a value lies in the range. -/
def accepts : Range → Value → Bool
  | text, .text _ => true
  | flag, .flag _ => true
  | any, .number _ => true
  | nonneg, .number n => decide (0 ≤ n)
  | positive, .number n => decide (0 < n)
  | _, _ => false

/-- What is said of a value outside the range. -/
def complaint : Range → Value → String
  | text, .number n => String.ofList (Text.decimal n) ++ " unexpected, want \"string\""
  | flag, .number n => String.ofList (Text.decimal n) ++ " out of range, expect boolean"
  | nonneg, .number n => String.ofList (Text.decimal n) ++ " out of range, must be >= 0"
  | positive, .number n => String.ofList (Text.decimal n) ++ " out of range, must be > 0"
  | r, v => v.written ++ " unexpected, want " ++ r.want

end Range

/-- The pair of signs of a short code; the first of them raises the value. -/
inductive ShortKind
  | plusMinus
  | greaterLess
deriving DecidableEq

namespace ShortKind

/-- The sign that raises the value. -/
def up : ShortKind → Char
  | plusMinus => '+'
  | greaterLess => '>'

/-- The sign that lowers the value. -/
def down : ShortKind → Char
  | plusMinus => '-'
  | greaterLess => '<'

/-- The pair that a sign belongs to. -/
def ofSign? : Char → Option ShortKind
  | '+' => some plusMinus
  | '-' => some plusMinus
  | '>' => some greaterLess
  | '<' => some greaterLess
  | _ => none

end ShortKind

/-- How far a short code goes: up or down, by one to three signs. -/
inductive Level
  | add1
  | add2
  | add3
  | less1
  | less2
  | less3
deriving DecidableEq

namespace Level

/-- All levels, in the order in which they are tried for a value. -/
def all : List Level :=
  [add1, add2, add3, less1, less2, less3]

/-- The level of a run of signs, if the run is not too long. -/
def ofRun? (up : Bool) (length : Nat) : Option Level :=
  match up, length with
  | true, 1 => some add1
  | true, 2 => some add2
  | true, 3 => some add3
  | false, 1 => some less1
  | false, 2 => some less2
  | false, 3 => some less3
  | _, _ => none

/-- Whether the level raises the value. -/
def isUp : Level → Bool
  | add1 | add2 | add3 => true
  | less1 | less2 | less3 => false

/-- The number of signs. -/
def length : Level → Nat
  | add1 | less1 => 1
  | add2 | less2 => 2
  | add3 | less3 => 3

/-- The level as a number of signs, negative downwards. -/
def toInt (l : Level) : Int :=
  if l.isUp then l.length else -l.length

theorem ofRun?_isUp_length (l : Level) : ofRun? l.isUp l.length = some l := by
  cases l <;> rfl

end Level

/-- The values that one to three signs stand for. -/
structure Detents where
  add1 : Int
  add2 : Int
  add3 : Int
  less1 : Int
  less2 : Int
  less3 : Int
deriving DecidableEq

namespace Detents

/-- The value of a level. -/
def value (d : Detents) : Level → Int
  | .add1 => d.add1
  | .add2 => d.add2
  | .add3 => d.add3
  | .less1 => d.less1
  | .less2 => d.less2
  | .less3 => d.less3

/-- The first level with a value. -/
def level? (d : Detents) (n : Int) : Option Level :=
  Level.all.find? fun l => d.value l == n

theorem level?_eq_some {d : Detents} {n : Int} {l : Level} (h : d.level? n = some l) :
    d.value l = n := by
  have := List.find?_some h
  simpa using this

end Detents

/-- A pair of signs together with its detents. -/
structure ShortCode where
  kind : ShortKind
  detents : Detents
deriving DecidableEq

namespace ShortCode

/-- The run of signs of a level. -/
def signs (kind : ShortKind) (l : Level) : List Char :=
  List.replicate l.length (if l.isUp then kind.up else kind.down)

/-- The run of signs that selects a value, empty if there is none. -/
def symbols (s : ShortCode) (n : Int) : List Char :=
  match s.detents.level? n with
  | none => []
  | some l => signs s.kind l

end ShortCode

/-- One parameter of a schema. -/
structure Field where
  name : String
  doc : String := ""
  default : Value
  range : Range
  short : Option ShortCode := none

/-- The parameters of a kind of move, in order. -/
abbrev Schema := List Field

namespace Field

/-- A numeric parameter. -/
def number (name doc : String) (default : Int) (range : Range := .any)
    (short : Option ShortCode := none) : Field :=
  { name := name, doc := doc, default := .number default, range := range, short := short }

/-- A parameter that holds a text. -/
def text (name doc : String) : Field :=
  { name := name, doc := doc, default := .text "", range := .text }

/-- A parameter that is on or off. -/
def flag (name doc : String) (default : Bool := false) : Field :=
  { name := name, doc := doc, default := .flag default, range := .flag }

end Field

/-- A short code written with `+` and `-`. -/
def plusMinus (add1 add2 add3 less1 less2 less3 : Int) : Option ShortCode :=
  some ⟨.plusMinus, ⟨add1, add2, add3, less1, less2, less3⟩⟩

/-- A short code written with `>` and `<`. -/
def greaterLess (add1 add2 add3 less1 less2 less3 : Int) : Option ShortCode :=
  some ⟨.greaterLess, ⟨add1, add2, add3, less1, less2, less3⟩⟩

namespace Schema

/-- The parameters of a schema at their defaults. -/
def defaults (schema : Schema) : List Param :=
  schema.map fun f => { name := f.name, value := f.default }

/-- The names of a schema, in order. -/
def names (schema : Schema) : List String :=
  schema.map (·.name)

/-- Whether parameters have exactly the names of a schema, in its order. -/
def fits (schema : Schema) (ps : List Param) : Bool :=
  schema.names == ps.map (·.name)

end Schema

end IceFigures
