import IceFigures.Text.Quoted

/-!
# Parameter Values

A parameter of a move holds a whole number, a text or a flag. Inside a list a
number is written in digits, a flag as `true` or `false`, and a text in double
quotes with a backslash before every double quote and backslash in it.

## Main definitions

* `Value`: A number, a text or a flag.
* `Value.chars`: A value as it is written in a list.
* `Param`: A name with a value.
* `Value.asNumber?`, `Value.asText`: A value taken for a number or a text.
-/

namespace IceFigures

/-- The value of a parameter. -/
inductive Value
  | number (n : Int)
  | text (s : String)
  | flag (b : Bool)
deriving DecidableEq

/-- A name with a value. -/
structure Param where
  name : String
  value : Value
deriving DecidableEq

/-- One character of a text inside double quotes. -/
def escapeChar (c : Char) : List Char :=
  if c = '\\' || c = '\x22' then ['\\', c] else [c]

/-- The characters of a text inside double quotes. -/
def escapeText (cs : List Char) : List Char :=
  cs.flatMap escapeChar

namespace Value

/-- A value as it is written in a list. -/
def chars : Value → List Char
  | number n => Text.decimal n
  | text s => '\x22' :: escapeText s.toList ++ ['\x22']
  | flag b => (if b then "true" else "false").toList

/-- Whether a value is short enough to be written. -/
def isWritable : Value → Bool
  | number n => Text.isWritable n
  | _ => true

/-- A value as it is written in a list. -/
def written (v : Value) : String :=
  String.ofList v.chars

/-- A value as messages list it among others. -/
def listed : Value → String
  | number n => String.ofList (Text.decimal n)
  | text s => Text.quoted s
  | flag b => if b then "True" else "False"

/-- A value taken for a number; a flag counts as one or nothing, and a text has
    to spell a number. -/
def asNumber? : Value → Option Int
  | number n => some n
  | text s => (Text.readInteger s.toList).toOption
  | flag b => some (if b then 1 else 0)

/-- A value taken for a text. -/
def asText : Value → String
  | number n => String.ofList (Text.decimal n)
  | text s => s
  | flag b => if b then "True" else "False"

end Value

namespace Param

/-- A parameter as it is written in a list. -/
def chars (p : Param) : List Char :=
  p.name.toList ++ '=' :: p.value.chars

/-- A parameter as messages list it among others. -/
def listed (p : Param) : String :=
  "MoveParam(name=" ++ Text.quoted p.name ++ ", value=" ++ p.value.listed ++ ")"

/-- Parameters as messages list them. -/
def listedAll (ps : List Param) : String :=
  "[" ++ ", ".intercalate (ps.map listed) ++ "]"

/-- Whether all values are short enough to be written. -/
def areWritable (ps : List Param) : Bool :=
  ps.all fun p => p.value.isWritable

/-- The value of the last parameter of a name. -/
def value? (ps : List Param) (name : String) : Option Value :=
  (ps.reverse.find? (·.name = name)).map (·.value)

/-- A named parameter taken for a number, zero if it cannot be. -/
def number (ps : List Param) (name : String) : Int :=
  ((value? ps name).bind Value.asNumber?).getD 0

/-- A named parameter taken for a text. -/
def text (ps : List Param) (name : String) : String :=
  ((value? ps name).map Value.asText).getD ""

/-- Whether a named parameter is set. -/
def flag (ps : List Param) (name : String) : Bool :=
  match value? ps name with
  | some (.flag b) => b
  | some (.number n) => n != 0
  | some (.text s) => s != ""
  | none => false

end Param

end IceFigures
