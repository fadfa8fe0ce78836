import IceFigures.Param.Codec
import IceFigures.Profile

/-!
# Repeat Marks

The marks around a passage that is skated more than once, written like the
repeat signs of sheet music. The end mark tells how often, and whether every
other pass is skated on the opposite foot.

## Main definitions

* `startSign`: The sign that starts a repeat.
* `RepeatEnd`: The mark that ends a repeat.
* `RepeatEnd.read?`: An end mark written as a sign.
-/

namespace IceFigures

/-- The sign that starts a repeat. -/
def startSign : List Char :=
  ['|', ':']

/-- What the start of a repeat is written as in words. -/
def repeatStartKeyword : List Char :=
  ['R', 'e', 'p', 'e', 'a', 't', 'S', 't', 'a', 'r', 't']

/-- The start of a repeat as a kind of move. -/
def repeatStartProfile : Profile where
  name := "RepeatStart"
  summary := "Mark start of repeating section"
  sample := "|:"
  visible := false

/-- The mark that ends a repeat. -/
structure RepeatEnd where
  count : Int := 2
  alternate : Bool := false
deriving DecidableEq

namespace RepeatEnd

def keyword : List Char :=
  ['R', 'e', 'p', 'e', 'a', 't', 'E', 'n', 'd']

def profile : Profile where
  name := "RepeatEnd"
  summary := "Mark end of repeating section"
  sample := "!|x4"
  schema :=
    [.number "count" "Number of passes through the section" 2 .positive,
     .flag "alternate" "Whether alternate passes switch to the opposite foot"]
  visible := false

/-- What is wrong with an end mark, if anything. -/
def fault? (e : RepeatEnd) : Option Fault :=
  if e.count ≤ 0 then some (.unacceptable .positive (.number e.count)) else none

def params (e : RepeatEnd) : List Param :=
  [⟨"count", .number e.count⟩, ⟨"alternate", .flag e.alternate⟩]

def ofParams (ps : List Param) : RepeatEnd where
  count := Param.number ps "count"
  alternate := Param.flag ps "alternate"

/-- The sign of an end mark. -/
def sign (alternate : Bool) : List Char :=
  if alternate then ['!', '|'] else [':', '|']

/-- The canonical text of an end mark, with a count unless it is two. -/
def chars (e : RepeatEnd) : List Char :=
  if e.count = 2 then sign e.alternate else sign e.alternate ++ 'x' :: Text.decimal e.count

/-- The number of passes written after a sign, two if there is none. -/
def readCount? (cs : List Char) : Option (Except Fault Nat) :=
  if cs.isEmpty then some (.ok 2)
  else
    match Text.dropBlanks cs with
    | 'x' :: rest =>
      match Text.readDigits? (Text.dropBlanks rest) with
      | some (digits, []) => some (numberOfDigits digits)
      | _ => none
    | _ => none

/-- The end mark with a number of passes that may be at fault. -/
def ofCount (alternate : Bool) (count : Except Fault Nat) : Except Fault RepeatEnd :=
  count.map fun n => { count := n, alternate := alternate }

/-- The end mark that a whole text is, written as a sign. -/
def read? : List Char → Option (Except Fault RepeatEnd)
  | ':' :: '|' :: cs => (readCount? cs).map (ofCount false)
  | '!' :: '|' :: cs => (readCount? cs).map (ofCount true)
  | _ => none

end RepeatEnd

end IceFigures
