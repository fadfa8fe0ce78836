/-!
# Markup

Elements with attributes, text and children, and their written form on one
line. Attributes are given in the order of their names; one without a value is
left out. An element without text and children closes itself.

## Main definitions

* `Xml`: An element.
* `Xml.write`: The written form of an element.
-/

namespace IceFigures

namespace Svg

/-- An element with its attributes in the order of their names. -/
inductive Xml
  | element (tag : String) (attributes : List (String × String)) (text : String)
      (children : List Xml)
  | literal (tag : String) (attributes : List (String × String)) (text : String)

namespace Xml

/-- One character of running text. -/
def escapeText (c : Char) : List Char :=
  if c = '&' then "&amp;".toList
  else if c = '<' then "&lt;".toList
  else if c = '>' then "&gt;".toList
  else [c]

/-- One character of an attribute's value. -/
def escapeAttribute (c : Char) : List Char :=
  if c = '\x22' then "&quot;".toList else escapeText c

/-- A text with each character spelled out by `escape`. -/
def escaped (escape : Char → List Char) (s : String) : String :=
  String.ofList (s.toList.flatMap escape)

/-- The attributes that have a value, each with a blank in front. -/
def writeAttributes (attributes : List (String × String)) : String :=
  String.join ((attributes.filter fun a => a.2 ≠ "").map fun a =>
    " " ++ a.1 ++ "=\"" ++ escaped escapeAttribute a.2 ++ "\"")

/-- An element around its written content. -/
def wrap (tag : String) (attributes : List (String × String)) (content : String) : String :=
  let opening := "<" ++ tag ++ writeAttributes attributes
  if content = "" then opening ++ " />" else opening ++ ">" ++ content ++ "</" ++ tag ++ ">"

mutual

/-- The written form of an element. -/
def write : Xml → String
  | element tag attributes text children =>
    wrap tag attributes (escaped escapeText text ++ String.join (writeAll children))
  | literal tag attributes text => wrap tag attributes ("<![CDATA[" ++ text ++ "]]>")

/-- The written forms of elements, one by one. -/
def writeAll : List Xml → List String
  | [] => []
  | x :: xs => write x :: writeAll xs

end

end Xml

end Svg

end IceFigures
