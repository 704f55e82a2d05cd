import Mathlib.Computability.RegularExpressions
import ReleaseFlow.TagPattern

/-!
# The expression of a tag pattern

The tags of a pattern are described by the text of a regular expression: the pattern with a
backslash before all that means something there, and with the form of a version in every place.

* `Expression.escape`: a text as the expression of itself;
* `Expression.digit`, `Expression.repeated`: one digit of any script, and one or more of something;
* `Expression.read?`: what the text of an expression for whole texts describes;
* `TagPattern.expression`, `TagPattern.recognises`: the expression of a pattern, and the tags that
  it describes.
-/

namespace ReleaseFlow

namespace Expression

/-- The characters that mean something in an expression. After a backslash they stand for
themselves. -/
def isMeta (c : Char) : Bool :=
  "\\.+*?()|[]\x7b\x7d^$#&-~".toList.contains c

def escapedChar (c : Char) : List Char :=
  if isMeta c then ['\\', c] else [c]

/-- The text as the expression of itself. -/
def escape (text : List Char) : List Char :=
  text.flatMap escapedChar

/-- One decimal digit of any script. -/
def digit : RegularExpression Char :=
  (Text.zeros.toList.flatMap fun z =>
    (List.range 10).map fun i => .char (Char.ofNat (z + i))).sum

/-- One or more in a row. -/
def repeated (e : RegularExpression Char) : RegularExpression Char :=
  e * e.star

/-- What was read of a group: all but its last item, and that item, which may be repeated yet. -/
structure Group where
  front : RegularExpression Char := 1
  last : Option (RegularExpression Char) := none

namespace Group

def whole (g : Group) : RegularExpression Char :=
  g.front * g.last.getD 1

/-- The group with one more item. -/
def add (g : Group) (e : RegularExpression Char) : Group :=
  ⟨g.whole, some e⟩

end Group

/-- Reads to the end of an expression. The group that is open now stands in the `outer` ones, the
innermost first. Alternatives, sets of characters and other repetitions are not read. -/
def readRest (outer : List Group) (g : Group) : List Char → Option (RegularExpression Char)
  | [] => none
  | '\\' :: 'd' :: cs => readRest outer (g.add digit) cs
  | '\\' :: c :: cs => if isMeta c then readRest outer (g.add (.char c)) cs else none
  | '(' :: cs => readRest (g :: outer) {} cs
  | ')' :: cs =>
    match outer with
    | [] => none
    | around :: outer => readRest outer (around.add g.whole) cs
  | '+' :: cs =>
    match g.last with
    | none => none
    | some e => readRest outer { g with last := some (repeated e) } cs
  | '$' :: cs => if outer.isEmpty && cs.isEmpty then some g.whole else none
  | c :: cs => if isMeta c then none else readRest outer (g.add (.char c)) cs

/-- What the text of an expression for whole texts describes. -/
def read? : List Char → Option (RegularExpression Char)
  | '^' :: cs => readRest [] {} cs
  | _ => none

end Expression

namespace TagPattern

/-- The placeholder in an escaped text. -/
def escapedMark : String := "\\\x7bversion\\\x7d"

/-- The form of a version, as a part of an expression. -/
def versionExpression : String := "(\\d+\\.\\d+\\.\\d+)"

/-- The expression of the pattern's tags. -/
def expression (p : TagPattern) : String :=
  "^" ++ Template.replace escapedMark versionExpression
    (String.ofList (Expression.escape p.text.toList)) ++ "$"

/-- The expression describes the tag. -/
def recognises (p : TagPattern) (tag : String) : Except Failure Bool :=
  match Expression.read? p.expression.toList with
  | some e => .ok (e.rmatch tag.toList)
  | none => .error (.tag "Invalid pattern: the expression cannot be read")

end TagPattern

end ReleaseFlow
