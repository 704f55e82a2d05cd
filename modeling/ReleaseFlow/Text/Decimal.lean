/-!
# Decimal numbers

Natural numbers as decimal text, and the value of a run of ASCII digits.

* `decimal`, `padded`: the text of a number, and the same with zeros in front up to a width;
* `digitsValue`: the number that a run of digits stands for;
* `isHexDigit`, `valueInBase`: the same for base sixteen.
-/

namespace ReleaseFlow.Text

/-- One of the ten ASCII digits. -/
def isAsciiDigit (c : Char) : Bool :=
  '0' ≤ c && c ≤ '9'

/-- The decimal text of a number, without leading zeros. -/
def decimal (n : Nat) : String :=
  Nat.repr n

/-- The decimal text with zeros in front, at least `width` digits. -/
def padded (width n : Nat) : String :=
  String.ofList ((decimal n).toList.leftpad width '0')

/-- The number that a run of ASCII digits stands for. -/
def digitsValue (cs : List Char) : Nat :=
  cs.foldl (fun n c => 10 * n + (c.toNat - '0'.toNat)) 0

def isHexDigit (c : Char) : Bool :=
  isAsciiDigit c || ('a' ≤ c && c ≤ 'f') || ('A' ≤ c && c ≤ 'F')

def hexDigitValue (c : Char) : Nat :=
  if isAsciiDigit c then c.toNat - '0'.toNat
  else if 'a' ≤ c then c.toNat - 'a'.toNat + 10
  else c.toNat - 'A'.toNat + 10

/-- The number that a run of digits stands for in a base up to sixteen. -/
def valueInBase (base : Nat) (cs : List Char) : Nat :=
  cs.foldl (fun n c => base * n + hexDigitValue c) 0

end ReleaseFlow.Text
