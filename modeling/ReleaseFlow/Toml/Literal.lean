import ReleaseFlow.Calendar
import ReleaseFlow.Toml.Value

/-!
# Numbers, booleans and dates

The values that are written as one word, without quotes or brackets.

* `Toml.groups`: digits with underscores between them;
* `Toml.integer?`, `Toml.isFloat`, `Toml.isMoment`: the forms of numbers and dates;
* `Toml.ofWord`: the value that a word stands for.
-/

namespace ReleaseFlow.Toml

/-- The digits of a word in which single underscores may stand between digits. -/
def groups (isDigit : Char → Bool) : Bool → List Char → Option (List Char)
  | afterDigit, [] => if afterDigit then some [] else none
  | afterDigit, c :: cs =>
    if isDigit c then (groups isDigit true cs).map (c :: ·)
    else if afterDigit && c == '_' then groups isDigit false cs
    else none

/-- The digits of a decimal number: no zero in front of another digit. -/
def wholeDigits? : List Char → Option (List Char)
  | ['0'] => some ['0']
  | '0' :: _ => none
  | cs => groups Text.isAsciiDigit false cs

/-- The number in a base that a prefix names. -/
def based? (base : Nat) (isDigit : Char → Bool) (cs : List Char) : Option Int :=
  (groups isDigit false cs).map fun digits => Text.valueInBase base digits

/-- The sign in front, true for a minus, and the rest. -/
def splitSign : List Char → Bool × List Char
  | '-' :: cs => (true, cs)
  | '+' :: cs => (false, cs)
  | cs => (false, cs)

/-- The number of an integer's word, of any size. -/
def anyInteger? : List Char → Option Int
  | '0' :: 'x' :: cs => based? 16 Text.isHexDigit cs
  | '0' :: 'o' :: cs => based? 8 (fun c => '0' ≤ c && c ≤ '7') cs
  | '0' :: 'b' :: cs => based? 2 (fun c => c == '0' || c == '1') cs
  | cs =>
    let (negative, body) := splitSign cs
    (wholeDigits? body).map fun digits =>
      if negative then -(Text.digitsValue digits : Int) else Text.digitsValue digits

/-- The number of an integer's word, when 64 bits with a sign hold it. -/
def integer? (cs : List Char) : Option Int :=
  (anyInteger? cs).bind fun n =>
    if Int64.minValue.toInt ≤ n && n ≤ Int64.maxValue.toInt then some n else none

/-- The smallest number that double precision rounds to infinity. -/
def tooHuge : Nat :=
  Nat.pow 2 1024 - Nat.pow 2 970

/-- The number `mantissa * 10 ^ exponent` rounds to infinity in double precision. -/
def isHuge (mantissa : Nat) (exponent : Int) : Bool :=
  if mantissa = 0 then false
  else
    let digits : Int := (Text.decimal mantissa).length
    if 310 ≤ digits + exponent then true
    else if digits + exponent ≤ 308 then false
    else if 0 ≤ exponent then tooHuge ≤ mantissa * Nat.pow 10 exponent.toNat
    else tooHuge * Nat.pow 10 (-exponent).toNat ≤ mantissa

/-- The exponent of a number with a fraction: `e`, a sign and digits, or nothing. -/
def exponent? : List Char → Option Int
  | [] => some 0
  | c :: cs =>
    if c = 'e' || c = 'E' then
      let (negative, body) := splitSign cs
      (groups Text.isAsciiDigit false body).map fun digits =>
        if negative then -(Text.digitsValue digits : Int) else Text.digitsValue digits
    else none

/-- The word is a number with a fraction or an exponent, which does not exceed double precision. -/
def isFloat (cs : List Char) : Bool :=
  let (negative, body) := splitSign cs
  if body = ['i', 'n', 'f'] || body = ['n', 'a', 'n'] then true
  else
    let isMark (c : Char) := c == '.' || c == 'e' || c == 'E'
    let whole := body.takeWhile fun c => !isMark c
    match wholeDigits? whole, body.dropWhile fun c => !isMark c with
    | some w, '.' :: cs =>
      let fraction := cs.takeWhile fun c => !isMark c
      let tail := cs.dropWhile fun c => !isMark c
      match groups Text.isAsciiDigit false fraction, exponent? tail with
      | some f, some e => negative || !isHuge (Text.digitsValue (w ++ f)) (e - f.length)
      | _, _ => false
    | some w, c :: cs =>
      match exponent? (c :: cs) with
      | some e => negative || !isHuge (Text.digitsValue w) e
      | none => false
    | _, _ => false

/-- A number of exactly `width` digits at the front, and what follows it. -/
def fixed? (width : Nat) (cs : List Char) : Option (Nat × List Char) :=
  let digits := cs.take width
  if digits.length = width && digits.all Text.isAsciiDigit then
    some (Text.digitsValue digits, cs.drop width)
  else none

def after? (c : Char) : List Char → Option (List Char)
  | [] => none
  | d :: cs => if d = c then some cs else none

/-- What follows a date at the front. -/
def afterDate? (cs : List Char) : Option (List Char) := do
  let (year, cs) ← fixed? 4 cs
  let (month, cs) ← fixed? 2 (← after? '-' cs)
  let (day, cs) ← fixed? 2 (← after? '-' cs)
  guard (1 ≤ month && month ≤ 12 && 1 ≤ day && day ≤ daysInMonth year month)
  return cs

/-- What follows a time of day at the front, parts of a second included. -/
def afterTime? (cs : List Char) : Option (List Char) := do
  let (hour, cs) ← fixed? 2 cs
  let (minute, cs) ← fixed? 2 (← after? ':' cs)
  let (second, cs) ← fixed? 2 (← after? ':' cs)
  guard (hour ≤ 23 && minute ≤ 59 && second ≤ 60)
  match cs with
  | '.' :: c :: cs =>
    if Text.isAsciiDigit c then some (cs.dropWhile Text.isAsciiDigit) else none
  | '.' :: [] => none
  | cs => some cs

def isOffset : List Char → Bool
  | ['Z'] | ['z'] => true
  | c :: cs =>
    (c == '+' || c == '-') &&
      match fixed? 2 cs with
      | some (hour, ':' :: cs) =>
        match fixed? 2 cs with
        | some (minute, []) => hour ≤ 23 && minute ≤ 59
        | _ => false
      | _ => false
  | [] => false

/-- The word is a time of day, optionally with the offset of its zone. -/
def isZonedTime (cs : List Char) : Bool :=
  match afterTime? cs with
  | some rest => rest.isEmpty || isOffset rest
  | none => false

def isDate (cs : List Char) : Bool :=
  afterDate? cs == some []

/-- The word is a date, a time of day, or both with the letter `T` between them. -/
def isMoment (cs : List Char) : Bool :=
  match afterDate? cs with
  | some [] => true
  | some (c :: rest) => (c == 'T' || c == 't') && isZonedTime rest
  | none => afterTime? cs == some []

/-- The value that a word stands for. -/
def ofWord (cs : List Char) : Option Toml :=
  if cs = "true".toList then some (.boolean true)
  else if cs = "false".toList then some (.boolean false)
  else if isMoment cs then some (.moment (String.ofList cs))
  else
    match integer? cs with
    | some n => some (.integer n)
    | none => if isFloat cs then some (.float (String.ofList cs)) else none

end ReleaseFlow.Toml
