import ReleaseFlow.Json
import ReleaseFlow.Text.Decimal

/-!
# Reading JSON

A document is read from its text or from its bytes. Bytes are read as characters below 256; only
in the strings they are put together to text.

* `Json.textOf?`, `Json.textOfBytes?`: the text that a string stands for;
* `Json.value`: a value at the front of a document;
* `Json.read`, `Json.readBytes`: the value that a whole document stands for.
-/

namespace ReleaseFlow.Json

/-- What a reader gives: a content and the rest of the text. -/
abbrev Read (α : Type) := Option (α × List Char)

def isSpace (c : Char) : Bool :=
  c == ' ' || c == '\n' || c == '\t' || c == '\r'

def skipSpace (cs : List Char) : List Char :=
  cs.dropWhile isSpace

/-! ## Strings -/

/-- A piece of a string: a character, or a sixteen-bit unit given by number. -/
inductive Piece where
  | char (c : Char)
  | unit (n : Nat)

/-- Where the reader of a string stands. -/
inductive StringState where
  | plain
  | escape
  /-- Inside a number with this many digits to come. -/
  | number (digits value : Nat)

/-- The character that a letter after a backslash stands for. -/
def shortEscape? (c : Char) : Option Char :=
  match c with
  | '"' => some '"'
  | '\\' => some '\\'
  | '/' => some '/'
  | 'b' => some '\x08'
  | 'f' => some '\x0c'
  | 'n' => some '\n'
  | 'r' => some '\r'
  | 't' => some '\t'
  | _ => none

/-- The content with one more piece in front. -/
def push (p : Piece) (r : Read (List Piece)) : Read (List Piece) :=
  r.map fun (ps, rest) => (p :: ps, rest)

/-- The pieces of a string, after its opening quote. -/
def pieces : StringState → List Char → Read (List Piece)
  | _, [] => none
  | .escape, c :: cs =>
    if c = 'u' then pieces (.number 4 0) cs
    else (shortEscape? c).bind fun e => push (.char e) (pieces .plain cs)
  | .number (digits + 1) value, c :: cs =>
    if Text.isHexDigit c then
      let value := 16 * value + Text.hexDigitValue c
      if digits = 0 then push (.unit value) (pieces .plain cs)
      else pieces (.number digits value) cs
    else none
  | _, c :: cs =>
    if c = '"' then some ([], cs)
    else if c = '\\' then pieces .escape cs
    else if c.toNat < 0x20 then none
    else push (.char c) (pieces .plain cs)

/-- The unit is the first half of a surrogate pair. -/
def isHighUnit (n : Nat) : Bool :=
  0xD800 ≤ n && n < 0xDC00

/-- The unit is the second half of a surrogate pair. -/
def isLowUnit (n : Nat) : Bool :=
  0xDC00 ≤ n && n < 0xE000

/-- The characters that the pieces stand for, unless half of a surrogate pair is left. Those given
by number are spelled out. -/
def characters? (spell : Char → List Char) : List Piece → Option (List Char)
  | [] => some []
  | .char c :: ps => (characters? spell ps).map (c :: ·)
  | .unit n :: ps =>
    if isHighUnit n then
      match ps with
      | .unit low :: ps =>
        if isLowUnit low then
          let c := Char.ofNat (0x10000 + (n - 0xD800) * 0x400 + (low - 0xDC00))
          (characters? spell ps).map (spell c ++ ·)
        else none
      | _ => none
    else if isLowUnit n then none
    else (characters? spell ps).map (spell (Char.ofNat n) ++ ·)

/-- The text of a string in a text. -/
def textOf? (ps : List Piece) : Option String :=
  (characters? (fun c => [c]) ps).map String.ofList

/-- Bytes as characters below 256. -/
def byteChars (bytes : ByteArray) : List Char :=
  bytes.data.toList.map fun b => Char.ofNat b.toNat

/-- The text of a string in a document that is read by its bytes. -/
def textOfBytes? (ps : List Piece) : Option String :=
  (characters? (fun c => byteChars (String.singleton c).toUTF8) ps).bind fun cs =>
    String.fromUTF8? ⟨(cs.map fun c => UInt8.ofNat c.toNat).toArray⟩

/-- A string after its opening quote. -/
def stringBody (text? : List Piece → Option String) (cs : List Char) : Read (Option String) :=
  (pieces .plain cs).map fun (ps, rest) => (text? ps, rest)

/-! ## Numbers and words -/

/-- A character of a number or a word. -/
def isWordChar (c : Char) : Bool :=
  Text.isAsciiDigit c || ('a' ≤ c && c ≤ 'z') || ('A' ≤ c && c ≤ 'Z') || c == '+' || c == '-' ||
    c == '.'

/-- Digits without a zero in front of another digit. -/
def isWhole : List Char → Bool
  | ['0'] => true
  | '0' :: _ => false
  | cs => !cs.isEmpty && cs.all Text.isAsciiDigit

/-- The exponent of a number, or nothing. -/
def isExponent : List Char → Bool
  | [] => true
  | c :: cs =>
    (c == 'e' || c == 'E') &&
      match cs with
      | d :: ds =>
        if d = '+' || d = '-' then !ds.isEmpty && ds.all Text.isAsciiDigit
        else (d :: ds).all Text.isAsciiDigit
      | [] => false

/-- The fraction and the exponent of a number, or nothing. -/
def isFraction : List Char → Bool
  | '.' :: cs =>
    !(cs.takeWhile Text.isAsciiDigit).isEmpty && isExponent (cs.dropWhile Text.isAsciiDigit)
  | cs => isExponent cs

def isNumber (word : List Char) : Bool :=
  let body :=
    match word with
    | '-' :: cs => cs
    | cs => cs
  isWhole (body.takeWhile Text.isAsciiDigit) && isFraction (body.dropWhile Text.isAsciiDigit)

/-- The value of a word. -/
def ofWord? (word : List Char) : Option Json :=
  if word = "null".toList then some null
  else if word = "true".toList then some (bool true)
  else if word = "false".toList then some (bool false)
  else if isWhole word then some (natural (Text.digitsValue word))
  else if isNumber word then some (number (String.ofList word))
  else none

/-! ## Values -/

/-- The items of an array or an object after its bracket or a comma, at most the given number. -/
def items {α : Type} (close : Char) (item : List Char → Read α) : Nat → List Char → Read (List α)
  | 0, _ => none
  | limit + 1, cs =>
    (item (skipSpace cs)).bind fun (v, cs) =>
      match skipSpace cs with
      | [] => none
      | c :: cs =>
        if c = close then some ([v], cs)
        else if c = ',' then (items close item limit cs).map fun (vs, rest) => (v :: vs, rest)
        else none

/-- The items of an array or an object after its opening bracket. -/
def itemsOrNone {α : Type} (close : Char) (item : List Char → Read α) (cs : List Char) :
    Read (List α) :=
  match skipSpace cs with
  | [] => none
  | c :: rest => if c = close then some ([], rest) else items close item (cs.length + 1) cs

/-- A key, a colon and a value. -/
def member (text? : List Piece → Option String) (item : List Char → Read Json) :
    List Char → Read (Option String × Json)
  | '"' :: cs =>
    (stringBody text? cs).bind fun (key, cs) =>
      match skipSpace cs with
      | ':' :: cs => (item (skipSpace cs)).map fun (v, rest) => ((key, v), rest)
      | _ => none
  | _ => none

/-- A value at the front, at most the given number of brackets deep. -/
def value (text? : List Piece → Option String) : Nat → List Char → Read Json
  | 0, _ => none
  | depth + 1, '[' :: cs =>
    (itemsOrNone ']' (value text? depth) cs).map fun (vs, rest) => (array vs, rest)
  | depth + 1, '\x7b' :: cs =>
    (itemsOrNone '\x7d' (member text? (value text? depth)) cs).map fun (ms, rest) =>
      (object ms, rest)
  | _ + 1, '"' :: cs => (stringBody text? cs).map fun (text, rest) => (string text, rest)
  | _ + 1, cs =>
    (ofWord? (cs.takeWhile isWordChar)).map fun v => (v, cs.dropWhile isWordChar)

/-- The value that a whole document stands for, blanks around it allowed. -/
def document (text? : List Piece → Option String) (cs : List Char) : Option Json :=
  let cs := skipSpace cs
  match value text? (cs.length + 1) cs with
  | some (v, rest) => if (skipSpace rest).isEmpty then some v else none
  | none => none

/-- The value that a text stands for. -/
def read (text : String) : Option Json :=
  document textOf? text.toList

/-- The value that bytes stand for. Bytes that are no text are let pass in strings that are
skipped. -/
def readBytes (bytes : ByteArray) : Option Json :=
  document textOfBytes? (byteChars bytes)

end ReleaseFlow.Json
