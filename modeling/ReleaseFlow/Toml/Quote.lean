import ReleaseFlow.Text.Decimal

/-!
# Quoted text in TOML documents

Four kinds of quotes: single and double ones, on one line or in threes around several lines. Every
reader is given the text after the opening quotes and gives the content and what follows the
closing ones.

* `Toml.basicText`, `Toml.basicBlock`: between double quotes, with escapes;
* `Toml.literalText`, `Toml.literalBlock`: between single quotes, without.
-/

namespace ReleaseFlow.Toml

/-- What a reader gives: a content and the rest of the document. -/
abbrev Read (α : Type) := Option (α × List Char)

def push (c : Char) (r : Read (List Char)) : Read (List Char) :=
  r.map fun (cs, rest) => (c :: cs, rest)

def isSpace (c : Char) : Bool :=
  c == ' ' || c == '\t'

/-- A character that may stand in a comment or in quotes: a tab or no control character. -/
def isPlain (c : Char) : Bool :=
  c == '\t' || (0x20 ≤ c.toNat && c.toNat != 0x7F)

/-- The character with the given number, if it is one. -/
def scalar? (n : Nat) : Option Char :=
  if n.isValidChar then some (Char.ofNat n) else none

/-- The character that a letter after a backslash stands for. -/
def shortEscape? (c : Char) : Option Char :=
  match c with
  | 'b' => some '\x08'
  | 't' => some '\t'
  | 'n' => some '\n'
  | 'f' => some '\x0c'
  | 'r' => some '\r'
  | '"' => some '"'
  | '\\' => some '\\'
  | _ => none

/-- Where a reader of quoted text stands. -/
inductive QuoteState where
  /-- Between two characters of the content. -/
  | plain
  /-- After a backslash. -/
  | escape
  /-- Inside a number with this many digits to come. -/
  | number (digits value : Nat)
  /-- In the blanks between a backslash and the end of its line. -/
  | lineEnd
  /-- In the blanks and line ends after a line that ended with a backslash. -/
  | fold
  /-- After a carriage return, with the state to go on in and whether the line end is content. -/
  | carriage (folding : Bool)

/-- Text between double quotes, after the opening one. -/
def basicText : QuoteState → List Char → Read (List Char)
  | _, [] => none
  | .escape, c :: cs =>
    if c = 'u' then basicText (.number 4 0) cs
    else if c = 'U' then basicText (.number 8 0) cs
    else (shortEscape? c).bind fun e => push e (basicText .plain cs)
  | .number (digits + 1) value, c :: cs =>
    if Text.isHexDigit c then
      let value := 16 * value + Text.hexDigitValue c
      if digits = 0 then (scalar? value).bind fun e => push e (basicText .plain cs)
      else basicText (.number digits value) cs
    else none
  | _, c :: cs =>
    if c = '"' then some ([], cs)
    else if c = '\\' then basicText .escape cs
    else if isPlain c then push c (basicText .plain cs)
    else none

/-- The end of a block in threefold quotes: up to two more of them belong to the content. -/
def blockEnd? (quote : Char) : List Char → Read (List Char)
  | a :: b :: c :: d :: e :: cs =>
    if a = quote && b = quote && c = quote then
      if d = quote then
        if e = quote then some ([quote, quote], cs) else some ([quote], e :: cs)
      else some ([], d :: e :: cs)
    else none
  | [a, b, c, d] =>
    if a = quote && b = quote && c = quote then
      if d = quote then some ([quote], []) else some ([], [d])
    else none
  | [a, b, c] => if a = quote && b = quote && c = quote then some ([], []) else none
  | _ => none

/-- Text between threefold double quotes, after the opening ones. -/
def basicBlock : QuoteState → List Char → Read (List Char)
  | _, [] => none
  | .escape, c :: cs =>
    if c = 'u' then basicBlock (.number 4 0) cs
    else if c = 'U' then basicBlock (.number 8 0) cs
    else if isSpace c then basicBlock .lineEnd cs
    else if c = '\n' then basicBlock .fold cs
    else if c = '\r' then basicBlock (.carriage true) cs
    else (shortEscape? c).bind fun e => push e (basicBlock .plain cs)
  | .number (digits + 1) value, c :: cs =>
    if Text.isHexDigit c then
      let value := 16 * value + Text.hexDigitValue c
      if digits = 0 then (scalar? value).bind fun e => push e (basicBlock .plain cs)
      else basicBlock (.number digits value) cs
    else none
  | .lineEnd, c :: cs =>
    if isSpace c then basicBlock .lineEnd cs
    else if c = '\n' then basicBlock .fold cs
    else if c = '\r' then basicBlock (.carriage true) cs
    else none
  | .carriage folding, c :: cs =>
    if c = '\n' then
      if folding then basicBlock .fold cs else push '\n' (basicBlock .plain cs)
    else none
  | state, c :: cs =>
    let folding := state matches .fold
    if folding && (isSpace c || c == '\n') then basicBlock .fold cs
    else if c = '\r' then basicBlock (.carriage folding) cs
    else if c = '"' then
      match blockEnd? '"' (c :: cs) with
      | some found => some found
      | none => push c (basicBlock .plain cs)
    else if c = '\\' then basicBlock .escape cs
    else if c = '\n' || isPlain c then push c (basicBlock .plain cs)
    else none

/-- Text between single quotes, after the opening one. -/
def literalText : List Char → Read (List Char)
  | [] => none
  | c :: cs =>
    if c = '\'' then some ([], cs)
    else if isPlain c then push c (literalText cs)
    else none

/-- Text between threefold single quotes, after the opening ones. -/
def literalBlock : List Char → Read (List Char)
  | [] => none
  | '\r' :: '\n' :: cs => push '\n' (literalBlock cs)
  | c :: cs =>
    if c = '\'' then
      match blockEnd? '\'' (c :: cs) with
      | some found => some found
      | none => push c (literalBlock cs)
    else if c = '\n' || isPlain c then push c (literalBlock cs)
    else none

/-- The text without a line end in front. -/
def dropLineEnd : List Char → List Char
  | '\n' :: cs => cs
  | '\r' :: '\n' :: cs => cs
  | cs => cs

/-- Text in double quotes on one line, at the front. -/
def lineQuote : List Char → Read (List Char)
  | '"' :: cs => basicText .plain cs
  | '\'' :: cs => literalText cs
  | _ => none

/-- Text in any quotes, at the front. -/
def anyQuote : List Char → Read (List Char)
  | '"' :: '"' :: '"' :: cs => basicBlock .plain (dropLineEnd cs)
  | '\'' :: '\'' :: '\'' :: cs => literalBlock (dropLineEnd cs)
  | cs => lineQuote cs

end ReleaseFlow.Toml
