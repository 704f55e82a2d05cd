import ReleaseFlow.Text.Decimal

/-!
# Addresses on the web

Addresses with the schemes `http` and `https`, read and written by the rules of the URL Standard.
How hosts are read is left open: names in other scripts, percent signs and numbers have rules of
their own.

* `Url`: the parts of an address;
* `Url.HostReader`, `Url.host?`: how hosts are read, and the reader of plain ones;
* `Url.parse`: the parts of a text, percent-encoded where they must be;
* `Url.text`, `Url.target`: the whole address, and the part that a request names;
* `Url.addParameter`: one more parameter of a form in the query.
-/

namespace ReleaseFlow

/-- The parts of an address. The path is kept as its segments, after each of which comes the next
slash. -/
structure Url where
  secure : Bool
  /-- What stands before the host and its `@`. -/
  user : Option (List Char) := none
  host : List Char
  port : Option Nat := none
  path : List (List Char)
  query : Option (List Char) := none
  fragment : Option (List Char) := none
  deriving DecidableEq, Repr

namespace Url

/-! ## Percent-encoding -/

/-- A digit of base sixteen, in capitals. -/
def hexDigit (n : Nat) : Char :=
  if n < 10 then Char.ofNat (48 + n) else Char.ofNat (55 + n)

/-- A byte by its number. -/
def encodeByte (b : UInt8) : List Char :=
  ['%', hexDigit (b.toNat / 16), hexDigit (b.toNat % 16)]

/-- The bytes of a character by their numbers. -/
def encodeChar (c : Char) : List Char :=
  (String.singleton c).toUTF8.toList.flatMap encodeByte

/-- The text with the characters of a set by their numbers. -/
def encode (inSet : Char → Bool) (cs : List Char) : List Char :=
  cs.flatMap fun c => if inSet c then encodeChar c else [c]

def isControl (c : Char) : Bool :=
  c.toNat < 0x20 || 0x7E < c.toNat

def fragmentSet (c : Char) : Bool :=
  isControl c || c == ' ' || c == '"' || c == '<' || c == '>' || c == '`'

def querySet (c : Char) : Bool :=
  isControl c || c == ' ' || c == '"' || c == '#' || c == '<' || c == '>' || c == '\''

def pathSet (c : Char) : Bool :=
  fragmentSet c || c == '#' || c == '?' || c == '\x7b' || c == '\x7d'

/-- The characters that are encoded before the host. -/
def userSet (c : Char) : Bool :=
  pathSet c || c == '/' || c == ':' || c == ';' || c == '=' || c == '@' || c == '[' ||
    c == '\\' || c == ']' || c == '^' || c == '|'

/-! ## Paths -/

/-- The segment stands for the directory itself. -/
def isSingleDot (segment : List Char) : Bool :=
  segment = ['.'] || segment.map Char.toLower = "%2e".toList

/-- The segment stands for the directory above. -/
def isDoubleDot (segment : List Char) : Bool :=
  let s := segment.map Char.toLower
  s = "..".toList || s = ".%2e".toList || s = "%2e.".toList || s = "%2e%2e".toList

/-- The segments after those already read. A dot segment at the end leaves an empty one. -/
def walk (done : List (List Char)) : List (List Char) → List (List Char)
  | [] => done
  | [last] =>
    if isDoubleDot last then done.dropLast ++ [[]]
    else if isSingleDot last then done ++ [[]]
    else done ++ [last]
  | segment :: next :: rest =>
    if isDoubleDot segment then walk done.dropLast (next :: rest)
    else if isSingleDot segment then walk done (next :: rest)
    else walk (done ++ [segment]) (next :: rest)

/-- The segments of a path without its first slash. -/
def segments (cs : List Char) : List (List Char) :=
  walk [] ((List.splitOn '/' cs).map (encode pathSet))

/-! ## Reading -/

/-- The part up to a character that satisfies `p`, and the rest from there. -/
def cut (p : Char → Bool) (cs : List Char) : List Char × List Char :=
  (cs.takeWhile fun c => !p c, cs.dropWhile fun c => !p c)

/-- The text without control characters and spaces at its ends, and without tabs and line ends. -/
def tidy (cs : List Char) : List Char :=
  let isEdge (c : Char) := c.toNat ≤ 0x20
  let cs := ((cs.dropWhile isEdge).reverse.dropWhile isEdge).reverse
  cs.filter fun c => !(c == '\t' || c == '\n' || c == '\r')

/-- The scheme in front, true for the secure one, and what follows its colon. -/
def scheme? (cs : List Char) : Option (Bool × List Char) :=
  let (name, rest) := cut (· == ':') cs
  match rest with
  | [] => none
  | _ :: rest =>
    if name.map Char.toLower = "http".toList then some (false, rest)
    else if name.map Char.toLower = "https".toList then some (true, rest)
    else none

/-- What stands before the last `@`, and the rest. -/
def splitUser (cs : List Char) : Option (List Char) × List Char :=
  let (host, user) := cut (· == '@') cs.reverse
  match user with
  | [] => (none, cs)
  | _ :: user => (some user.reverse, host.reverse)

/-- What stands before the host, encoded: a name, and a password after the first colon. -/
def encodeUser (cs : List Char) : Option (List Char) :=
  let (name, rest) := cut (· == ':') cs
  let password := encode userSet rest.tail
  if name = [] && password = [] then none
  else if password = [] then some (encode userSet name)
  else some (encode userSet name ++ ':' :: password)

def isHostChar (c : Char) : Bool :=
  0x20 < c.toNat && c.toNat < 0x7F && !("#%/:<>?@[\\]^|".toList.contains c)

/-- How hosts are read: the host that a text stands for, as it is written. -/
abbrev HostReader := List Char → Option (List Char)

/-- The host in lower case, if it is a plain one: an ASCII name, or an address between brackets. -/
def host? : HostReader := fun cs =>
  match cs with
  | [] => none
  | '[' :: inner =>
    if inner.getLast? = some ']' &&
        inner.dropLast.all (fun c => Text.isHexDigit c || c == ':' || c == '.') then
      some (cs.map Char.toLower)
    else none
  | cs => if cs.all isHostChar then some (cs.map Char.toLower) else none

/-- The port after the host, absent when it is the usual one of the scheme. -/
def port? (secure : Bool) (cs : List Char) : Option (Option Nat) :=
  if cs = [] then some none
  else if cs.all Text.isAsciiDigit then
    let n := Text.digitsValue cs
    if 65535 < n then none
    else if n = (if secure then 443 else 80) then some none
    else some (some n)
  else none

/-- Where the port begins: at the colon after the host, which may hold colons between brackets. -/
def splitPort (cs : List Char) : List Char × List Char :=
  match cs with
  | '[' :: _ =>
    let (inner, rest) := cut (· == ']') cs
    (inner ++ rest.take 1, rest.drop 1)
  | cs => cut (· == ':') cs

/-- The parts of an address, or `none` when the text is none. -/
def parse (hosts : HostReader) (text : String) : Option Url := do
  let (secure, cs) ← scheme? (tidy text.toList)
  let isSlash (c : Char) := c == '/' || c == '\\'
  let (authority, cs) := cut (fun c => isSlash c || c == '?' || c == '#') (cs.dropWhile isSlash)
  let (user, place) := splitUser authority
  let (host, port) := splitPort place
  guard (host ≠ [])
  let host ← hosts host
  guard (port.head?.all (· == ':'))
  let port ← port? secure port.tail
  let (path, cs) := cut (fun c => c == '?' || c == '#') cs
  let (query, cs) := cut (· == '#') cs
  let slashed := path.map fun c => if c == '\\' then '/' else c
  return {
    secure, host, port
    user := user.bind encodeUser
    path := segments slashed.tail
    query := if query = [] then none else some (encode querySet query.tail)
    fragment := if cs = [] then none else some (encode fragmentSet cs.tail) }

/-! ## Writing -/

/-- The path with its first slash. -/
def pathText (u : Url) : List Char :=
  '/' :: List.intercalate ['/'] u.path

def targetChars (u : Url) : List Char :=
  u.pathText ++ (u.query.map ('?' :: ·)).getD []

/-- The part that a request names: path and query. -/
def target (u : Url) : String :=
  String.ofList u.targetChars

def text (u : Url) : String :=
  String.ofList <|
    (if u.secure then "https://".toList else "http://".toList) ++
    (u.user.map (· ++ ['@'])).getD [] ++ u.host ++
    (u.port.map fun n => ':' :: (Text.decimal n).toList).getD [] ++
    u.targetChars ++ (u.fragment.map ('#' :: ·)).getD []

/-! ## Forms -/

/-- A character that forms leave as it is. -/
def isFormChar (c : Char) : Bool :=
  Text.isAsciiDigit c || ('a' ≤ c && c ≤ 'z') || ('A' ≤ c && c ≤ 'Z') || c == '*' || c == '-' ||
    c == '.' || c == '_'

/-- The text as forms write it: spaces as plus signs, other characters by number. -/
def formEncode (cs : List Char) : List Char :=
  cs.flatMap fun c =>
    if c = ' ' then ['+'] else if isFormChar c then [c] else encodeChar c

/-- The address with one more parameter in its query. -/
def addParameter (u : Url) (name value : String) : Url :=
  let parameter := formEncode name.toList ++ '=' :: formEncode value.toList
  let query :=
    match u.query with
    | none | some [] => parameter
    | some query => query ++ '&' :: parameter
  { u with query := some query }

end Url

end ReleaseFlow
