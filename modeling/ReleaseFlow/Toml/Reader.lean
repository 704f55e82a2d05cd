import ReleaseFlow.Toml.Literal
import ReleaseFlow.Toml.Quote

/-!
# Reading TOML documents

A document is a list of statements: values assigned to keys, and headers that name the table for
the assignments after them.

* `Toml.value`: a value at the front of a text;
* `Toml.Statement`, `Toml.statements`: the statements of a document;
* `Toml.ofStatements`: the table that the statements describe;
* `Toml.read`: the table that a document describes.
-/

namespace ReleaseFlow.Toml

/-- Arrays and inline tables lie less than this many levels inside one another, and a dotted key
has fewer names. -/
def depthLimit : Nat := 80

def skipSpace (cs : List Char) : List Char :=
  cs.dropWhile isSpace

/-- The text without the blanks, line ends and comments in front. The flag says that the front lies
inside a comment. -/
def skipLines : Bool → List Char → List Char
  | _, [] => []
  | inComment, '\r' :: '\n' :: cs => let _ := inComment; skipLines false cs
  | inComment, c :: cs =>
    if c = '\n' then skipLines false cs
    else if inComment then
      if isPlain c then skipLines true cs else c :: cs
    else if c = '#' then skipLines true cs
    else if isSpace c then skipLines false cs
    else c :: cs

/-- What follows the line, when nothing but blanks and a comment is left of it. -/
def afterLine? (cs : List Char) : Option (List Char) :=
  let cs :=
    match skipSpace cs with
    | '#' :: cs => cs.dropWhile isPlain
    | cs => cs
  match cs with
  | [] => some []
  | '\n' :: cs => some cs
  | '\r' :: '\n' :: cs => some cs
  | _ => none

/-! ## Keys -/

def isBareKeyChar (c : Char) : Bool :=
  Text.isAsciiDigit c || ('a' ≤ c && c ≤ 'z') || ('A' ≤ c && c ≤ 'Z') || c == '_' || c == '-'

/-- One name of a key. -/
def simpleKey (cs : List Char) : Read String :=
  match lineQuote cs with
  | some (name, rest) => some (String.ofList name, rest)
  | none =>
    match cs.takeWhile isBareKeyChar with
    | [] => none
    | name => some (String.ofList name, cs.dropWhile isBareKeyChar)

/-- The names of a dotted key, at most the given number. -/
def dottedKey : Nat → List Char → Read (List String)
  | 0, _ => none
  | limit + 1, cs =>
    (simpleKey (skipSpace cs)).bind fun (name, cs) =>
      match skipSpace cs with
      | '.' :: cs => (dottedKey limit cs).map fun (names, rest) => (name :: names, rest)
      | cs => some ([name], cs)

def key (cs : List Char) : Read (List String) :=
  dottedKey (depthLimit - 1) cs

/-! ## Values -/

def isWordChar (c : Char) : Bool :=
  isBareKeyChar c || c == '+' || c == '.' || c == ':'

/-- A value without brackets. A date may be followed by a space and a time of day. -/
def plainValue (cs : List Char) : Read Toml :=
  match anyQuote cs with
  | some (text, rest) => some (.string (String.ofList text), rest)
  | none =>
    if cs.head? matches some '"' | some '\'' then none
    else
      let word := cs.takeWhile isWordChar
      let rest := cs.dropWhile isWordChar
      match isDate word, rest with
      | true, ' ' :: c :: rest =>
        if Text.isAsciiDigit c then
          let time := (c :: rest).takeWhile isWordChar
          if isZonedTime time then
            some (.moment (String.ofList (word ++ ' ' :: time)), (c :: rest).dropWhile isWordChar)
          else none
        else some (.moment (String.ofList word), ' ' :: c :: rest)
      | _, _ => (ofWord word).map fun v => (v, rest)

/-- The elements of an array after its bracket or a comma, at most the given number. -/
def elements (element : List Char → Read Toml) : Nat → List Char → Read (List Toml)
  | 0, _ => none
  | limit + 1, cs =>
    match skipLines false cs with
    | ']' :: rest => some ([], rest)
    | cs =>
      (element cs).bind fun (v, cs) =>
        match skipLines false cs with
        | ']' :: rest => some ([v], rest)
        | ',' :: cs => (elements element limit cs).map fun (vs, rest) => (v :: vs, rest)
        | _ => none

/-- A key, an equals sign and a value. -/
def assignment (element : List Char → Read Toml) (cs : List Char) : Read (List String × Toml) :=
  (key cs).bind fun (names, cs) =>
    match cs with
    | '=' :: cs => (element (skipSpace cs)).map fun (v, rest) => ((names, v), rest)
    | _ => none

/-- The assignments of an inline table after its brace or a comma, at most the given number. -/
def assignments (element : List Char → Read Toml) :
    Nat → List Char → Read (List (List String × Toml))
  | 0, _ => none
  | limit + 1, cs =>
    (assignment element cs).bind fun (a, cs) =>
      match skipSpace cs with
      | '\x7d' :: rest => some ([a], rest)
      | ',' :: cs => (assignments element limit cs).map fun (as, rest) => (a :: as, rest)
      | _ => none

/-- The entries that assignments make, one after the other. -/
def collect (as : List (List String × Toml)) : Option Entries :=
  as.foldlM (fun entries a => assign a.1 a.2 entries) []

/-- A value at the front, brackets at most the given number of levels deep. -/
def value : Nat → List Char → Read Toml
  | 0, cs => plainValue cs
  | depth + 1, '[' :: cs =>
    (elements (value depth) (cs.length + 1) cs).map fun (vs, rest) => (.array vs, rest)
  | depth + 1, '\x7b' :: cs =>
    match skipSpace cs with
    | '\x7d' :: rest => some (.table .inline [], rest)
    | cs =>
      (assignments (value depth) (cs.length + 1) cs).bind fun (as, rest) =>
        (collect as).map fun entries => (.table .inline entries, rest)
  | _ + 1, cs => plainValue cs

/-! ## Documents -/

/-- A statement of a document. -/
inductive Statement where
  | assign (key : List String) (value : Toml)
  | table (key : List String)
  | element (key : List String)

/-- A header between the given number of brackets, after the opening ones. -/
def header (brackets : Nat) (cs : List Char) : Read (List String) :=
  (key cs).bind fun (names, cs) =>
    if cs.take brackets = List.replicate brackets ']' then
      (afterLine? (cs.drop brackets)).map fun rest => (names, rest)
    else none

/-- The statement at the front, with the line end after it. -/
def statement : List Char → Read Statement
  | '[' :: '[' :: cs => (header 2 cs).map fun (names, rest) => (.element names, rest)
  | '[' :: cs => (header 1 cs).map fun (names, rest) => (.table names, rest)
  | cs =>
    (assignment (value (depthLimit - 1)) cs).bind fun ((names, v), cs) =>
      (afterLine? cs).map fun rest => (.assign names v, rest)

/-- The statements of a text, at most the given number of lines. -/
def lines : Nat → List Char → Option (List Statement)
  | 0, _ => none
  | limit + 1, cs =>
    match skipSpace cs with
    | [] => some []
    | c :: cs =>
      if c = '#' || c = '\n' || c = '\r' then
        (afterLine? (c :: cs)).bind (lines limit)
      else
        (statement (c :: cs)).bind fun (s, rest) => (lines limit rest).map (s :: ·)

/-- The statements of a document, which may begin with a byte order mark. -/
def statements (cs : List Char) : Option (List Statement) :=
  let cs :=
    match cs with
    | '\uFEFF' :: cs => cs
    | cs => cs
  lines (cs.length + 1) cs

/-- A document while it is read: its entries and the path of the table that is open. -/
structure Draft where
  entries : Entries := []
  path : List String := []

/-- The document with one more statement. -/
def Draft.add (d : Draft) : Statement → Option Draft
  | .assign key v => (changeAt (Toml.assign key v) d.path d.entries).map ({ d with entries := · })
  | .table key => (key.getLast?).bind fun last =>
    (changeAt (openTable last) key.dropLast d.entries).map (⟨·, key⟩)
  | .element key => (key.getLast?).bind fun last =>
    (changeAt (openElement last) key.dropLast d.entries).map (⟨·, key⟩)

/-- The table that the statements describe. -/
def ofStatements (ss : List Statement) : Option Toml :=
  (ss.foldlM Draft.add {}).map fun d => .table .header d.entries

/-- The table that a document describes. -/
def read (text : String) : Option Toml :=
  (statements text.toList).bind ofStatements

end ReleaseFlow.Toml
