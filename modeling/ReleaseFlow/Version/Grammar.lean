import ReleaseFlow.Text.Blank
import ReleaseFlow.Text.Quoted
import ReleaseFlow.Version

/-!
# Reading versions

The grammar of semantic versions: three numbers without leading zeros, then optionally a
pre-release after `-` and build metadata after `+`, each made of segments between dots. A release
version is a semantic version of numbers alone, with an optional letter `v` in front.

* `Semantic.parse`: the whole grammar, from the left; the first fault met is the one reported;
* `Fault.message`: the texts of the faults;
* `Version.parse`: release versions.
-/

namespace ReleaseFlow

namespace Semantic

/-- The parts of a semantic version. -/
inductive Part where
  | major
  | minor
  | patch
  | preRelease
  | build
  deriving DecidableEq, Repr

def Part.text : Part → String
  | major => "major version number"
  | minor => "minor version number"
  | patch => "patch version number"
  | preRelease => "pre-release identifier"
  | build => "build metadata"

/-- Why a text is no semantic version. -/
inductive Fault where
  | empty
  | unexpectedEnd (part : Part)
  | unexpectedChar (part : Part) (c : Char)
  | unexpectedCharAfter (part : Part) (c : Char)
  | leadingZero (part : Part)
  | tooLarge (part : Part)
  | emptySegment (part : Part)
  deriving DecidableEq, Repr

def Fault.message : Fault → String
  | empty => "empty string, expected a semver version"
  | unexpectedEnd p => "unexpected end of input while parsing " ++ p.text
  | unexpectedChar p c => "unexpected character " ++ Text.quoted c ++ " while parsing " ++ p.text
  | unexpectedCharAfter p c => "unexpected character " ++ Text.quoted c ++ " after " ++ p.text
  | leadingZero p => "invalid leading zero in " ++ p.text
  | tooLarge p => "value of " ++ p.text ++ " exceeds u64::MAX"
  | emptySegment p => "empty identifier segment in " ++ p.text

/-- A number at the front of the text, and what follows it. -/
def number (part : Part) (cs : List Char) : Except Fault (UInt64 × List Char) :=
  let rest := cs.dropWhile Text.isAsciiDigit
  match cs.takeWhile Text.isAsciiDigit with
  | [] =>
    match rest with
    | [] => .error (.unexpectedEnd part)
    | c :: _ => .error (.unexpectedChar part c)
  | '0' :: _ :: _ => .error (.leadingZero part)
  | digits =>
    if Text.digitsValue digits < UInt64.size then
      .ok (UInt64.ofNat (Text.digitsValue digits), rest)
    else .error (.tooLarge part)

def dot (part : Part) : List Char → Except Fault (List Char)
  | [] => .error (.unexpectedEnd part)
  | '.' :: cs => .ok cs
  | c :: _ => .error (.unexpectedCharAfter part c)

def isSegmentChar (c : Char) : Bool :=
  Text.isAsciiDigit c || ('a' ≤ c && c ≤ 'z') || ('A' ≤ c && c ≤ 'Z') || c == '-'

/-- The fault of a segment, if it has one: it is empty, or a number of a pre-release with leading
zeros. -/
def segmentFault? (part : Part) : List Char → Option Fault
  | [] => some (.emptySegment part)
  | '0' :: c :: cs =>
    if part = .preRelease && (c :: cs).all Text.isAsciiDigit then some (.leadingZero part)
    else none
  | _ => none

/-- The segments at the front of the text, with the dots between them, and what follows. -/
def segments (part : Part) (cs : List Char) : Except Fault (List Char × List Char) :=
  let inside (c : Char) := isSegmentChar c || c == '.'
  let body := cs.takeWhile inside
  match (List.splitOn '.' body).findSome? (segmentFault? part) with
  | some f => .error f
  | none => .ok (body, cs.dropWhile inside)

/-- The segments after a mark, when the mark is there. -/
def marked (mark : Char) (part : Part) : List Char → Except Fault (Option (List Char) × List Char)
  | [] => .ok (none, [])
  | c :: cs =>
    if c = mark then (segments part cs).map fun (body, rest) => (some body, rest)
    else .ok (none, c :: cs)

/-- What a text of the grammar says. -/
structure Parsed where
  core : Version
  preRelease : Option (List Char)
  build : Option (List Char)

/-- The part read last, after which nothing may follow. -/
def Parsed.lastPart (p : Parsed) : Part :=
  if p.build.isSome then .build else if p.preRelease.isSome then .preRelease else .patch

/-- Reads a semantic version. -/
def parse (cs : List Char) : Except Fault Parsed := do
  if cs = [] then
    throw .empty
  let (major, cs) ← number .major cs
  let cs ← dot .major cs
  let (minor, cs) ← number .minor cs
  let cs ← dot .minor cs
  let (patch, cs) ← number .patch cs
  let (preRelease, cs) ← marked '-' .preRelease cs
  let (build, cs) ← marked '+' .build cs
  let parsed : Parsed := ⟨⟨major, minor, patch⟩, preRelease, build⟩
  match cs with
  | [] => return parsed
  | c :: _ => throw (.unexpectedCharAfter parsed.lastPart c)

end Semantic

namespace Version

/-- The text without one letter `v` in front, of either case. -/
def dropLetter : List Char → List Char
  | c :: cs => if c = 'v' || c = 'V' then cs else c :: cs
  | [] => []

/-- Reads a release version, blanks around it allowed. -/
def parse (value : String) : Except Failure Version :=
  match Semantic.parse (dropLetter (Text.trimChars value.toList)) with
  | .error f => .error (.version ("Invalid version format: '" ++ value ++
      "' - expected X.Y.Z (" ++ f.message ++ ")"))
  | .ok p =>
    if p.preRelease.isSome || p.build.isSome then
      .error (.version ("Invalid version format: '" ++ value ++
        "' - pre-release and build metadata are not supported"))
    else .ok p.core

end Version

end ReleaseFlow
