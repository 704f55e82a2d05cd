import ReleaseFlow.Text.Digits
import ReleaseFlow.Text.Template
import ReleaseFlow.Version

/-!
# Tag patterns

A tag pattern is a text with at least one place for the version. It names the tag of a version,
and it recognises the tags that it could have named, the digits of any script allowed.

* `TagPattern.ofText`: refuses a text without a place;
* `TagPattern.format`: the tag of a version;
* `TagPattern.accepts`: whether a tag has the pattern's form;
* `tagMessage`, `tagRef`: the message of the tag object and its ref.
-/

namespace ReleaseFlow

/-- A text with a place for the version. -/
structure TagPattern where
  text : String
  placed : 0 < (Template.ofChars "\x7bversion\x7d".toList text.toList).places
  deriving DecidableEq

namespace TagPattern

def mark : List Char := "\x7bversion\x7d".toList

/-- The literal pieces around the places. -/
def template (p : TagPattern) : Template :=
  Template.ofChars mark p.text.toList

/-- The pattern of a text that has a place. -/
def ofText (text : String) : Except Failure TagPattern :=
  if h : 0 < (Template.ofChars "\x7bversion\x7d".toList text.toList).places then
    .ok ⟨text, h⟩
  else
    .error (.tag ("Pattern '" ++ text ++ "' must contain \x7bversion\x7d placeholder"))

def format (p : TagPattern) (v : Version) : String :=
  String.ofList (p.template.fill v.text.toList)

/-- What one step of a tag's form asks for. -/
inductive Step where
  /-- This character. -/
  | char (c : Char)
  /-- One or more digits. -/
  | digits
  /-- Any number of digits. -/
  | moreDigits
  deriving DecidableEq, Repr

/-- The form of a version: three runs of digits with dots between them. -/
def versionForm : List Step :=
  [.digits, .char '.', .digits, .char '.', .digits]

/-- The form of the tags: the literal pieces with the form of a version between them. -/
def form (t : Template) : List Step :=
  t.head.map .char ++ t.tail.flatMap fun piece => versionForm ++ piece.map .char

def hasForm : List Step → List Char → Bool
  | [], [] => true
  | [], _ :: _ => false
  | .char _ :: _, [] => false
  | .char a :: steps, c :: cs => a == c && hasForm steps cs
  | .digits :: _, [] => false
  | .digits :: steps, c :: cs => Text.isDecimalDigit c && hasForm (.moreDigits :: steps) cs
  | .moreDigits :: steps, [] => hasForm steps []
  | .moreDigits :: steps, c :: cs =>
    hasForm steps (c :: cs) ||
      (Text.isDecimalDigit c && hasForm (.moreDigits :: steps) cs)
termination_by steps cs => steps.length + cs.length

/-- The tag has the form of the pattern's tags. -/
def accepts (p : TagPattern) (tag : String) : Bool :=
  hasForm (form p.template) tag.toList

end TagPattern

def tagMessage (v : Version) : String :=
  "Release for version " ++ v.text

/-- The full ref of a tag. -/
def tagRef (tag : String) : String :=
  "refs/tags/" ++ tag

end ReleaseFlow
