import ReleaseFlow.Version

/-!
# Labels that choose the release

The labels of a pull request choose the kind of the next release: a label of the major class wins
over one of the patch class, and all else makes a minor release.

* `LabelClasses`: the two classes;
* `LabelClasses.classify`: the kind that the labels choose, and the label that chose it;
* `LabelClasses.decide`: the decision for a current version;
* `Decision.text`: the decision in one line.
-/

namespace ReleaseFlow

/-- The major class where none is named. -/
def LabelClasses.defaultMajor : List String := ["breaking-change", "breaking", "major"]

/-- The patch class where none is named. -/
def LabelClasses.defaultPatch : List String := ["hotfix", "security", "bug", "internal"]

/-- The labels that make a major release and those that make a patch release. -/
structure LabelClasses where
  major : List String := LabelClasses.defaultMajor
  patch : List String := LabelClasses.defaultPatch
  deriving DecidableEq, Repr

/-- A kind of release chosen for a version. -/
structure Decision where
  bump : Bump
  /-- The label that chose the kind, absent when there are no labels. -/
  label : Option String
  previous : Version
  next : Version
  deriving DecidableEq, Repr

namespace LabelClasses

/-- The kind that the labels choose and the first label of the class that won. -/
def classify (classes : LabelClasses) (labels : List String) : Bump × Option String :=
  match labels.find? (classes.major.contains ·) with
  | some label => (.major, some label)
  | none =>
    match labels.find? (classes.patch.contains ·) with
    | some label => (.patch, some label)
    | none => (.minor, labels.head?)

/-- The decision for the current version, unless it has no next release of the chosen kind. -/
def decide (classes : LabelClasses) (current : Version) (labels : List String) :
    Except Failure Decision :=
  let (bump, label) := classes.classify labels
  (current.bump bump).map fun next => ⟨bump, label, current, next⟩

end LabelClasses

namespace Decision

def labelText (d : Decision) : String :=
  d.label.getD "no label"

/-- The decision in one line. -/
def text (d : Decision) : String :=
  d.previous.text ++ " -> " ++ d.next.text ++ " (" ++ d.bump.text ++ " bump, label: " ++
    d.labelText ++ ")"

end Decision

end ReleaseFlow
