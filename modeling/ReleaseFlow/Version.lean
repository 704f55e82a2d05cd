import ReleaseFlow.Failure

/-!
# Versions

A version is three 64-bit numbers, ordered from the first to the last. A bump gives the next
release of a kind, or nothing when the number that it raises is the greatest there is.

* `Version`, `Version.text`: the numbers and their text `X.Y.Z`;
* `Bump`: the three kinds of release;
* `Version.next?`: the next release of a kind;
* `Version.bump`: the same with the reason why there is none.
-/

namespace ReleaseFlow

/-- Three numbers, the most significant first. -/
structure Version where
  major : UInt64
  minor : UInt64
  patch : UInt64
  deriving DecidableEq, Repr

/-- The kinds of release. -/
inductive Bump where
  | major
  | minor
  | patch
  deriving DecidableEq, Repr

def Bump.text : Bump → String
  | major => "major"
  | minor => "minor"
  | patch => "patch"

namespace Version

def text (v : Version) : String :=
  Text.decimal v.major.toNat ++ "." ++ Text.decimal v.minor.toNat ++ "." ++
    Text.decimal v.patch.toNat

/-- The order of versions: the first number that differs decides. -/
def compare (v w : Version) : Ordering :=
  ((Ord.compare v.major w.major).then (Ord.compare v.minor w.minor)).then
    (Ord.compare v.patch w.patch)

instance : Ord Version := ⟨compare⟩

instance : LT Version := ⟨fun v w => compare v w = .lt⟩

instance (v w : Version) : Decidable (v < w) :=
  inferInstanceAs (Decidable (compare v w = .lt))

/-- The number after `n`, if 64 bits hold it. -/
def succ? (n : UInt64) : Option UInt64 :=
  if n.toNat + 1 < UInt64.size then some (n + 1) else none

/-- The next release of a kind: its number is raised and the later ones start again at zero. -/
def next? (v : Version) : Bump → Option Version
  | .major => (succ? v.major).map fun n => ⟨n, 0, 0⟩
  | .minor => (succ? v.minor).map fun n => ⟨v.major, n, 0⟩
  | .patch => (succ? v.patch).map fun n => ⟨v.major, v.minor, n⟩

/-- The next release of a kind, or the reason why there is none. -/
def bump (v : Version) (b : Bump) : Except Failure Version :=
  match v.next? b with
  | some w => .ok w
  | none => .error (.version ("Cannot apply a " ++ b.text ++ " bump to " ++ v.text ++
      ": component out of range"))

end Version

end ReleaseFlow
