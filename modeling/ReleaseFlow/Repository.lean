import ReleaseFlow.Failure
import ReleaseFlow.Text.Blank

/-!
# Repositories

A repository is named by its owner and its own name.

* `Repository.text`, `Repository.parse`: the form `owner/repo`, written and read;
* `Repository.runUrl`: the web page of a workflow run;
* `branchRef`: the ref by which the head of a branch is looked up.
-/

namespace ReleaseFlow

/-- The owner and the name of a repository. -/
structure Repository where
  owner : String
  name : String
  deriving DecidableEq, Repr

namespace Repository

def text (r : Repository) : String :=
  r.owner ++ "/" ++ r.name

/-- Reads the form `owner/repo`: two non-empty pieces around one slash, blanks around it
allowed. -/
def parse (fullName : String) : Except Failure Repository :=
  let invalid := Failure.environment ("Invalid repository '" ++ fullName ++
    "' - expected owner/repo")
  match List.splitOn '/' (Text.trimChars fullName.toList) with
  | [owner, name] =>
    if owner = [] || name = [] then .error invalid
    else .ok ⟨String.ofList owner, String.ofList name⟩
  | _ => .error invalid

def runUrl (r : Repository) (id : UInt64) : String :=
  "https://github.com/" ++ r.owner ++ "/" ++ r.name ++ "/actions/runs/" ++
    Text.decimal id.toNat

end Repository

/-- The ref by which the head of a branch is looked up. -/
def branchRef (branch : String) : String :=
  "heads/" ++ branch

end ReleaseFlow
