import ReleaseFlow.Text.Decimal

/-!
# Failures

What can end a command early. A failure carries what its message needs; the message is made in one
place.

* `Failure`: the twelve kinds;
* `Failure.message`: the text shown to the user;
* `Failure.chain`: the same followed by the cause that a wrapped failure repeats.
-/

namespace ReleaseFlow

/-- Why a command ended early. -/
inductive Failure where
  /-- The configuration is no valid document or holds a value of the wrong kind. -/
  | config (detail : String)
  /-- A text is no version, or a version has no successor. -/
  | version (detail : String)
  /-- A tag pattern without a placeholder. -/
  | tag (detail : String)
  /-- The hosting service answered with a status that is no success. -/
  | api (status : Nat) (text : String)
  /-- No usable answer was received. -/
  | http (detail : String)
  /-- The environment of the job lacks something. -/
  | environment (detail : String)
  /-- The commit belongs to no pull request. -/
  | pullRequest (detail : String)
  /-- The hosting service answered without the commit of a ref. -/
  | missingSha (ref : String)
  /-- A wait ended at its deadline. -/
  | timeout (what : String) (seconds : Nat)
  /-- The awaited workflow did not succeed. -/
  | workflowFailed (conclusion url : String)
  /-- A file could not be read or written. -/
  | io (detail : String)
  /-- A document is no JSON of the expected form. -/
  | json (detail : String)
  deriving DecidableEq, Repr

namespace Failure

def message : Failure → String
  | config d => "Configuration error: " ++ d
  | version d => "Version parsing error: " ++ d
  | tag d => "Tag error: " ++ d
  | api status text => "GitHub API error: " ++ Text.decimal status ++ " - " ++ text
  | http d => "HTTP request failed: " ++ d
  | environment d => "Environment error: " ++ d
  | pullRequest d => "Pull request error: " ++ d
  | missingSha ref => "No SHA found in the response for " ++ ref
  | timeout what seconds =>
    "Timed out after " ++ Text.decimal seconds ++ "s waiting for " ++ what
  | workflowFailed conclusion url =>
    "Workflow failed with conclusion: " ++ conclusion ++ ". See details: " ++ url
  | io d => "I/O error: " ++ d
  | json d => "Serialization error: " ++ d

/-- The cause that a failure wraps, shown after its own text. -/
def cause? : Failure → Option String
  | http d | io d | json d => some d
  | _ => none

/-- The text followed by the wrapped cause. -/
def chain (f : Failure) : String :=
  match f.cause? with
  | some d => f.message ++ ": " ++ d
  | none => f.message

/-- The hosting service answered that there is no such thing. -/
def isNotFound : Failure → Bool
  | api status _ => status == 404
  | _ => false

end Failure

end ReleaseFlow
