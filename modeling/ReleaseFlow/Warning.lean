import ReleaseFlow.Text.Decimal

/-!
# Warnings

Conditions that are reported but end nothing.

* `Warning`: the five kinds;
* `Warning.text`: the text of a warning.
-/

namespace ReleaseFlow

/-- A condition that is reported but ends nothing. -/
inductive Warning where
  /-- The pull request has no labels, so a minor release is made. -/
  | noLabels (number : UInt64)
  /-- The commit belongs to several pull requests. -/
  | multiplePullRequests (count : Nat) (used : UInt64)
  /-- No previous version was given for the release notes. -/
  | missingPreviousVersion (current : String)
  /-- The workflow run has no job of the expected name. -/
  | jobNotFound (job runUrl : String)
  /-- The logs of the job could not be fetched. -/
  | jobLogsUnavailable (job reason : String)
  deriving DecidableEq, Repr

def Warning.text : Warning → String
  | noLabels number =>
    "Pull request #" ++ Text.decimal number.toNat ++ " has no labels, applying a minor bump"
  | multiplePullRequests count used =>
    "Commit is associated with " ++ Text.decimal count ++ " pull requests, using #" ++
      Text.decimal used.toNat
  | missingPreviousVersion current =>
    "No previous version given, notes for '" ++ current ++ "' cover the full history"
  | jobNotFound job runUrl => "Job '" ++ job ++ "' not found in workflow run " ++ runUrl
  | jobLogsUnavailable job reason =>
    "Could not fetch logs for job '" ++ job ++ "': " ++ reason

end ReleaseFlow
