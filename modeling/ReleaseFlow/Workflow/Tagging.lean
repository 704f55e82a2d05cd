import ReleaseFlow.Forge.Service
import ReleaseFlow.Summary
import ReleaseFlow.Version.Grammar
import ReleaseFlow.Workflow.Context

/-!
# Tagging a release

After a pull request is merged, its labels and the stored version give the next version; the head
of the release branch is tagged with it and the version is stored.

* `MergeData`, `mergeData`: what is known about a merge, and the version that it makes;
* `TagResult`, `createTag`: the tag and the stored version.
-/

namespace ReleaseFlow

/-- What is known about a merge, and the version that it makes. -/
structure MergeData where
  /-- The head of the release branch. -/
  head : String
  current : Version
  next : Version
  bump : Bump
  label : Option String
  number : UInt64
  url : String
  deriving DecidableEq, Repr

/-- What tagging has done. -/
structure TagResult where
  previous : Version
  next : Version
  tag : String
  head : String
  /-- False when nothing was changed. -/
  created : Bool
  deriving DecidableEq, Repr

namespace Workflow

/-- The pull request of a merge, the first of those that the commit belongs to, and the version
that its labels make. -/
def mergeData (ctx : Context) (sha : String) : Flow Forge.service MergeData := do
  let release := ctx.config.release
  let pulls : List PullRequest ← Forge.query ctx.repository (.pullRequests sha)
  let stored : String ← Forge.query ctx.repository (.getVariable release.versionVariable)
  let head : String ← Forge.query ctx.repository (.commitSha (branchRef release.branch))
  Flow.log .info ("The " ++ release.branch ++ " branch head SHA is: " ++ head)
  match pulls with
  | [] => Flow.failed (.pullRequest ("No pull request is associated with commit " ++ sha))
  | pull :: others =>
    if !others.isEmpty then
      ctx.warning (.multiplePullRequests (others.length + 1) pull.number)
    if pull.labels.isEmpty then
      ctx.warning (.noLabels pull.number)
    let current ← Flow.ofExcept (Version.parse stored)
    let decision ← Flow.ofExcept (ctx.config.labels.decide current pull.labels)
    Flow.log .info ("PR #" ++ Text.decimal pull.number.toNat ++ ": " ++ decision.text)
    return {
      head, current
      next := decision.next
      bump := decision.bump
      label := decision.label
      number := pull.number
      url := pull.url }

/-- Creates the tag and stores the version. -/
def publishTag (ctx : Context) (data : MergeData) (tag : String) : Flow Forge.service Unit := do
  ctx.status ("Creating tag: " ++ tag)
  let object : String ← Forge.query ctx.repository
    (.createTagObject tag (tagMessage data.next) data.head)
  let _ ← Forge.query ctx.repository (.createRef (tagRef tag) object)
  ctx.success ("Tag " ++ tag ++ " created and pushed successfully.")
  let _ ← Forge.query ctx.repository
    (.updateVariable ctx.config.release.versionVariable data.next.text)

/-- Tells what would be created and stored. -/
def previewTag (ctx : Context) (data : MergeData) (tag : String) : Flow Forge.service Unit := do
  ctx.status "Dry run:"
  ctx.success ("  would create tag " ++ tag ++ " at " ++ data.head)
  ctx.success ("  would set " ++ ctx.config.release.versionVariable ++ " to " ++ data.next.text)

/-- Tags the head of the release branch, stores the new version, and tells the runner. -/
def createTag (ctx : Context) (sha : String) : Flow Forge.service TagResult := do
  let pattern ← Flow.ofExcept ctx.tagPattern
  let data ← mergeData ctx sha
  let tag := pattern.format data.next
  if ctx.dryRun then previewTag ctx data tag else publishTag ctx data tag
  ctx.runner.setOutput "previousVersion" data.current.text
  ctx.runner.setOutput "newVersion" data.next.text
  ctx.runner.setOutput "tag" tag
  if !ctx.dryRun then
    ctx.runner.appendSummary
      (tagSummary data.current.text data.next.text tag data.head data.url data.label)
  return {
    previous := data.current
    next := data.next
    tag
    head := data.head
    created := !ctx.dryRun }

end Workflow

end ReleaseFlow
