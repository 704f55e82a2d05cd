import ReleaseFlow.Forge.Service
import ReleaseFlow.Summary
import ReleaseFlow.Version.Grammar
import ReleaseFlow.Workflow.Context

/-!
# Release notes

The notes of a release compare its tag with the one before, and become the body of a draft release.

* `NotesResult`: the notes and where they are;
* `previousTag`: the tag that a previous version names;
* `createNotes`: the notes and the draft release.
-/

namespace ReleaseFlow

/-- The notes of a release and where they are. -/
structure NotesResult where
  tag : String
  previousTag : Option String
  title : String
  notes : String
  /-- The page of the release, absent when nothing was created. -/
  url : Option String
  deriving DecidableEq, Repr

/-- The tag that a text names: the text itself when it has the form of a tag, or else the tag of
the version that it gives. -/
def TagPattern.previousTag (p : TagPattern) (previous : String) : Except Failure String :=
  if p.accepts previous then .ok previous
  else (Version.parse previous).map p.format

namespace Workflow

/-- Creates the draft release and tells the runner. -/
def publishNotes (ctx : Context) (tag title notes : String) (previous : Option String) :
    Flow Forge.service String := do
  let release : NewRelease := ⟨tag, title, notes, ctx.config.release.draft, false⟩
  let url : String ← Forge.query ctx.repository (.createRelease release)
  ctx.success ("Release URL: " ++ url)
  ctx.runner.setOutput "releaseUrl" url
  ctx.runner.appendSummary (notesSummary url tag previous)
  return url

/-- Writes the notes since a previous version and publishes them as a draft release. -/
def createNotes (ctx : Context) (previous : Option String) (date : Date) :
    Flow Forge.service NotesResult := do
  let pattern ← Flow.ofExcept ctx.tagPattern
  let stored : String ← Forge.query ctx.repository (.getVariable ctx.config.release.versionVariable)
  let current ← Flow.ofExcept (Version.parse stored)
  let tag := pattern.format current
  let previousTag ← Flow.ofExcept (previous.mapM pattern.previousTag)
  if previousTag.isNone then
    ctx.warning (.missingPreviousVersion tag)
  let notes : String ← Forge.query ctx.repository
    (.generateNotes ⟨tag, previousTag, ctx.config.release.notesConfig⟩)
  Flow.log .info ("Release notes generated successfully for " ++ tag)
  let title := releaseTitle tag date
  let url ←
    if ctx.dryRun then do
      ctx.status ("Dry run: would create release '" ++ title ++ "'")
      pure none
    else do
      let url ← publishNotes ctx tag title notes previousTag
      pure (some url)
  Flow.log .info ("The previous release version was: " ++ previousTag.getD "none")
  return { tag, previousTag, title, notes, url }

end Workflow

end ReleaseFlow
