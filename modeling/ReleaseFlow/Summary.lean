/-!
# Blocks of the job summary

The blocks of markdown that a job appends to its summary.

* `tagSummary`: after a tag was created;
* `notesSummary`: after a draft release was created;
* `resultText`, `regressionSummary`: after a regression run.
-/

namespace ReleaseFlow

/-- The block after a release tag was created. -/
def tagSummary (previous next tag sha url : String) (label : Option String) : String :=
  "\n### Successful Tag Creation!\n" ++
    "- After merge to the release branch, a tag was created.\n" ++
    "- Previous version was " ++ previous ++ "\n" ++
    "- New version is " ++ next ++ "\n" ++
    "- Version selected by label `" ++ label.getD "none" ++ "` on " ++ url ++ "\n" ++
    "- Tag " ++ tag ++ " created for version " ++ next ++
    " using the new release branch SHA: " ++ sha ++ "\n"

/-- The block after a draft release was created. -/
def notesSummary (url current : String) (previous : Option String) : String :=
  "\n### Release Notes Created!\n" ++
    "[Link to the draft release notes](" ++ url ++ ")\n" ++
    "Draft notes created based on the update to " ++ current ++ "\n" ++
    "and comparing the tag from the previous version: " ++ previous.getD "none" ++ "\n"

/-- The word for the conclusion of a run: only `success` has passed. -/
def resultText (conclusion : Option String) : String :=
  if conclusion = some "success" then "passed" else "failed"

/-- The block after a regression run. -/
def regressionSummary (conclusion : Option String) (url : String) : String :=
  "### Workflow Result\nResult: " ++ resultText conclusion ++ "\n[Link to Workflow Run](" ++
    url ++ ")\n"

end ReleaseFlow
