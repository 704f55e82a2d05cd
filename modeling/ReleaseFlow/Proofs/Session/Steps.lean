import ReleaseFlow.Forge.Memory
import ReleaseFlow.Workflow.Notes
import ReleaseFlow.Workflow.Regression
import ReleaseFlow.Workflow.Tagging

/-!
# Sessions

A session is a sequence of steps on one service in memory. It is set up, asked, and used by
workflows, in any order; each workflow runs in a world of its own.

* `Memory.Setup`, `Session.Task`: the ways to set the memory up, and the workflows;
* `Session.Step`, `Session.run`: one step and all steps;
* `Session.Step.Respects`: a step with given settings that leaves the release variable to tagging.
-/

namespace ReleaseFlow

/-- A way to set the memory up. -/
inductive Memory.Setup where
  | value (name text : String)
  | commit (ref sha : String)
  | pulls (sha : String) (pulls : List PullRequest)
  | notes (text : String)
  | listing (runs : List WorkflowRun)
  | state (run : WorkflowRun)
  | jobs (jobs : List Job)
  | logs (job : UInt64) (text : String)
  | failure (operation : Forge.Operation)
  deriving DecidableEq, Repr

/-- The memory after it was set up. -/
def Memory.Setup.apply (m : Memory) : Memory.Setup → Memory
  | .value name text => m.setVariable name text
  | .commit ref sha => m.setCommit ref sha
  | .pulls sha found => m.setPulls sha found
  | .notes text => { m with notes := text }
  | .listing runs => m.pushListing runs
  | .state current => m.pushState current
  | .jobs listed => { m with jobs := listed }
  | .logs job text => m.setLogs job text
  | .failure operation => m.failOn operation

namespace Session

/-- A workflow and what it is given. -/
inductive Task where
  | data (sha : String)
  | tag (sha : String)
  | notes (previous : Option String) (date : Date)
  | regression (environment : String)
  deriving DecidableEq

/-- What the workflow gives back. -/
def Task.Result : Task → Type
  | data _ => MergeData
  | tag _ => TagResult
  | notes _ _ => NotesResult
  | regression _ => Option RegressionResult

/-- The workflow as a flow. -/
def Task.flow (ctx : Context) : (task : Task) → Flow Forge.service task.Result
  | data sha => Workflow.mergeData ctx sha
  | tag sha => Workflow.createTag ctx sha
  | notes previous date => Workflow.createNotes ctx previous date
  | regression environment => Workflow.regression ctx environment

/-- One step of a session. -/
inductive Step where
  | setup (s : Memory.Setup)
  | ask (c : Forge.Call)
  | run (ctx : Context) (w : World) (task : Task)

/-- The memory after a step, however the step ends. -/
def Step.apply (m : Memory) : Step → Memory
  | setup s => s.apply m
  | ask c => (Memory.answer c m).2
  | run ctx w task => ((task.flow ctx).run Memory.host m w).2.1

/-- The memory after all steps. -/
def run (m : Memory) (steps : List Step) : Memory :=
  steps.foldl Step.apply m

theorem run_cons (m : Memory) (s : Step) (steps : List Step) :
    run m (s :: steps) = run (s.apply m) steps := rfl

/-- Workflows run with the settings, and nothing else sets the release variable, makes refs, or
keeps variables from being set. -/
def Step.Respects (config : Config) : Step → Prop
  | setup (.value name _) => name ≠ config.release.versionVariable
  | setup (.failure operation) => operation ≠ .updateVariable
  | setup _ => True
  | ask c => c.query.operation ≠ .updateVariable ∧ c.query.operation ≠ .createRef
  | run ctx _ _ => ctx.config = config

end Session

end ReleaseFlow
