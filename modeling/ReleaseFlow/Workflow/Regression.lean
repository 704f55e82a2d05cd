import ReleaseFlow.Forge.Service
import ReleaseFlow.Summary
import ReleaseFlow.Wait
import ReleaseFlow.Workflow.Context

/-!
# Regression runs

After a deployment the regression workflow of another repository is started; the run is awaited and
the conclusion of the environment's job is reported. All waits share one limit of time.

* `Context.regressionRepository`: the repository with the workflow;
* `RegressionResult`: a completed run;
* `regression`: starts a run, waits for it and reports it.
-/

namespace ReleaseFlow

/-- A completed regression run. -/
structure RegressionResult where
  runId : UInt64
  runUrl : String
  conclusion : Option String
  /-- False when the run has no job for the environment. -/
  jobFound : Bool
  deriving DecidableEq, Repr

/-- The run was a success. -/
def RegressionResult.passed (r : RegressionResult) : Bool :=
  r.conclusion == some "success"

/-- The repository with the regression workflow; what is not set is taken from the current one. -/
def Context.regressionRepository (ctx : Context) : Repository :=
  ⟨ctx.config.regression.owner.getD ctx.repository.owner,
    ctx.config.regression.repo.getD ctx.repository.name⟩

namespace Workflow

/-- Seconds of a setting in milliseconds. -/
def millis (seconds : UInt64) : Nat :=
  seconds.toNat * 1000

/-- Waits until the run is listed. -/
def awaitStart (ctx : Context) (started : Nat) (since : Instant) :
    Flow Forge.service WorkflowRun := do
  let settings := ctx.config.regression
  let wait : Wait := {
    what := "workflow run to start"
    interval := millis settings.discoveryInterval
    timeout := millis settings.timeout - ((← Flow.uptime) - started)
    patience := ctx.patience
    checked := ctx.checked }
  wait.poll do
    let runs : List WorkflowRun ←
      Forge.query ctx.regressionRepository (.runs settings.workflow since)
    return runs.head?

/-- Waits until the run is completed. -/
def awaitCompletion (ctx : Context) (started : Nat) (id : UInt64) :
    Flow Forge.service WorkflowRun := do
  let settings := ctx.config.regression
  let wait : Wait := {
    what := "workflow run to complete"
    interval := millis settings.pollInterval
    timeout := millis settings.timeout - ((← Flow.uptime) - started)
    patience := ctx.patience
    checked := ctx.checked }
  wait.poll do
    let run : WorkflowRun ← Forge.query ctx.regressionRepository (.run id)
    Flow.log .info ("Current status: " ++ run.status.getD "unknown")
    return if run.isCompleted then some run else none

/-- Shows the logs of the job in the log. Logs that cannot be fetched are a warning. -/
def showLogs (ctx : Context) (job : Job) : Flow Forge.service Unit := do
  let logs : Except Failure String ← Forge.tryQuery ctx.regressionRepository (.logs job.id)
  match logs with
  | .ok text => Flow.log .info ("Job logs: " ++ text)
  | .error failure => ctx.warning (.jobLogsUnavailable job.name failure.message)

/-- Tells the runner how a run ended, and fails unless it was a success. -/
def reportRun (ctx : Context) (result : RegressionResult) :
    Flow Forge.service RegressionResult := do
  ctx.runner.setOutput "regression_result"
    ("QA Regression result is " ++ resultText result.conclusion ++ "; link to this run is " ++
      result.runUrl)
  ctx.runner.appendSummary (regressionSummary result.conclusion result.runUrl)
  if result.passed then
    ctx.success ("Regression passed: " ++ result.runUrl)
    return result
  else
    Flow.failed (.workflowFailed (result.conclusion.getD "none") result.runUrl)

/-- Looks up the job of the environment and reports the run. -/
def concludeRun (ctx : Context) (jobName : String) (id : UInt64) (completed : WorkflowRun) :
    Flow Forge.service RegressionResult := do
  let target := ctx.regressionRepository
  let runUrl := if completed.url = "" then target.runUrl id else completed.url
  let conclusion := completed.conclusion
  Flow.log .info ("Workflow conclusion: " ++ conclusion.getD "none")
  Flow.log .info ("Workflow run URL: " ++ runUrl)
  let jobs : List Job ← Forge.query target (.jobs id)
  match jobs.find? (·.name == jobName) with
  | none =>
    ctx.warning (.jobNotFound jobName runUrl)
    return ⟨id, runUrl, conclusion, false⟩
  | some job =>
    showLogs ctx job
    reportRun ctx ⟨id, runUrl, conclusion, true⟩

/-- Starts the regression workflow for an environment and waits for its result. -/
def regression (ctx : Context) (environment : String) :
    Flow Forge.service (Option RegressionResult) := do
  let settings := ctx.config.regression
  let target := ctx.regressionRepository
  if ctx.dryRun then
    ctx.status ("Dry run: would trigger " ++ settings.workflow ++ " on " ++ target.text ++ " (" ++
      settings.ref ++ ")")
    return none
  else
    let started ← Flow.uptime
    let since ← Flow.now
    ctx.status ("Triggering workflow: " ++ settings.workflow ++ " on " ++ target.text)
    let _ ← Forge.query target
      (.dispatch settings.workflow settings.ref [("environment", environment)])
    Flow.sleep (millis settings.initialDelay)
    let run ← awaitStart ctx started since
    Flow.log .info ("Triggered workflow run ID: " ++ Text.decimal run.id.toNat)
    let completed ← awaitCompletion ctx started run.id
    let result ← concludeRun ctx (settings.jobNameFor environment) run.id completed
    return some result

end Workflow

end ReleaseFlow
