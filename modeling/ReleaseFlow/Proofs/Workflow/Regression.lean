import ReleaseFlow.Proofs.Forge.Queues
import ReleaseFlow.Proofs.Wait.Intervals
import ReleaseFlow.Proofs.Workflow.Delivery
import ReleaseFlow.Workflow.Regression

/-!
# What a regression run does with a service in memory

* `RegressionResult.reports`, `RegressionResult.verdict`: what a completed run tells the runner, and
  how the workflow ends;
* `concludeRun_delivers`: the end of a regression run;
* `tryStart_tries`, `tryCompletion_tries`: the tries of the two waits.
-/

namespace ReleaseFlow

namespace RegressionResult

/-- What a completed run tells the runner: nothing, when it has no job for the environment. -/
def reports (r : RegressionResult) : List Report :=
  if r.jobFound then
    [.output "regression_result" ("QA Regression result is " ++ resultText r.conclusion ++
      "; link to this run is " ++ r.runUrl), .summary (regressionSummary r.conclusion r.runUrl)]
  else []

/-- How a regression ends with this result: a job that was found must have passed. -/
def verdict (r : RegressionResult) : Outcome (Option RegressionResult) :=
  if r.jobFound && !r.passed then .failed (.workflowFailed (r.conclusion.getD "none") r.runUrl)
  else .done (some r)

end RegressionResult

namespace Workflow

/-- The result of a completed run, from what the memory tells about its jobs. -/
def runResult (ctx : Context) (jobName : String) (id : UInt64) (completed : WorkflowRun)
    (m : Memory) : RegressionResult where
  runId := id
  runUrl := if completed.url = "" then ctx.regressionRepository.runUrl id else completed.url
  conclusion := completed.conclusion
  jobFound := (m.jobs.find? (·.name == jobName)).isSome

variable (ctx : Context) (m : Memory) (w : World)

/-! ## The two waits -/

/-- The wait for a run to be listed, when some milliseconds have passed. -/
def startWait (elapsed : ℕ) : Wait where
  what := "workflow run to start"
  interval := millis ctx.config.regression.discoveryInterval
  timeout := millis ctx.config.regression.timeout - elapsed
  patience := ctx.patience
  checked := ctx.checked

/-- The wait for a run to be completed, when some milliseconds have passed. -/
def completionWait (elapsed : ℕ) : Wait where
  what := "workflow run to complete"
  interval := millis ctx.config.regression.pollInterval
  timeout := millis ctx.config.regression.timeout - elapsed
  patience := ctx.patience
  checked := ctx.checked

/-- One try to find a listed run. -/
def tryStart (since : Instant) : Flow Forge.service (Option WorkflowRun) := do
  let runs : List WorkflowRun ←
    Forge.query ctx.regressionRepository (.runs ctx.config.regression.workflow since)
  return runs.head?

/-- One try to find a run completed. -/
def tryCompletion (id : UInt64) : Flow Forge.service (Option WorkflowRun) := do
  let run : WorkflowRun ← Forge.query ctx.regressionRepository (.run id)
  Flow.log .info ("Current status: " ++ run.status.getD "unknown")
  return if run.isCompleted then some run else none

/-- What a try to find a run completed makes of an answer. -/
def completion (id : UInt64) : Option WorkflowRun → Except Failure (Option WorkflowRun)
  | some run => .ok (if run.isCompleted then some run else none)
  | none => .error (.api 404 ("Run " ++ Text.decimal id.toNat ++ " not found"))

theorem tryStart_tries (since : Instant) (h : Forge.Operation.runs ∉ m.failing) :
    (tryStart ctx since).Tries Memory.host
      (fun k => .ok ((Memory.nth m.listings k).getD []).head?)
      (fun k => { m with listings := Memory.after m.listings k }) := by
  intro k w
  have hreply : Memory.reply ctx.regressionRepository (.runs ctx.config.regression.workflow since)
      { m with listings := Memory.after m.listings k } = (.ok ((Memory.nth m.listings k).getD []),
        { m with listings := Memory.after m.listings (k + 1) }) := by
    simp only [Memory.reply, Memory.takeNext_after]
  exact ⟨w, .refl w, Memory.run_query_of_ok _ h hreply⟩

theorem tryCompletion_tries (id : UInt64) (h : Forge.Operation.run ∉ m.failing) :
    (tryCompletion ctx id).Tries Memory.host (fun k => completion id (Memory.nth m.states k))
      (fun k => { m with states := Memory.after m.states k }) := by
  intro k w
  have hreply : Memory.reply ctx.regressionRepository (.run id)
      { m with states := Memory.after m.states k } =
        ((Memory.nth m.states k).elim
          (.error (.api 404 ("Run " ++ Text.decimal id.toNat ++ " not found"))) .ok,
            { m with states := Memory.after m.states (k + 1) }) := by
    rw [Memory.reply_run, Memory.takeNext_after]
  dsimp only
  cases hk : Memory.nth m.states k with
  | none =>
    rw [hk, Option.elim_none] at hreply
    exact ⟨w, .refl w, Memory.run_query_of_error _ h hreply⟩
  | some run =>
    rw [hk, Option.elim_some] at hreply
    exact ⟨_, (World.Quiet.refl w).note _, Memory.run_query_of_ok _ h hreply⟩

/-! ## The end of a run -/

theorem showLogs_run (job : Job) : ∃ w', w.Quiet w' ∧
    (showLogs ctx job).run Memory.host m w = (.done (), m, w') := by
  rw [showLogs, Memory.run_tryQuery, Memory.answer_logs]
  split
  · exact ⟨_, (World.Quiet.refl w).note _, rfl⟩
  · exact ⟨_, (World.Quiet.refl w).note _, rfl⟩

theorem reportRun_delivers (result : RegressionResult) (hfound : result.jobFound = true) :
    Delivers ctx.runner m w [] m result.reports result.verdict
      ((reportRun ctx result >>= fun r => pure (some r)).run Memory.host m w) := by
  rw [RegressionResult.reports, RegressionResult.verdict, hfound, if_pos rfl, Bool.true_and]
  have htell : (reportRun ctx result >>= fun r => pure (some r)) = (do
      ctx.runner.tellAll [.output "regression_result" ("QA Regression result is " ++
        resultText result.conclusion ++ "; link to this run is " ++ result.runUrl),
        .summary (regressionSummary result.conclusion result.runUrl)]
      (if result.passed then do
        ctx.success ("Regression passed: " ++ result.runUrl)
        return result
      else Flow.failed (.workflowFailed (result.conclusion.getD "none") result.runUrl)) >>=
        fun r => pure (some r)) := by
    simp only [reportRun, Runner.tellAll, Runner.tell, bind_assoc, pure_bind]
  rw [htell]
  refine .tell fun w => ?_
  cases hpassed : result.passed with
  | true => exact ⟨_, (World.Quiet.refl w).note _, rfl⟩
  | false => exact ⟨w, .refl w, rfl⟩

theorem concludeRun_delivers (jobName : String) (id : UInt64) (completed : WorkflowRun)
    (hjobs : Forge.Operation.jobs ∉ m.failing) :
    Delivers ctx.runner m w [] m (runResult ctx jobName id completed m).reports
      (runResult ctx jobName id completed m).verdict
      ((concludeRun ctx jobName id completed >>= fun r => pure (some r)).run Memory.host m w) := by
  simp only [concludeRun, bind_assoc]
  refine .log fun w => .log fun w => ?_
  rw [Memory.run_query_of_ok _ hjobs rfl]
  cases hfind : m.jobs.find? (·.name == jobName) with
  | none =>
    rw [RegressionResult.reports, RegressionResult.verdict, runResult, hfind]
    exact .of_quiet ((World.Quiet.refl w).note (.warn _)) .done
  | some job =>
    obtain ⟨w₁, hq, hr⟩ := showLogs_run ctx m w job
    rw [runResult, hfind, Option.isSome_some]
    dsimp only
    rw [bind_assoc, Flow.run_bind_of_done _ hr]
    exact .of_quiet hq (reportRun_delivers ctx m w₁ _ rfl)

end Workflow

end ReleaseFlow
