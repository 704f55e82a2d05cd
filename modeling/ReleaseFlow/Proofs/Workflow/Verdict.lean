import Mathlib.Data.List.TFAE
import Mathlib.Tactic.TFAE
import ReleaseFlow.Proofs.Wait.Found
import ReleaseFlow.Proofs.Workflow.Regression

/-!
# The verdict of a regression run

* `untilCompleted`: what a regression run does before it reports, and `regression_eq`;
* `poll_query_found`: what a wait gives was seen in an answer;
* `untilCompleted_done`: where the two runs that are found come from;
* `writeAll_reports`: the two files after the reports of a run whose job was found;
* `verdict_tfae`: the output, the summary and the verdict of a run say the same;
* `regression_delivers`: what a regression run does after the two waits;
* `regression_verdict`: **the output, the summary and the way in which the workflow ends agree**.
-/

namespace ReleaseFlow

namespace Memory

variable {m m₁ : Memory}

/-- The memory after some of its listings were read. -/
def ListingsRead (m m₁ : Memory) : Prop :=
  ∃ queue, queue <:+ m.listings ∧ m₁ = { m with listings := queue }

/-- The memory after some of its states were read. -/
def StatesRead (m m₁ : Memory) : Prop :=
  ∃ queue, queue <:+ m.states ∧ m₁ = { m with states := queue }

theorem answer_runs (h : m.ListingsRead m₁) (repository : Repository) (workflow : String)
    (since : Instant) :
    m.ListingsRead (answer ⟨repository, .runs workflow since⟩ m₁).2 ∧
      ∀ run others, (answer ⟨repository, .runs workflow since⟩ m₁).1 = .ok (run :: others) →
        (run :: others) ∈ m.listings := by
  obtain ⟨queue, hqueue, rfl⟩ := h
  rw [answer]
  split
  · exact ⟨⟨queue, hqueue, rfl⟩, fun _ _ h => by cases h⟩
  · refine ⟨⟨_, (takeNext_suffix queue).trans hqueue, rfl⟩, fun run others h => ?_⟩
    have hnext : ((takeNext queue).1).getD [] = run :: others := Except.ok.inj h
    cases hfirst : (takeNext queue).1 with
    | none =>
      rw [hfirst] at hnext
      cases hnext
    | some listing =>
      rw [hfirst] at hnext
      exact hqueue.subset (mem_of_takeNext (hfirst.trans (congrArg some hnext)))

theorem answer_run (h : m.StatesRead m₁) (repository : Repository) (id : UInt64) :
    m.StatesRead (answer ⟨repository, .run id⟩ m₁).2 ∧
      ∀ run, (answer ⟨repository, .run id⟩ m₁).1 = .ok run → run ∈ m.states := by
  obtain ⟨queue, hqueue, rfl⟩ := h
  rw [answer]
  split
  · exact ⟨⟨queue, hqueue, rfl⟩, fun _ h => by cases h⟩
  · rw [reply_run]
    refine ⟨⟨_, (takeNext_suffix queue).trans hqueue, rfl⟩, fun run h => ?_⟩
    cases hfirst : (takeNext queue).1 with
    | none =>
      rw [hfirst] at h
      cases h
    | some first =>
      rw [hfirst] at h
      cases h
      exact hqueue.subset (mem_of_takeNext hfirst)

end Memory

namespace Workflow

variable (ctx : Context) (environment : String)

/-! ## Before the report -/

/-- What a regression run does before it reports: the run that was listed, and the same run when it
was completed. -/
def untilCompleted : Flow Forge.service (WorkflowRun × WorkflowRun) := do
  let settings := ctx.config.regression
  let target := ctx.regressionRepository
  let started ← Flow.uptime
  let since ← Flow.now
  ctx.status ("Triggering workflow: " ++ settings.workflow ++ " on " ++ target.text)
  let _ ← Forge.query target
    (.dispatch settings.workflow settings.ref [("environment", environment)])
  Flow.sleep (millis settings.initialDelay)
  let run ← awaitStart ctx started since
  Flow.log .info ("Triggered workflow run ID: " ++ Text.decimal run.id.toNat)
  let completed ← awaitCompletion ctx started run.id
  return (run, completed)

variable {ctx} in
theorem regression_eq (hdry : ctx.dryRun = false) : regression ctx environment = (do
    let runs ← untilCompleted ctx environment
    let result ← concludeRun ctx (ctx.config.regression.jobNameFor environment) runs.1.id runs.2
    return some result) := by
  simp only [regression, hdry, Bool.false_eq_true, if_false, untilCompleted, bind_assoc, pure_bind]

variable {m m' : Memory} {w w' : World} {started : ℕ}

/-- A wait whose tries ask a question and then do no more than look at the answer: what it gives was
seen in an answer. What such a question keeps true of the memory is true before it. -/
theorem poll_query_found {α : Type} {r : Repository} {q : Forge.Query}
    {f : q.Answer → Flow Forge.service (Option α)} {g : q.Answer → Option α}
    (hf : ∀ a m w, ∃ w', w.Quiet w' ∧ (f a).run Memory.host m w = (.done (g a), m, w'))
    {I : Memory → Prop} (hkeep : ∀ m, I m → I (Memory.answer ⟨r, q⟩ m).2) (hm : I m)
    (wait : Wait) {value : α}
    (h : (wait.poll (Forge.query r q >>= f)).run Memory.host m w = (.done value, m', w')) :
    ∃ m₁ a, I m₁ ∧ Memory.answer ⟨r, q⟩ m₁ = (.ok a, m') ∧ g a = some value ∧
      w'.files = w.files := by
  have hrun : ∀ m₁ w₁, (Forge.query r q >>= f).run Memory.host m₁ w₁ = _ := fun m₁ w₁ =>
    Memory.run_query f
  -- no try writes to a file
  let J : Memory → FileTree → Prop := fun m₁ files => I m₁ ∧ files = w.files
  have htry : ∀ m₁ w₁, J m₁ w₁.files → J ((Forge.query r q >>= f).run Memory.host m₁ w₁).2.1
      ((Forge.query r q >>= f).run Memory.host m₁ w₁).2.2.files := by
    rintro m₁ w₁ ⟨hI, hfiles⟩
    have hnext := hkeep m₁ hI
    rw [hrun]
    split
    · next a _ =>
      obtain ⟨w₂, hq, hlook⟩ := hf a (Memory.answer ⟨r, q⟩ m₁).2 w₁
      rw [hlook]
      exact ⟨hnext, hq.files.trans hfiles⟩
    · exact ⟨hnext, hfiles⟩
  obtain ⟨m₁, w₁, w₂, ⟨hI, hfiles⟩, hlast, hend⟩ := wait.poll_found htry ⟨hm, rfl⟩ h
  rw [hrun] at hlast
  split at hlast
  · next a ha =>
    obtain ⟨w₃, hq, hlook⟩ := hf a (Memory.answer ⟨r, q⟩ m₁).2 w₁
    rw [hlook] at hlast
    obtain ⟨hvalue, rfl, rfl⟩ : g a = some value ∧ _ = m' ∧ w₃ = w₂ := by
      simpa using hlast
    exact ⟨m₁, a, hI, Prod.ext ha rfl, hvalue, hend.trans (hq.files.trans hfiles)⟩
  · cases hlast

theorem awaitStart_done {since : Instant} {listed : WorkflowRun}
    (h : (awaitStart ctx started since).run Memory.host m w = (.done listed, m', w')) :
    (∃ others, (listed :: others) ∈ m.listings) ∧ m.ListingsRead m' ∧ w'.files = w.files := by
  have hlook : ∀ (runs : List WorkflowRun) (m : Memory) (w : World), ∃ w', w.Quiet w' ∧
      (pure runs.head? : Flow Forge.service _).run Memory.host m w = (.done runs.head?, m, w') :=
    fun _ _ w => ⟨w, .refl w, rfl⟩
  have hkeep := fun m₁ (hread : m.ListingsRead m₁) => (Memory.answer_runs hread
    ctx.regressionRepository ctx.config.regression.workflow since).1
  obtain ⟨m₁, runs, hread, hanswer, hhead, hfiles⟩ :=
    poll_query_found hlook hkeep ⟨_, List.suffix_rfl, rfl⟩ (startWait ctx (w.uptime - started)) h
  obtain ⟨hnext, hmem⟩ := Memory.answer_runs hread ctx.regressionRepository
    ctx.config.regression.workflow since
  obtain ⟨others, rfl⟩ := List.head?_eq_some_iff.1 hhead
  rw [hanswer] at hnext hmem
  exact ⟨⟨others, hmem _ _ rfl⟩, hnext, hfiles⟩

theorem awaitCompletion_done {id : UInt64} {completed : WorkflowRun}
    (h : (awaitCompletion ctx started id).run Memory.host m w = (.done completed, m', w')) :
    completed ∈ m.states ∧ completed.isCompleted = true ∧ m.StatesRead m' ∧
      w'.files = w.files := by
  have hlook : ∀ (run : WorkflowRun) (m : Memory) (w : World), ∃ w', w.Quiet w' ∧
      (Flow.log .info ("Current status: " ++ run.status.getD "unknown") >>= fun _ =>
        pure (if run.isCompleted then some run else none) : Flow Forge.service _).run
          Memory.host m w = (.done (if run.isCompleted then some run else none), m, w') :=
    fun _ _ w => ⟨_, (World.Quiet.refl w).note _, rfl⟩
  have hkeep := fun m₁ (hread : m.StatesRead m₁) =>
    (Memory.answer_run hread ctx.regressionRepository id).1
  obtain ⟨m₁, run, hread, hanswer, hdone, hfiles⟩ := poll_query_found hlook hkeep
    ⟨_, List.suffix_rfl, rfl⟩ (completionWait ctx (w.uptime - started)) h
  obtain ⟨hnext, hmem⟩ := Memory.answer_run hread ctx.regressionRepository id
  rw [hanswer] at hnext hmem
  obtain ⟨hcompleted, hrun⟩ := Option.ite_none_right_eq_some.1 hdone
  cases hrun
  exact ⟨hmem _ rfl, hcompleted, hnext, hfiles⟩

theorem untilCompleted_done {listed completed : WorkflowRun}
    (h : (untilCompleted ctx environment).run Memory.host m w =
      (.done (listed, completed), m', w')) :
    (∃ others, (listed :: others) ∈ m.listings) ∧ completed ∈ m.states ∧
      completed.isCompleted = true ∧ m'.jobs = m.jobs ∧ m'.failing = m.failing ∧
      w'.files = w.files := by
  simp only [untilCompleted, Flow.run_uptime_bind, Flow.run_now_bind, Context.run_status_bind] at h
  by_cases hfailing : Forge.Operation.dispatch ∈ m.failing
  · rw [Memory.run_query_of_failing _ hfailing] at h
    cases h
  rw [Memory.run_query_of_ok _ hfailing rfl, Flow.run_sleep_bind] at h
  obtain ⟨run, m₁, w₁, hstart, h⟩ := Flow.of_run_bind_done h
  rw [Flow.run_log_bind] at h
  obtain ⟨state, m₂, w₂, hend, h⟩ := Flow.of_run_bind_done h
  cases h
  obtain ⟨hlisted, ⟨queue, -, rfl⟩, hfiles₁⟩ := awaitStart_done ctx hstart
  obtain ⟨hstate, hdone, ⟨queue', -, rfl⟩, hfiles₂⟩ := awaitCompletion_done ctx hend
  exact ⟨hlisted, hstate, hdone, rfl, rfl, hfiles₂.trans hfiles₁⟩

/-! ## The report -/

/-- The text of the output, for a word that says how the run ended. -/
def outputText (word url : String) : String :=
  "QA Regression result is " ++ word ++ "; link to this run is " ++ url

/-- The block of the summary, for a word that says how the run ended. -/
def summaryText (word url : String) : String :=
  "### Workflow Result\nResult: " ++ word ++ "\n[Link to Workflow Run](" ++ url ++ ")\n"

theorem reports_of_found {result : RegressionResult} (hfound : result.jobFound = true) :
    result.reports = [.output "regression_result"
        (outputText (resultText result.conclusion) result.runUrl),
      .summary (summaryText (resultText result.conclusion) result.runUrl)] := by
  rw [RegressionResult.reports, if_pos hfound]
  rfl

theorem writeAll_reports {r : Runner} {output summary : String} (hout : r.outputFile = some output)
    (hsum : r.summaryFile = some summary) {result : RegressionResult}
    (hfound : result.jobFound = true) {files files' : FileTree}
    (h : r.writeAll files result.reports = .ok files') :
    ∃ entry between, outputEntry "regression_result"
        (outputText (resultText result.conclusion) result.runUrl) = .ok entry ∧
      files.append output entry = .ok between ∧
      between.append summary (summaryText (resultText result.conclusion) result.runUrl) =
        .ok files' := by
  rw [reports_of_found hfound] at h
  obtain ⟨between, houtput, h⟩ := r.of_writeAll_cons h
  obtain ⟨files₂, hsummary, h⟩ := r.of_writeAll_cons h
  cases h
  rw [Runner.write, hout] at houtput
  rw [Runner.write, hsum] at hsummary
  dsimp only at houtput hsummary
  split at houtput
  · next entry hentry =>
    exact ⟨entry, between, hentry, Runner.appendTo_eq_ok_iff.1 houtput,
      Runner.appendTo_eq_ok_iff.1 hsummary⟩
  · cases houtput

theorem resultText_eq_passed_iff {conclusion : Option String} :
    resultText conclusion = "passed" ↔ conclusion = some "success" := by
  refine ⟨fun hword => ?_, fun h => if_pos h⟩
  by_contra h
  rw [resultText, if_neg h] at hword
  exact absurd hword (by decide)

theorem outputText_injective {word word' url : String}
    (h : outputText word url = outputText word' url) : word = word' := by
  unfold outputText at h
  simpa only [String.append_left_inj, String.append_right_inj] using h

theorem summaryText_injective {word word' url : String}
    (h : summaryText word url = summaryText word' url) : word = word' := by
  unfold summaryText at h
  simpa only [String.append_left_inj, String.append_right_inj] using h

theorem verdict_of_failed {result : RegressionResult} (hfound : result.jobFound = true)
    (hfailed : result.conclusion ≠ some "success") : result.verdict =
      .failed (.workflowFailed (result.conclusion.getD "none") result.runUrl) := by
  have hnotPassed : result.passed = false := beq_eq_false_iff_ne.2 hfailed
  rw [RegressionResult.verdict, hfound, hnotPassed]
  rfl

theorem verdict_tfae {result : RegressionResult} (hfound : result.jobFound = true) :
    List.TFAE [result.conclusion = some "success",
      outputText (resultText result.conclusion) result.runUrl = outputText "passed" result.runUrl,
      summaryText (resultText result.conclusion) result.runUrl =
        summaryText "passed" result.runUrl,
      result.verdict = .done (some result)] := by
  tfae_have 2 ↔ 1 := by
    rw [← resultText_eq_passed_iff]
    exact ⟨outputText_injective, congrArg (outputText · result.runUrl)⟩
  tfae_have 3 ↔ 1 := by
    rw [← resultText_eq_passed_iff]
    exact ⟨summaryText_injective, congrArg (summaryText · result.runUrl)⟩
  tfae_have 1 → 4 := fun hsuccess => by
    have hpassed : result.passed = true := beq_iff_eq.2 hsuccess
    rw [RegressionResult.verdict, hfound, hpassed]
    rfl
  tfae_have 4 → 1 := fun hend => by
    by_contra hfailed
    rw [verdict_of_failed hfound hfailed] at hend
    cases hend
  tfae_finish

/-- Past the wait for its end, a run is concluded with the jobs that the memory told before. -/
theorem regression_delivers (hdry : ctx.dryRun = false) {m₁ : Memory} {w₁ : World}
    {listed completed : WorkflowRun}
    (hpast : (untilCompleted ctx environment).run Memory.host m w =
      (.done (listed, completed), m₁, w₁))
    (hjobs : Forge.Operation.jobs ∉ m.failing) :
    let result := runResult ctx (ctx.config.regression.jobNameFor environment) listed.id completed m
    Delivers ctx.runner m₁ w₁ [] m₁ result.reports result.verdict
      ((regression ctx environment).run Memory.host m w) := by
  obtain ⟨-, -, -, hsame, hfailing, -⟩ := untilCompleted_done ctx environment hpast
  have hend := concludeRun_delivers ctx m₁ w₁ (ctx.config.regression.jobNameFor environment)
    listed.id completed (hfailing ▸ hjobs)
  rw [regression_eq environment hdry, Flow.run_bind_of_done _ hpast]
  rw [runResult, hsame] at hend
  exact hend

/-- **The verdict is the same everywhere.** When a regression run gets past the wait for the end of
the run that it started, and its jobs are told, it reports the run that was listed, with the page of
the completed run. Without a job for the environment it gives the conclusion and writes nothing.
Otherwise it writes one output and then one block of the summary, both with a word for the
conclusion and the page; if they can be written, the word, the block and the way in which the
workflow ends all depend on whether the conclusion is `success`. -/
theorem regression_verdict (hdry : ctx.dryRun = false) {output summary : String}
    (houtput : ctx.runner.outputFile = some output)
    (hsummary : ctx.runner.summaryFile = some summary) {m₁ : Memory} {w₁ : World}
    {listed completed : WorkflowRun}
    (hpast : (untilCompleted ctx environment).run Memory.host m w =
      (.done (listed, completed), m₁, w₁))
    (hjobs : Forge.Operation.jobs ∉ m.failing) :
    let run := (regression ctx environment).run Memory.host m w
    let name := ctx.config.regression.jobNameFor environment
    let url := if completed.url = "" then ctx.regressionRepository.runUrl listed.id
      else completed.url
    let result : RegressionResult := ⟨listed.id, url, completed.conclusion, true⟩
    (∃ others, (listed :: others) ∈ m.listings) ∧ completed ∈ m.states ∧
    completed.isCompleted = true ∧
    ((∀ job ∈ m.jobs, job.name ≠ name) →
      run.1 = .done (some { result with jobFound := false }) ∧ run.2.2.files = w.files) ∧
    ((∃ job ∈ m.jobs, job.name = name) →
      ∀ files, ctx.runner.writeAll w.files result.reports = .ok files →
      ∃ value block entry between, outputEntry "regression_result" value = .ok entry ∧
        w.files.append output entry = .ok between ∧
        between.append summary block = .ok run.2.2.files ∧
        List.TFAE [completed.conclusion = some "success", value = outputText "passed" url,
          block = summaryText "passed" url, run.1 = .done (some result)] ∧
        (completed.conclusion ≠ some "success" → value = outputText "failed" url ∧
          block = summaryText "failed" url ∧
          run.1 = .failed (.workflowFailed (completed.conclusion.getD "none") url))) := by
  intro run name url result
  obtain ⟨hlisted, hstate, hdone, -, -, hfiles⟩ := untilCompleted_done ctx environment hpast
  have hend : Delivers ctx.runner m₁ w₁ [] m₁ _ _ run :=
    regression_delivers ctx environment hdry hpast hjobs
  have hresult : runResult ctx name listed.id completed m =
      { result with jobFound := (m.jobs.find? (·.name == name)).isSome } := rfl
  rw [hresult] at hend
  refine ⟨hlisted, hstate, hdone, fun hno => ?_, fun hjob files hwritten => ?_⟩
  · have hnone : m.jobs.find? (·.name == name) = none := by
      simpa using hno
    rw [hnone] at hend
    exact ⟨hend.outcome_eq, (hend.files_eq rfl).trans hfiles⟩
  · have hsome : (m.jobs.find? (·.name == name)).isSome = true := by
      simpa using hjob
    have hfound : result.jobFound = true := rfl
    rw [hsome] at hend
    rw [← hfiles] at hwritten
    have houtcome : run.1 = result.verdict := by
      have h := hend.outcome_eq
      rw [hwritten] at h
      exact h
    obtain ⟨entry, between, hentry, hbetween, hblock⟩ :=
      writeAll_reports houtput hsummary hfound hwritten
    rw [hfiles] at hbetween
    rw [← hend.files_eq hwritten] at hblock
    rw [houtcome]
    refine ⟨_, _, entry, between, hentry, hbetween, hblock, verdict_tfae hfound, fun hfailed => ?_⟩
    have hword : resultText result.conclusion = "failed" := if_neg hfailed
    rw [hword]
    exact ⟨rfl, rfl, verdict_of_failed hfound hfailed⟩

/-- A run that failed is reported before the workflow fails. -/
theorem regression_verdict_failure :
    let ctx : Context := ⟨⟨"acme", "notify-api"⟩, {}, ⟨some "output", some "summary"⟩, false,
      .plain, 0, false⟩
    let listed : WorkflowRun := ⟨7, some "queued", none, ""⟩
    let completed : WorkflowRun := ⟨7, some "completed", some "failure", "https://example.com/7"⟩
    let m : Memory := {
      listings := [[listed]]
      states := [completed]
      jobs := [⟨1, "Test in qa", some "failure"⟩] }
    let run := (regression ctx "qa").run Memory.host m {}
    run.1 = .failed (.workflowFailed "failure" "https://example.com/7") ∧
      run.2.2.files.readText "summary" = .ok (summaryText "failed" "https://example.com/7") := by
  intro ctx listed completed m run
  have hdone : ((untilCompleted ctx "qa").run Memory.host m {}).1 = .done (listed, completed) := by
    decide
  generalize hpast : (untilCompleted ctx "qa").run Memory.host m {} = before at hdone
  obtain ⟨outcome, m₁, w₁⟩ := before
  cases hdone
  have hwritten : ∃ files, ctx.runner.writeAll {} (⟨7, "https://example.com/7", some "failure",
      true⟩ : RegressionResult).reports = .ok files :=
    ⟨_, rfl⟩
  obtain ⟨files, hfiles⟩ := hwritten
  obtain ⟨-, -, -, -, h⟩ := regression_verdict ctx "qa" rfl rfl rfl hpast (by decide)
  obtain ⟨_, _, _, _, -, -, -, -, h⟩ := h (by decide) files hfiles
  obtain ⟨-, -, hend⟩ := h (by decide)
  exact ⟨hend, by decide⟩

end Workflow

end ReleaseFlow
