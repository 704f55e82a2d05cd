import ReleaseFlow.Proofs.Flow.Blind
import ReleaseFlow.Proofs.Forge.Variation
import ReleaseFlow.Proofs.Workflow.Careful
import ReleaseFlow.Proofs.Workflow.Publishing
import ReleaseFlow.Proofs.Workflow.Questions
import ReleaseFlow.Proofs.Workflow.Verdict

/-!
# The logs of the job

A regression run fetches the logs of the job that it finds, only to show them.

* `logsShown`, `showLogs_run_of`: what is shown of the logs;
* `untilCompleted_acts`: before it reports, a run neither warns nor fetches logs;
* `regression_blind`: a regression run does not see a difference of the logs;
* `FindsJob`: the job that a run finds;
* `untilCompleted_unwarned`, `concludeRun_warnings`, `regression_warnings`: what a run warns of;
* `regression_ignores_logs`: **the logs of the job change nothing but what is shown of them**.
-/

namespace ReleaseFlow

open ReleaseFlow.Flow

theorem World.warnings_note (w : World) (e : Event) : (w.note e).warnings =
    w.warnings ++ match e with | .warn text => [text] | _ => [] := by
  cases e <;> simp [World.note, World.warnings]

theorem Forge.blind_of_asks {α : Type} {m : Flow Forge.service α} {kinds : List Forge.Operation}
    (hm : m.Asks (Forge.Among kinds)) {op : Forge.Operation} (hop : op ∉ kinds) :
    m.Blind Memory.host (Memory.SameBut op) :=
  hm.blind fun _ hc _ _ h => h.answer fun hne => hop (hne ▸ hc)

namespace Workflow

variable (ctx : Context) (environment : String)

/-- What is shown of the logs: a line of the log, or a warning. -/
def logsShown (job : Job) : Except Failure String → Event
  | .ok text => .log .info ("Job logs: " ++ text)
  | .error e => .warn (Console.warningLine ctx.palette (.jobLogsUnavailable job.name e.message))

theorem logsShown_ne_print (job : Job) (logs : Except Failure String) (text : String) :
    logsShown ctx job logs ≠ .print text := by
  cases logs <;> simp [logsShown]

theorem showLogs_run_of {σ : Type} {host : Host Forge.service σ} {s s' : σ} (job : Job) (w : World)
    {logs : Except Failure String}
    (h : host ⟨ctx.regressionRepository, .logs job.id⟩ s = (logs, s')) :
    (showLogs ctx job).run host s w = (.done (), s', w.note (logsShown ctx job logs)) := by
  rw [showLogs, Forge.tryQuery, run_tryAsk_bind (S := Forge.service) _ h]
  cases logs <;> rfl

theorem showLogs_run_eq (job : Job) (m : Memory) (w : World) :
    (showLogs ctx job).run Memory.host m w = (.done (), m, w.note (logsShown ctx job
      (Memory.answer ⟨ctx.regressionRepository, .logs job.id⟩ m).1)) :=
  showLogs_run_of ctx job w (Prod.ext rfl (Memory.answer_logs _ _ m))

/-- The step does not warn, and asks for a run, for runs or to start one. -/
def BeforeReport : Act Forge.service → Prop
  | .ask c => Forge.Among [.dispatch, .runs, .run] c
  | .warn _ => False
  | _ => True

theorem untilCompleted_acts : (untilCompleted ctx environment).Acts BeforeReport := by
  refine (acts_uptime trivial).bind fun started => (acts_now trivial).bind fun since => ?_
  refine (acts_print trivial).bind fun _ => ?_
  refine (acts_ask ?_).bind fun _ => (acts_sleep trivial).bind fun _ => ?_
  · simp [BeforeReport, Forge.Among, Forge.Query.operation]
  have hlog : ∀ level text, BeforeReport (.log level text) := fun _ _ => trivial
  refine (awaitStart_acts ctx hlog trivial (fun _ => trivial) ?_).bind fun run =>
    (acts_log trivial).bind fun _ =>
      (awaitCompletion_acts ctx hlog trivial (fun _ => trivial) ?_).bind fun completed => trivial
  all_goals simp [BeforeReport, Forge.Among, Forge.Query.operation]

/-! ## What a run does not see -/

theorem untilCompleted_blind :
    (untilCompleted ctx environment).Blind Memory.host (Memory.SameBut .logs) :=
  Forge.blind_of_asks ((untilCompleted_acts ctx environment).asks fun _ h => h) (by simp)

theorem showLogs_blind (job : Job) :
    (showLogs ctx job).Blind Memory.host (Memory.SameBut .logs) := by
  intro m m' w w' hm hw
  rw [showLogs_run_eq, showLogs_run_eq]
  exact ⟨rfl, hm, hw.note_of_silent (logsShown_ne_print ctx job _) (logsShown_ne_print ctx job _)⟩

theorem concludeRun_blind (jobName : String) (id : UInt64) (completed : WorkflowRun) :
    (concludeRun ctx jobName id completed).Blind Memory.host (Memory.SameBut .logs) := by
  have hnothing : ∀ {α : Type} {m : Flow Forge.service α}, m.Asks (Forge.Among []) →
      m.Blind Memory.host (Memory.SameBut .logs) := fun h => Forge.blind_of_asks h (by simp)
  have hjobs : (Forge.query ctx.regressionRepository (.jobs id)).Asks (Forge.Among [.jobs]) :=
    Forge.query_asks _ (by simp [Forge.Query.operation])
  refine (hnothing (acts_log (Act.silent rfl))).bind fun _ => ?_
  refine (hnothing (acts_log (Act.silent rfl))).bind fun _ => ?_
  refine (Forge.blind_of_asks hjobs (by simp)).bind fun jobs => ?_
  split
  · exact hnothing ((acts_warn (Act.silent rfl)).bind fun _ => trivial)
  · exact (showLogs_blind ctx _).bind fun _ => hnothing (reportRun_asks ctx _)

theorem regression_blind :
    (regression ctx environment).Blind Memory.host (Memory.SameBut .logs) := by
  cases hdry : ctx.dryRun with
  | true =>
    have hasks : (regression ctx environment).Asks (Forge.Among []) := by
      rw [regression_eq_of_dry environment hdry]
      exact (acts_print (Act.silent rfl)).bind fun _ => trivial
    exact Forge.blind_of_asks hasks (by simp)
  | false =>
    rw [regression_eq environment hdry]
    refine (untilCompleted_blind ctx environment).bind fun runs => ?_
    refine (concludeRun_blind ctx _ _ _).bind fun result => ?_
    exact fun _ _ _ _ hm hw => ⟨rfl, hm, hw⟩

/-! ## The warnings of a run -/

/-- The run is completed in time and has this job for the environment. -/
structure FindsJob (m : Memory) (w : World) (job : Job) : Prop where
  live : ctx.dryRun = false
  completed : ∃ runs, ((untilCompleted ctx environment).run Memory.host m w).1 = .done runs
  listed : Forge.Operation.jobs ∉ m.failing
  named : m.jobs.find? (·.name == ctx.config.regression.jobNameFor environment) = some job

theorem warningLine_jobNotFound_ne (palette : Console.Palette) (job runUrl name reason : String) :
    Console.warningLine palette (.jobNotFound job runUrl) ≠
      Console.warningLine palette (.jobLogsUnavailable name reason) := by
  intro h
  unfold Console.warningLine at h
  rw [String.append_left_inj, String.append_right_inj] at h
  change "Job '" ++ job ++ "' not found in workflow run " ++ runUrl =
    "Could not fetch logs for job '" ++ name ++ "': " ++ reason at h
  have hjob : "Job '".toList = 'J' :: "ob '".toList := by decide
  have hlogs : "Could not fetch logs for job '".toList =
    'C' :: "ould not fetch logs for job '".toList := by decide
  have hchars := congrArg String.toList h
  simp only [String.toList_append, List.append_assoc, hjob, hlogs, List.cons_append] at hchars
  exact absurd (List.cons.inj hchars).1 (by decide)

theorem reportRun_unwarned (result : RegressionResult) :
    (reportRun ctx result).Acts fun act => ∀ text, act ≠ .warn text := by
  refine (ctx.runner.setOutput_unwarned _ _).bind fun _ => ?_
  refine (ctx.runner.appendSummary_unwarned _).bind fun _ => ?_
  split
  · exact (acts_print fun _ => by simp).bind fun _ => trivial
  · exact trivial

/-- The warning about logs that cannot be fetched. -/
def logsWarnings (job : Job) : Except Failure String → List String
  | .ok _ => []
  | .error e => [Console.warningLine ctx.palette (.jobLogsUnavailable job.name e.message)]

/-- What a run warns of once it was completed: that it has no job for the environment, or that the
logs of the job cannot be fetched. -/
def endWarnings (jobName runUrl : String) (m : Memory) : List String :=
  match m.jobs.find? (·.name == jobName) with
  | none => [Console.warningLine ctx.palette (.jobNotFound jobName runUrl)]
  | some job => logsWarnings ctx job (Memory.answer ⟨ctx.regressionRepository, .logs job.id⟩ m).1

theorem concludeRun_warnings (jobName : String) (id : UInt64) (completed : WorkflowRun)
    (m : Memory) (w : World) :
    ((concludeRun ctx jobName id completed).run Memory.host m w).2.2.warnings = w.warnings ++
      if Forge.Operation.jobs ∈ m.failing then [] else
        endWarnings ctx jobName (runResult ctx jobName id completed m).runUrl m := by
  simp only [concludeRun, run_log_bind]
  by_cases hjobs : Forge.Operation.jobs ∈ m.failing
  · rw [Memory.run_query_of_failing _ hjobs, if_pos hjobs]
    simp only [World.warnings_note, List.append_nil]
  rw [Memory.run_query_of_ok _ hjobs rfl, if_neg hjobs, endWarnings]
  cases hfind : m.jobs.find? (·.name == jobName) with
  | none =>
    change World.warnings (World.note _ (.warn _)) = _
    simp only [World.warnings_note, List.append_nil]
    rfl
  | some job =>
    dsimp only
    rw [run_bind_of_done _ (showLogs_run_eq ctx job m _), (reportRun_unwarned ctx _).warnings]
    simp only [World.warnings_note, List.append_nil]
    cases (Memory.answer ⟨ctx.regressionRepository, .logs job.id⟩ m).1 <;> rfl

theorem untilCompleted_unwarned (m : Memory) (w : World) :
    ((untilCompleted ctx environment).run Memory.host m w).2.2.warnings = w.warnings :=
  ((untilCompleted_acts ctx environment).mono fun act hact text htext => by
    rw [htext] at hact
    exact hact).warnings Memory.host m w

theorem regression_unwarned {m : Memory} {w : World}
    (h : ¬ (ctx.dryRun = false ∧
      ∃ runs, ((untilCompleted ctx environment).run Memory.host m w).1 = .done runs)) :
    ((regression ctx environment).run Memory.host m w).2.2.warnings = w.warnings := by
  cases hdry : ctx.dryRun with
  | true =>
    rw [regression_eq_of_dry environment hdry]
    refine Flow.Acts.warnings ?_ Memory.host m w
    exact (acts_print fun _ => by simp).bind fun _ => trivial
  | false =>
    rw [regression_eq environment hdry]
    have hcalm := untilCompleted_unwarned ctx environment m w
    generalize hrun : (untilCompleted ctx environment).run Memory.host m w = before at h hcalm
    obtain ⟨o, m₁, w₁⟩ := before
    cases o with
    | done runs => exact absurd ⟨hdry, runs, rfl⟩ h
    | failed e =>
      rw [run_bind_of_failed _ hrun]
      exact hcalm
    | stalled =>
      rw [run_bind_of_stalled _ hrun]
      exact hcalm

/-- When a run finds its job, it warns of logs that cannot be fetched and of nothing else. Other
runs never warn of that. -/
theorem regression_warnings (m : Memory) (w : World) :
    ∃ lines, ((regression ctx environment).run Memory.host m w).2.2.warnings =
        w.warnings ++ lines ∧
      ((∀ job, ¬ FindsJob ctx environment m w job) → ∀ name reason,
        Console.warningLine ctx.palette (.jobLogsUnavailable name reason) ∉ lines) ∧
      ∀ job, FindsJob ctx environment m w job → lines =
        logsWarnings ctx job (Memory.answer ⟨ctx.regressionRepository, .logs job.id⟩ m).1 := by
  by_cases h : ctx.dryRun = false ∧
    ∃ runs, ((untilCompleted ctx environment).run Memory.host m w).1 = .done runs
  · obtain ⟨hdry, runs, hdone⟩ := h
    have hrun : (untilCompleted ctx environment).run Memory.host m w = (.done runs, _, _) :=
      Prod.ext hdone rfl
    obtain ⟨hjobs, hlogs, hfailing⟩ := Memory.run_fixed (untilCompleted ctx environment) m w
    rw [regression_eq environment hdry, run_bind_of_done _ hrun, run_bind_pure,
      concludeRun_warnings, untilCompleted_unwarned, hfailing]
    refine ⟨_, rfl, fun hno name reason hmem => ?_, fun job hjob => ?_⟩
    · by_cases hf : Forge.Operation.jobs ∈ m.failing
      · rw [if_pos hf] at hmem
        cases hmem
      rw [if_neg hf, endWarnings, hjobs] at hmem
      cases hfind : m.jobs.find? (·.name == ctx.config.regression.jobNameFor environment) with
      | none =>
        rw [hfind] at hmem
        exact warningLine_jobNotFound_ne _ _ _ _ _ (List.mem_singleton.1 hmem).symm
      | some job => exact hno job ⟨hdry, ⟨runs, hdone⟩, hf, hfind⟩
    · rw [if_neg hjob.listed, endWarnings, hjobs, hjob.named]
      exact congrArg (logsWarnings ctx job) (Memory.answer_logs_congr hlogs hfailing job.id)
  · refine ⟨[], by rw [regression_unwarned ctx environment h, List.append_nil], by simp, ?_⟩
    exact fun job hjob => absurd ⟨hjob.live, hjob.completed⟩ h

/-- **The logs of the job change nothing but what is shown of them.** In two memories that differ in
the logs, and in whether logs can be fetched, a regression run ends in the same way, leaves the same
traces and queues, takes the same time and writes the same to the files and to the standard output.
It warns that logs are unavailable exactly when it finds its job and its logs cannot be fetched. -/
theorem regression_ignores_logs (m : Memory) (w : World) (logs : List (UInt64 × String))
    (failing : List Forge.Operation)
    (hfailing : ∀ op ≠ Forge.Operation.logs, op ∈ failing ↔ op ∈ m.failing) :
    let run := (regression ctx environment).run Memory.host m w
    let run' := (regression ctx environment).run Memory.host { m with logs, failing } w
    run'.1 = run.1 ∧
    run'.2.1 = { run.2.1 with logs, failing } ∧
    (∃ record, run'.2.2 = { run.2.2 with record } ∧ run'.2.2.output = run.2.2.output) ∧
    ∃ lines, run.2.2.warnings = w.warnings ++ lines ∧
      ((∃ name reason,
          Console.warningLine ctx.palette (.jobLogsUnavailable name reason) ∈ lines) ↔
        ∃ job e, FindsJob ctx environment m w job ∧
          (Memory.answer ⟨ctx.regressionRepository, .logs job.id⟩ m).1 = .error e) ∧
      ∀ job e, FindsJob ctx environment m w job →
        (Memory.answer ⟨ctx.regressionRepository, .logs job.id⟩ m).1 = .error e →
        lines = [Console.warningLine ctx.palette (.jobLogsUnavailable job.name e.message)] := by
  intro run run'
  have hbut : m.SameBut .logs { m with logs, failing } := ⟨rfl, fun h => absurd rfl h, hfailing⟩
  obtain ⟨houtcome, hservice, hworld⟩ : Beside _ run run' :=
    regression_blind ctx environment hbut (.refl w)
  obtain ⟨-, hlogs, hfail⟩ := Memory.run_fixed (regression ctx environment)
    { m with logs, failing } w
  have hrest : run'.2.1 = { run.2.1 with logs, failing } := by
    rw [hservice.rest, hlogs, hfail]
  have houtput := hworld.output
  obtain ⟨record, hrecord, -⟩ := hworld
  obtain ⟨lines, hlines, hnone, hsome⟩ := regression_warnings ctx environment m w
  refine ⟨houtcome, hrest, ⟨record, hrecord, houtput⟩, lines, hlines, ?_,
    fun job e hjob he => by rw [hsome job hjob, he, logsWarnings]⟩
  constructor
  · rintro ⟨name, reason, hmem⟩
    by_contra hno
    have hfinds : ∃ job, FindsJob ctx environment m w job := by
      by_contra h
      exact hnone (not_exists.1 h) name reason hmem
    obtain ⟨job, hjob⟩ := hfinds
    cases he : (Memory.answer ⟨ctx.regressionRepository, .logs job.id⟩ m).1 with
    | ok text =>
      rw [hsome job hjob, he] at hmem
      cases hmem
    | error e => exact hno ⟨job, e, hjob, he⟩
  · rintro ⟨job, e, hjob, he⟩
    refine ⟨job.name, e.message, ?_⟩
    rw [hsome job hjob, he]
    exact List.mem_singleton_self _

/-- A run of a job whose logs cannot be fetched ends as it does with logs, but for a warning. -/
theorem regression_without_logs :
    let ctx : Context := ⟨⟨"acme", "notify-api"⟩, {}, ⟨some "output", some "summary"⟩, false,
      .plain, 0, false⟩
    let listed : WorkflowRun := ⟨7, some "queued", none, ""⟩
    let completed : WorkflowRun := ⟨7, some "completed", some "failure", "https://example.com/7"⟩
    let m : Memory := {
      listings := [[listed]]
      states := [completed]
      jobs := [⟨1, "Test in qa", some "failure"⟩]
      failing := [.logs] }
    let run := (regression ctx "qa").run Memory.host m {}
    let run' := (regression ctx "qa").run Memory.host
      { m with logs := [(1, "assertion failed")], failing := [] } {}
    (∀ op ≠ Forge.Operation.logs, op ∈ [] ↔ op ∈ m.failing) ∧ run'.1 = run.1 ∧
      run.2.2.warnings = ["⚠ WARNING: Could not fetch logs for job 'Test in qa': " ++
        "GitHub API error: 500 - download_job_logs failed\n"] := by
  intro ctx listed completed m run run'
  have hfailing : ∀ op ≠ Forge.Operation.logs, op ∈ [] ↔ op ∈ m.failing :=
    fun op hop => ⟨fun h => absurd h List.not_mem_nil, fun h => absurd (List.mem_singleton.1 h) hop⟩
  obtain ⟨houtcome, -, -, lines, hlines, -, hwarned⟩ :=
    regression_ignores_logs ctx "qa" m {} [(1, "assertion failed")] [] hfailing
  have hjob : FindsJob ctx "qa" m {} ⟨1, "Test in qa", some "failure"⟩ :=
    ⟨rfl, ⟨(listed, completed), by decide⟩, by decide, by decide⟩
  refine ⟨hfailing, houtcome, ?_⟩
  rw [hlines, hwarned _ _ hjob rfl]
  decide

end Workflow

end ReleaseFlow
