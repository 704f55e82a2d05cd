import ReleaseFlow.Proofs.Flow.Asked
import ReleaseFlow.Proofs.TagPattern.Form
import ReleaseFlow.Proofs.Text.Places
import ReleaseFlow.Proofs.Workflow.JobLogs

/-!
# The job of an environment

The name of a job has places for the environment, so that jobs of different environments have
different names. A regression run reports the first job with the name of its own environment.

* `environmentMark`, `jobNameFor_fill`, `jobNameFor_injective`: the name of a job as a template;
* `find?_named_eq_some_iff`: the first job with a name;
* `LooksUp`: how a regression run comes to its job, by what it asks; `LooksUp.named`: that job has
  the name;
* `concludeRun_looksUp`: the look-up of a completed run;
* `regression_reports_own_job`: **the job that is reported is the one of the environment**.
-/

namespace ReleaseFlow

open ReleaseFlow.Flow hiding bind_assoc

/-! ## Names of jobs -/

/-- The placeholder for the environment. -/
def environmentMark : List Char := "\x7benvironment\x7d".toList

theorem environmentMark_eq : environmentMark = '\x7b' :: "environment\x7d".toList := by
  decide

namespace RegressionSettings

variable (settings : RegressionSettings)

/-- The pieces of the job name around the placeholders. -/
def jobTemplate : Template :=
  Template.ofChars environmentMark settings.jobName.toList

theorem jobNameFor_fill (environment : String) :
    (settings.jobNameFor environment).toList = settings.jobTemplate.fill environment.toList :=
  String.toList_ofList

/-- The pieces are the only ones without a placeholder that make the job name. -/
theorem isReading_jobTemplate (t : Template) :
    t.IsReading environmentMark settings.jobName.toList ↔ t = settings.jobTemplate := by
  rw [jobTemplate, environmentMark_eq]
  exact Template.isReading_iff (by decide) _ t

theorem jobNameFor_injective (h : environmentMark <:+: settings.jobName.toList) :
    Function.Injective settings.jobNameFor := by
  have hmark : environmentMark ≠ [] := by decide
  have hplaces : 0 < settings.jobTemplate.places :=
    (Template.places_ofChars_pos_iff hmark _).2 h
  intro e₁ e₂ heq
  have hfill := congrArg String.toList heq
  rw [jobNameFor_fill, jobNameFor_fill] at hfill
  exact String.toList_inj.1 (Template.fill_injective _ hplaces hfill)

end RegressionSettings

theorem find?_named_eq_some_iff {jobs : List Job} {name : String} {job : Job} :
    jobs.find? (·.name == name) = some job ↔ job.name = name ∧
      ∃ ahead behind, jobs = ahead ++ job :: behind ∧ ∀ other ∈ ahead, other.name ≠ name := by
  simp [List.find?_eq_some_iff_append]

namespace Workflow

variable {σ : Type} (ctx : Context) (name : String) (host : Host Forge.service σ) (s : σ)

/-- The service after some questions. -/
def serviceAfter (asked : List Forge.Call) : σ :=
  asked.foldl (fun s c => (host c s).2) s

/-- The questions that come before the look-up of the job. -/
def aboutRuns : List Forge.Operation :=
  [.dispatch, .runs, .run]

/-- How a regression run comes to the job that it reports: once its run is completed it asks for the
jobs, and then for the logs of the first one with the name. The indices are the job, all that was
asked, and the run. -/
inductive LooksUp : Option Job → List Forge.Call →
    Outcome (Option RegressionResult) × σ × World → Prop
  /-- The run has no result, and no job was asked for. -/
  | early {asked : List Forge.Call} {run : Outcome (Option RegressionResult) × σ × World} :
    (∀ c ∈ asked, Forge.Among aboutRuns c) → (∀ result, run.1 ≠ .done (some result)) →
    LooksUp none asked run
  /-- The jobs are not told. -/
  | untold {before : List Forge.Call} {id : UInt64} {failure : Failure} {s₁ : σ}
      {run : Outcome (Option RegressionResult) × σ × World} :
    (∀ c ∈ before, Forge.Among aboutRuns c) →
    host ⟨ctx.regressionRepository, .jobs id⟩ (serviceAfter host s before) =
      (.error failure, s₁) →
    run.1 = .failed failure →
    LooksUp none (before ++ [⟨ctx.regressionRepository, .jobs id⟩]) run
  /-- No job has the name, of which there is a warning. -/
  | missing {before : List Forge.Call} {id : UInt64} {jobs : List Job} {s₁ : σ}
      {run : Outcome (Option RegressionResult) × σ × World} {url : String}
      {conclusion : Option String} :
    (∀ c ∈ before, Forge.Among aboutRuns c) →
    host ⟨ctx.regressionRepository, .jobs id⟩ (serviceAfter host s before) = (.ok jobs, s₁) →
    (∀ job ∈ jobs, job.name ≠ name) →
    run.1 = .done (some ⟨id, url, conclusion, false⟩) →
    .warn (Console.warningLine ctx.palette (.jobNotFound name url)) ∈ run.2.2.record →
    LooksUp none (before ++ [⟨ctx.regressionRepository, .jobs id⟩]) run
  /-- The first job with the name is reported: what its id gives is shown. -/
  | found {before : List Forge.Call} {id : UInt64} {ahead behind : List Job} {job : Job} {s₁ s₂ : σ}
      {logs : Except Failure String} {run : Outcome (Option RegressionResult) × σ × World} :
    (∀ c ∈ before, Forge.Among aboutRuns c) →
    host ⟨ctx.regressionRepository, .jobs id⟩ (serviceAfter host s before) =
      (.ok (ahead ++ job :: behind), s₁) →
    (∀ other ∈ ahead, other.name ≠ name) → job.name = name →
    host ⟨ctx.regressionRepository, .logs job.id⟩ s₁ = (logs, s₂) →
    logsShown ctx job logs ∈ run.2.2.record →
    (∀ result, run.1 = .done (some result) → result.runId = id ∧ result.jobFound = true) →
    LooksUp (some job) (before ++ [⟨ctx.regressionRepository, .jobs id⟩,
      ⟨ctx.regressionRepository, .logs job.id⟩]) run

variable {name host s}

theorem showLogs_asked (job : Job) (w : World) {logs : Except Failure String} {s₁ s₂ : σ}
    (h : host ⟨ctx.regressionRepository, .logs job.id⟩ s₁ = (logs, s₂)) :
    (showLogs ctx job).asked host s₁ w = [⟨ctx.regressionRepository, .logs job.id⟩] := by
  rw [showLogs, Forge.tryQuery, asked_tryAsk_bind (S := Forge.service) _ h]
  cases logs <;> rfl

theorem reportRun_done {result result' : RegressionResult} {s' : σ} {w w' : World}
    (h : (reportRun ctx result).run host s w = (.done result', s', w')) : result' = result := by
  obtain ⟨-, s₁, w₁, -, h⟩ := of_run_bind_done h
  obtain ⟨-, s₂, w₂, -, h⟩ := of_run_bind_done h
  split at h
  · obtain ⟨-, s₃, w₃, -, h⟩ := of_run_bind_done h
    cases h
    rfl
  · cases h

theorem concludeRun_looksUp {before : List Forge.Call}
    (hbefore : ∀ c ∈ before, Forge.Among aboutRuns c) (id : UInt64) (completed : WorkflowRun)
    (w : World) :
    let m := concludeRun ctx name id completed >>= fun result => pure (some result)
    ∃ reported, LooksUp ctx name host s reported
      (before ++ m.asked host (serviceAfter host s before) w)
      (m.run host (serviceAfter host s before) w) := by
  simp only [concludeRun, bind_assoc, run_log_bind, Forge.query]
  rw [asked_log_bind, asked_log_bind]
  rcases hlisting : host ⟨ctx.regressionRepository, .jobs id⟩ (serviceAfter host s before) with
    ⟨failure | jobs, s₁⟩
  · rw [asked_ask_bind_of_error (S := Forge.service) _ hlisting,
      run_ask_bind_of_error (S := Forge.service) _ hlisting]
    exact ⟨none, .untold hbefore hlisting rfl⟩
  rw [asked_ask_bind_of_ok (S := Forge.service) _ hlisting,
    run_ask_bind_of_ok (S := Forge.service) _ hlisting]
  cases hfind : jobs.find? (·.name == name) with
  | none =>
    have hnone : ∀ job ∈ jobs, job.name ≠ name := by simpa using hfind
    exact ⟨none, .missing hbefore hlisting hnone rfl List.mem_append_cons_self⟩
  | some job =>
    obtain ⟨hname, ahead, behind, hjobs, hahead⟩ := find?_named_eq_some_iff.1 hfind
    rw [hjobs] at hlisting
    rcases hlogs : host ⟨ctx.regressionRepository, .logs job.id⟩ s₁ with ⟨logs, s₂⟩
    dsimp only
    have hrun (w : World) := showLogs_run_of ctx job w hlogs
    rw [bind_assoc, asked_bind_of_done _ (hrun _), run_bind_of_done _ (hrun _), asked_bind_pure,
      (reportRun_asks ctx _).asked_eq_nil, showLogs_asked ctx job _ hlogs]
    refine ⟨some job, .found hbefore hlisting hahead hname hlogs ?_ fun result hdone => ?_⟩
    · exact (record_prefix_run host _ _ _).subset List.mem_append_cons_self
    · obtain ⟨result', s₃, w₃, hreport, hpure⟩ := of_run_bind_done (Prod.ext hdone rfl)
      cases hpure
      rw [reportRun_done ctx hreport]
      exact ⟨rfl, rfl⟩

variable {ctx} in
theorem LooksUp.named {reported : Option Job} {asked : List Forge.Call}
    {run : Outcome (Option RegressionResult) × σ × World}
    (h : LooksUp ctx name host s reported asked run) : ∀ job ∈ reported, job.name = name := by
  cases h with
  | found _ _ _ hname => exact fun _ hjob => Option.mem_some.1 hjob ▸ hname
  | _ => exact fun _ hjob => absurd hjob (Option.not_mem_none _)

variable (host s)

theorem untilCompleted_among (environment : String) (w : World) :
    ∀ c ∈ (untilCompleted ctx environment).asked host s w, Forge.Among aboutRuns c :=
  fun _ => Asks.of_mem_asked ((untilCompleted_acts ctx environment).asks fun _ h => h)

theorem regression_looksUp (environment : String) (w : World) :
    ∃ reported, LooksUp ctx (ctx.config.regression.jobNameFor environment) host s reported
      ((regression ctx environment).asked host s w)
      ((regression ctx environment).run host s w) := by
  have hamong := untilCompleted_among ctx host s environment w
  cases hdry : ctx.dryRun with
  | true =>
    rw [regression_eq_of_dry environment hdry]
    exact ⟨none, .early (fun _ h => absurd h List.not_mem_nil) fun _ h => by cases h⟩
  | false =>
    rw [regression_eq environment hdry]
    rcases hrun : (untilCompleted ctx environment).run host s w with
      ⟨⟨listed, completed⟩ | failure, s₁, w₁⟩
    · rw [asked_bind_of_done _ hrun, run_bind_of_done _ hrun]
      have hservice := run_service host (untilCompleted ctx environment) s w
      rw [hrun] at hservice
      subst hservice
      exact concludeRun_looksUp ctx hamong listed.id completed w₁
    · rw [asked_bind_of_failed _ hrun, run_bind_of_failed _ hrun]
      exact ⟨none, .early hamong fun _ h => by cases h⟩
    · rw [asked_bind_of_stalled _ hrun, run_bind_of_stalled _ hrun]
      exact ⟨none, .early hamong fun _ h => by cases h⟩

/-- **The job that is reported is the one of the environment.** The name of a job is the text of the
settings with the environment in place of every placeholder, read from the left; what stands in the
environment is not read again. If there is a placeholder, different environments give different
names. A run looks up the first job with the name for its environment, and asks for the logs of that
job by its id; it never reports a job that is named for another environment. -/
theorem regression_reports_own_job (e₁ e₂ : String) :
    (∃ t : Template, (∀ t' : Template,
        t'.IsReading environmentMark ctx.config.regression.jobName.toList ↔ t' = t) ∧
      ∀ e, (ctx.config.regression.jobNameFor e).toList = t.fill e.toList) ∧
    (environmentMark <:+: ctx.config.regression.jobName.toList →
      ctx.config.regression.jobNameFor e₁ = ctx.config.regression.jobNameFor e₂ → e₁ = e₂) ∧
    ∀ {σ : Type} (host : Host Forge.service σ) (s : σ) (w : World), ∃ reported,
      LooksUp ctx (ctx.config.regression.jobNameFor e₁) host s reported
        ((regression ctx e₁).asked host s w) ((regression ctx e₁).run host s w) ∧
      ∀ job ∈ reported, environmentMark <:+: ctx.config.regression.jobName.toList → e₁ ≠ e₂ →
        job.name ≠ ctx.config.regression.jobNameFor e₂ := by
  have hinjective := ctx.config.regression.jobNameFor_injective
  refine ⟨⟨ctx.config.regression.jobTemplate, ctx.config.regression.isReading_jobTemplate,
    ctx.config.regression.jobNameFor_fill⟩, fun hmark heq => hinjective hmark heq,
    fun host s w => ?_⟩
  obtain ⟨reported, hlooks⟩ := regression_looksUp ctx host s e₁ w
  refine ⟨reported, hlooks, fun job hjob hmark hne hname => hne ?_⟩
  exact hinjective hmark ((hlooks.named job hjob).symm.trans hname)

/-- The job of another environment is listed first, and it is not the one that is reported. -/
theorem regression_reports_job_of_qa :
    let ctx : Context := ⟨⟨"acme", "notify-api"⟩, {}, ⟨some "output", some "summary"⟩, false,
      .plain, 0, false⟩
    let m : Memory := {
      listings := [[⟨7, some "queued", none, ""⟩]]
      states := [⟨7, some "completed", some "success", "https://example.com/7"⟩]
      jobs := [⟨1, "Test in prod", some "failure"⟩, ⟨2, "Test in qa", some "success"⟩] }
    let asked := (regression ctx "qa").asked Memory.host m {}
    environmentMark <:+: ctx.config.regression.jobName.toList ∧ "qa" ≠ "prod" ∧
      asked.drop 3 = [⟨⟨"acme", "notify-api"⟩, .jobs 7⟩, ⟨⟨"acme", "notify-api"⟩, .logs 2⟩] ∧
      ∃ reported, LooksUp ctx "Test in qa" Memory.host m reported asked
        ((regression ctx "qa").run Memory.host m {}) ∧
      ∀ job ∈ reported, job.name ≠ "Test in prod" := by
  intro ctx m asked
  have hmark : environmentMark <:+: ctx.config.regression.jobName.toList := by decide
  have hqa : ctx.config.regression.jobNameFor "qa" = "Test in qa" := by decide
  have hprod : ctx.config.regression.jobNameFor "prod" = "Test in prod" := by decide
  obtain ⟨-, -, h⟩ := regression_reports_own_job ctx "qa" "prod"
  obtain ⟨reported, hlooks, hother⟩ := h Memory.host m {}
  rw [hqa] at hlooks
  rw [hprod] at hother
  exact ⟨hmark, by decide, by decide, reported, hlooks,
    fun job hjob => hother job hjob hmark (by decide)⟩

end Workflow

end ReleaseFlow
