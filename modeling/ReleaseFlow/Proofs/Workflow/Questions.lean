import ReleaseFlow.Proofs.Runner.Reports
import ReleaseFlow.Proofs.Workflow.Merge
import ReleaseFlow.Workflow.Notes
import ReleaseFlow.Workflow.Regression

/-!
# The questions of the workflows

Which kinds of question each workflow can ask, whatever the replies.

* `Forge.Among`: questions of some kinds;
* `Wait.poll_acts`: the steps of a wait are those of its tries, and looks at the clock;
* `mergeData_asks`, `createTag_asks`, `createNotes_asks`, `regression_asks`: **the kinds of question
  of each workflow**, fewer when nothing may be changed.
-/

namespace ReleaseFlow

/-- The question is of one of the kinds. -/
def Forge.Among (kinds : List Forge.Operation) (c : Forge.Call) : Prop :=
  c.query.operation ∈ kinds

open ReleaseFlow.Flow

/-! ## Waits and reports -/

section Parts

variable {S : Service} {α : Type}

section Waits

variable {P : Act S → Prop} (hlog : ∀ level text, P (.log level text)) (huptime : P .uptime)
  (hsleep : ∀ span, P (.sleep span)) (wait : Wait) {attempt : Flow S (Option α)}
  (h : attempt.Acts P)

include hlog huptime hsleep h

theorem Wait.loop_acts (deadline : Option Nat) (left : Nat) (made : UInt32) :
    (wait.loop deadline attempt left made).Acts P := by
  induction left generalizing made with
  | zero => exact trivial
  | succ left ih =>
    rw [loop]
    split
    · exact trivial
    refine h.bind fun value => ?_
    cases value with
    | some value => exact (acts_log (hlog _ _)).bind fun _ => trivial
    | none =>
      cases deadline with
      | none => exact (acts_sleep (hsleep _)).bind fun _ => ih _
      | some d =>
        refine (acts_uptime huptime).bind fun now => ?_
        split
        · exact trivial
        · exact (acts_sleep (hsleep _)).bind fun _ => ih _

theorem Wait.poll_acts : (wait.poll attempt).Acts P :=
  (acts_uptime huptime).bind fun _ => wait.loop_acts hlog huptime hsleep h _ _ _

end Waits

variable {P : S.Query → Prop}

theorem Runner.setOutput_asks (r : Runner) (name value : String) :
    (r.setOutput name value : Flow S Unit).Asks P :=
  r.setOutput_acts (fun _ _ => Act.silent rfl) fun _ _ _ _ => Act.silent rfl

theorem Runner.appendSummary_asks (r : Runner) (markdown : String) :
    (r.appendSummary markdown : Flow S Unit).Asks P :=
  r.appendSummary_acts (fun _ _ => Act.silent rfl) fun _ _ => Act.silent rfl

theorem Runner.tellAll_asks (r : Runner) (reports : List Report) :
    (r.tellAll reports : Flow S Unit).Asks P := by
  induction reports with
  | nil => exact trivial
  | cons report reports ih =>
    refine Flow.Acts.bind ?_ fun _ => ih
    cases report with
    | output name value => exact r.setOutput_asks name value
    | summary markdown => exact r.appendSummary_asks markdown

end Parts

theorem Forge.query_asks {kinds : List Forge.Operation} (repository : Repository)
    {q : Forge.Query} (h : q.operation ∈ kinds) :
    (Forge.query repository q).Asks (Forge.Among kinds) :=
  asks_ask (S := Forge.service) (q := ⟨repository, q⟩) h

/-! ## The workflows -/

namespace Workflow

variable (ctx : Context)

theorem mergeData_asks (sha : String) :
    (mergeData ctx sha).Asks (Forge.Among [.pullRequests, .getVariable, .commitSha]) := by
  rw [mergeData_eq]
  refine (Forge.query_asks _ (by simp [Forge.Query.operation])).bind fun pulls => ?_
  refine (Forge.query_asks _ (by simp [Forge.Query.operation])).bind fun stored => ?_
  refine (Forge.query_asks _ (by simp [Forge.Query.operation])).bind fun head => ?_
  exact (mergeDecision_tells ctx sha pulls stored head).asks_of_tells

theorem previewTag_asks (d : MergeData) (tag : String) {P : Forge.Call → Prop} :
    (previewTag ctx d tag).Asks P := by
  refine (acts_print (Act.silent rfl)).bind fun _ => ?_
  exact (acts_print (Act.silent rfl)).bind fun _ => acts_print (Act.silent rfl)

variable {ctx} in
theorem createTag_asks (sha : String) (hdry : ctx.dryRun = true) :
    (createTag ctx sha).Asks (Forge.Among [.pullRequests, .getVariable, .commitSha]) := by
  simp only [createTag, hdry]
  refine (acts_ofExcept _).bind fun pattern => (mergeData_asks ctx sha).bind fun d => ?_
  refine (previewTag_asks ctx d _).bind fun _ => (ctx.runner.setOutput_asks _ _).bind fun _ => ?_
  exact (ctx.runner.setOutput_asks _ _).bind fun _ => (ctx.runner.setOutput_asks _ _).bind
    fun _ => trivial

theorem publishNotes_asks (tag title notes : String) (previous : Option String) :
    (publishNotes ctx tag title notes previous).Asks (Forge.Among [.createRelease]) := by
  refine (Forge.query_asks _ (by simp [Forge.Query.operation])).bind fun url => ?_
  refine (acts_print (Act.silent rfl)).bind fun _ => ?_
  refine (ctx.runner.setOutput_asks _ _).bind fun _ => ?_
  exact (ctx.runner.appendSummary_asks _).bind fun _ => trivial

theorem createNotes_asks (previous : Option String) (date : Date) :
    (createNotes ctx previous date).Asks (Forge.Among
      ([.getVariable, .generateNotes] ++ if ctx.dryRun then [] else [.createRelease])) := by
  simp only [createNotes]
  refine (acts_ofExcept _).bind fun pattern => ?_
  refine (Forge.query_asks _ (by simp [Forge.Query.operation])).bind fun stored => ?_
  refine (acts_ofExcept _).bind fun current => (acts_ofExcept _).bind fun previousTag => ?_
  refine ctx.warning_if_acts (Act.silent rfl) fun _ => ?_
  refine (Forge.query_asks _ (by simp [Forge.Query.operation])).bind fun notes => ?_
  refine (acts_log (Act.silent rfl)).bind fun _ => ?_
  cases hdry : ctx.dryRun with
  | true =>
    refine (acts_print (Act.silent rfl)).bind fun _ => ?_
    exact (acts_log (Act.silent rfl)).bind fun _ => trivial
  | false =>
    refine ((publishNotes_asks ctx _ _ _ _).mono fun c hc => ?_).bind fun url =>
      (acts_log (Act.silent rfl)).bind fun _ => trivial
    exact List.mem_append_right _ hc

theorem showLogs_asks (job : Job) : (showLogs ctx job).Asks (Forge.Among [.jobs, .logs]) := by
  refine (asks_tryAsk (S := Forge.service) ?_).bind fun logs => ?_
  · simp [Forge.Among, Forge.Query.operation]
  · split
    · exact acts_log (Act.silent rfl)
    · exact acts_warn (Act.silent rfl)

theorem reportRun_asks (result : RegressionResult) {P : Forge.Call → Prop} :
    (reportRun ctx result).Asks P := by
  refine (ctx.runner.setOutput_asks _ _).bind fun _ => ?_
  refine (ctx.runner.appendSummary_asks _).bind fun _ => ?_
  split
  · exact (acts_print (Act.silent rfl)).bind fun _ => trivial
  · exact trivial

theorem concludeRun_asks (jobName : String) (id : UInt64) (completed : WorkflowRun) :
    (concludeRun ctx jobName id completed).Asks (Forge.Among [.jobs, .logs]) := by
  refine (acts_log (Act.silent rfl)).bind fun _ => (acts_log (Act.silent rfl)).bind fun _ => ?_
  refine (Forge.query_asks _ (by simp [Forge.Query.operation])).bind fun jobs => ?_
  split
  · exact (acts_warn (Act.silent rfl)).bind fun _ => trivial
  · exact (showLogs_asks ctx _).bind fun _ => reportRun_asks ctx _

/-- What follows when a regression run was found. -/
def finishRun (environment : String) (started : Nat) (id : UInt64) :
    Flow Forge.service (Option RegressionResult) := do
  let completed ← awaitCompletion ctx started id
  let result ← concludeRun ctx (ctx.config.regression.jobNameFor environment) id completed
  return some result

/-- What follows when a regression run was asked for. -/
def followRun (environment : String) (started : Nat) (since : Instant) :
    Flow Forge.service (Option RegressionResult) := do
  let run ← awaitStart ctx started since
  Flow.log .info ("Triggered workflow run ID: " ++ Text.decimal run.id.toNat)
  finishRun ctx environment started run.id

section Waits

variable {P : Act Forge.service → Prop} (hlog : ∀ level text, P (.log level text))
  (huptime : P .uptime) (hsleep : ∀ span, P (.sleep span))

include hlog huptime hsleep

theorem awaitStart_acts {started : Nat} {since : Instant}
    (hask : P (.ask ⟨ctx.regressionRepository, .runs ctx.config.regression.workflow since⟩)) :
    (awaitStart ctx started since).Acts P := by
  refine (acts_uptime huptime).bind fun _ => Wait.poll_acts hlog huptime hsleep _ ?_
  exact (acts_ask hask).bind fun _ => trivial

theorem awaitCompletion_acts {started : Nat} {id : UInt64}
    (hask : P (.ask ⟨ctx.regressionRepository, .run id⟩)) :
    (awaitCompletion ctx started id).Acts P := by
  refine (acts_uptime huptime).bind fun _ => Wait.poll_acts hlog huptime hsleep _ ?_
  exact (acts_ask hask).bind fun _ => (acts_log (hlog _ _)).bind fun _ => trivial

end Waits

theorem awaitStart_asks {P : Forge.Call → Prop} {started : Nat} {since : Instant}
    (h : P ⟨ctx.regressionRepository, .runs ctx.config.regression.workflow since⟩) :
    (awaitStart ctx started since).Asks P :=
  awaitStart_acts ctx (fun _ _ => Act.silent rfl) (Act.silent rfl) (fun _ => Act.silent rfl)
    fun _ hc => by cases hc; exact h

theorem awaitCompletion_asks {P : Forge.Call → Prop} {started : Nat} {id : UInt64}
    (h : P ⟨ctx.regressionRepository, .run id⟩) : (awaitCompletion ctx started id).Asks P :=
  awaitCompletion_acts ctx (fun _ _ => Act.silent rfl) (Act.silent rfl)
    (fun _ => Act.silent rfl) fun _ hc => by cases hc; exact h

theorem followRun_asks (environment : String) (started : Nat) (since : Instant) :
    (followRun ctx environment started since).Asks (Forge.Among [.runs, .run, .jobs, .logs]) := by
  refine (awaitStart_asks ctx (by simp [Forge.Among, Forge.Query.operation])).bind fun run =>
    (acts_log (Act.silent rfl)).bind fun _ => ?_
  refine (awaitCompletion_asks ctx (by simp [Forge.Among, Forge.Query.operation])).bind
    fun completed => Flow.Acts.bind ?_ fun result => trivial
  exact (concludeRun_asks ctx _ _ _).mono fun c hc =>
    List.mem_append_right [Forge.Operation.runs, .run] hc

theorem regression_asks (environment : String) :
    (regression ctx environment).Asks (Forge.Among
      (if ctx.dryRun then [] else [.dispatch, .runs, .run, .jobs, .logs])) := by
  unfold regression
  cases hdry : ctx.dryRun with
  | true => exact (acts_print (Act.silent rfl)).bind fun _ => trivial
  | false =>
    refine (acts_uptime (Act.silent rfl)).bind fun started => ?_
    refine (acts_now (Act.silent rfl)).bind fun since => ?_
    refine (acts_print (Act.silent rfl)).bind fun _ => ?_
    refine (Forge.query_asks _ (by simp [Forge.Query.operation])).bind fun _ => ?_
    refine (acts_sleep (Act.silent rfl)).bind fun _ => ?_
    exact (followRun_asks ctx environment started since).mono fun c hc =>
      List.mem_append_right [Forge.Operation.dispatch] hc

end Workflow

end ReleaseFlow
