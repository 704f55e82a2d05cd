import ReleaseFlow.Proofs.Runner.Reports
import ReleaseFlow.Proofs.Workflow.Merge
import ReleaseFlow.Workflow.Notes
import ReleaseFlow.Workflow.Regression

/-!
# Steps of workflows that may change nothing

* `Act.Careful`: a step that reads, asks for notes, tells an output, or writes to the console;
* `createTag_careful`, `createNotes_careful`, `regression_careful`: **all steps of the workflows are
  of this kind when nothing may be changed**; `mergeData_careful`: the data of a merge is always
  found in this way.
-/

namespace ReleaseFlow

/-- The questions of workflows that may change nothing: those that read, and the one for notes. -/
def Forge.Operation.careful : List Forge.Operation :=
  [pullRequests, getVariable, commitSha, generateNotes]

/-- A step that changes nothing but the outputs: what it asks about the repository is read or is
the notes, and what it appends is an output. -/
def Act.Careful (ctx : Context) : Act Forge.service → Prop
  | .ask (c : Forge.Call) =>
    c.repository = ctx.repository ∧ c.query.operation ∈ Forge.Operation.careful
  | .appendFile path text =>
    ctx.runner.outputFile = some path ∧ ∃ name value, outputEntry name value = .ok text
  | _ => True

open ReleaseFlow.Flow

variable (ctx : Context)

theorem Forge.query_careful {q : Forge.Query}
    (h : Forge.Operation.careful.contains q.operation = true) :
    (Forge.query ctx.repository q).Acts (Act.Careful ctx) :=
  acts_ask (S := Forge.service) (q := ⟨ctx.repository, q⟩) ⟨rfl, by simpa using h⟩

theorem Runner.setOutput_careful (name value : String) :
    (ctx.runner.setOutput name value).Acts (Act.Careful ctx) :=
  ctx.runner.setOutput_acts (fun _ _ => trivial) fun _ _ hpath hentry =>
    ⟨hpath, name, value, hentry⟩

variable {ctx} in
theorem Act.Tells.careful {act : Act Forge.service} (h : act.Tells) : act.Careful ctx := by
  cases act with
  | print text => exact trivial
  | warn text => exact trivial
  | log level text => exact trivial
  | _ => exact h.elim

namespace Workflow

theorem mergeData_careful (sha : String) : (mergeData ctx sha).Acts (Act.Careful ctx) := by
  rw [mergeData_eq]
  refine (Forge.query_careful ctx rfl).bind fun pulls => ?_
  refine (Forge.query_careful ctx rfl).bind fun stored => ?_
  refine (Forge.query_careful ctx rfl).bind fun head => ?_
  exact (mergeDecision_tells ctx sha pulls stored head).mono fun _ => Act.Tells.careful

variable {ctx}

theorem createTag_careful (sha : String) (hdry : ctx.dryRun = true) :
    (createTag ctx sha).Acts (Act.Careful ctx) := by
  simp only [createTag, hdry]
  refine (acts_ofExcept _).bind fun pattern => (mergeData_careful ctx sha).bind fun d => ?_
  refine Acts.bind ?_ fun _ => (Runner.setOutput_careful ctx _ _).bind fun _ => ?_
  · exact (acts_print trivial).bind fun _ => (acts_print trivial).bind fun _ => acts_print trivial
  · exact (Runner.setOutput_careful ctx _ _).bind fun _ =>
      (Runner.setOutput_careful ctx _ _).bind fun _ => trivial

theorem createNotes_careful (previous : Option String) (date : Date) (hdry : ctx.dryRun = true) :
    (createNotes ctx previous date).Acts (Act.Careful ctx) := by
  simp only [createNotes, hdry]
  refine (acts_ofExcept _).bind fun pattern => ?_
  refine (Forge.query_careful ctx rfl).bind fun stored => ?_
  refine (acts_ofExcept _).bind fun current => (acts_ofExcept _).bind fun previousTag => ?_
  refine ctx.warning_if_acts trivial fun _ => ?_
  refine (Forge.query_careful ctx rfl).bind fun notes => ?_
  refine (acts_log trivial).bind fun _ => ?_
  exact (acts_print trivial).bind fun _ => (acts_log trivial).bind fun _ => trivial

theorem regression_eq_of_dry (environment : String) (hdry : ctx.dryRun = true) :
    regression ctx environment = (do
      ctx.status ("Dry run: would trigger " ++ ctx.config.regression.workflow ++ " on " ++
        ctx.regressionRepository.text ++ " (" ++ ctx.config.regression.ref ++ ")")
      return none) := by
  simp only [regression, hdry, if_true]

theorem regression_careful (environment : String) (hdry : ctx.dryRun = true) :
    (regression ctx environment).Acts (Act.Careful ctx) := by
  rw [regression_eq_of_dry environment hdry]
  exact (acts_print trivial).bind fun _ => trivial

end Workflow

end ReleaseFlow
