import ReleaseFlow.Calendar
import ReleaseFlow.Json
import ReleaseFlow.Repository

/-!
# The hosting service

What the workflows ask of the service that hosts the repositories, and what it answers.

* `PullRequest`, `WorkflowRun`, `Job`: what it tells;
* `NotesRequest`, `NewRelease`: what it is given;
* `Forge.Query`, `Forge.Query.Answer`: the thirteen questions and the type of each answer;
* `Forge.Operation`: the questions without their contents.
-/

namespace ReleaseFlow

structure PullRequest where
  number : UInt64
  url : String
  labels : List String
  deriving DecidableEq, Repr

/-- A run of a workflow. -/
structure WorkflowRun where
  id : UInt64
  status : Option String := none
  conclusion : Option String := none
  url : String := ""
  deriving DecidableEq, Repr

/-- The run has come to its end. -/
def WorkflowRun.isCompleted (run : WorkflowRun) : Bool :=
  run.status == some "completed"

/-- A job of a workflow run. -/
structure Job where
  id : UInt64
  name : String
  conclusion : Option String := none
  deriving DecidableEq, Repr

/-- What release notes are to be written about. -/
structure NotesRequest where
  tag : String
  previousTag : Option String
  configPath : String
  deriving DecidableEq, Repr

/-- A release to be created. -/
structure NewRelease where
  tag : String
  name : String
  body : String
  draft : Bool
  prerelease : Bool
  deriving DecidableEq, Repr

namespace Forge

/-- A question to the service. -/
inductive Query where
  /-- The pull requests of a commit, the most relevant first. -/
  | pullRequests (sha : String)
  | getVariable (name : String)
  | updateVariable (name value : String)
  /-- The commit that a ref stands for. -/
  | commitSha (ref : String)
  /-- A new annotated tag of a commit; the answer is the object's own name. -/
  | createTagObject (tag message sha : String)
  | createRef (ref sha : String)
  | generateNotes (request : NotesRequest)
  /-- A new release; the answer is its page. -/
  | createRelease (release : NewRelease)
  | dispatch (workflow ref : String) (inputs : List (String × String))
  /-- The runs of a workflow that were created at an instant or later, the newest first. -/
  | runs (workflow : String) (since : Instant)
  | run (id : UInt64)
  | jobs (runId : UInt64)
  | logs (jobId : UInt64)
  deriving DecidableEq, Repr

/-- The type of the answer to a question. -/
abbrev Query.Answer : Query → Type
  | pullRequests _ => List PullRequest
  | getVariable _ => String
  | updateVariable _ _ => Unit
  | commitSha _ => String
  | createTagObject _ _ _ => String
  | createRef _ _ => Unit
  | generateNotes _ => String
  | createRelease _ => String
  | dispatch _ _ _ => Unit
  | runs _ _ => List WorkflowRun
  | run _ => WorkflowRun
  | jobs _ => List Job
  | logs _ => String

/-- A question about a repository. -/
structure Call where
  repository : Repository
  query : Query
  deriving DecidableEq, Repr

/-- The kinds of question. -/
inductive Operation where
  | pullRequests
  | getVariable
  | updateVariable
  | commitSha
  | createTagObject
  | createRef
  | generateNotes
  | createRelease
  | dispatch
  | runs
  | run
  | jobs
  | logs
  deriving DecidableEq, Repr

def Query.operation : Query → Operation
  | pullRequests _ => .pullRequests
  | getVariable _ => .getVariable
  | updateVariable _ _ => .updateVariable
  | commitSha _ => .commitSha
  | createTagObject _ _ _ => .createTagObject
  | createRef _ _ => .createRef
  | generateNotes _ => .generateNotes
  | createRelease _ => .createRelease
  | dispatch _ _ _ => .dispatch
  | runs _ _ => .runs
  | run _ => .run
  | jobs _ => .jobs
  | logs _ => .logs

/-- The name by which a message calls the kind. -/
def Operation.text : Operation → String
  | pullRequests => "list_pull_requests_for_commit"
  | getVariable => "get_variable"
  | updateVariable => "update_variable"
  | commitSha => "get_commit_sha"
  | createTagObject => "create_tag_object"
  | createRef => "create_ref"
  | generateNotes => "generate_release_notes"
  | createRelease => "create_release"
  | dispatch => "dispatch_workflow"
  | runs => "list_workflow_runs"
  | run => "get_workflow_run"
  | jobs => "list_jobs"
  | logs => "download_job_logs"

def Operation.all : List Operation :=
  [pullRequests, getVariable, updateVariable, commitSha, createTagObject, createRef,
    generateNotes, createRelease, dispatch, runs, run, jobs, logs]

end Forge

/-! ## Records -/

/-- The name of a label's record. -/
def labelName? (j : Json) : Option String :=
  if j.isRecord 1 then j.required Json.text? "name" 0 else none

def PullRequest.ofJson? (j : Json) : Option PullRequest := do
  guard (j.isRecord 3)
  return {
    number := ← j.required Json.word? "number" 0
    url := ← j.required Json.text? "html_url" 1
    labels := ← j.optional (Json.list? labelName?) [] "labels" 2 }

def WorkflowRun.ofJson? (j : Json) : Option WorkflowRun := do
  guard (j.isRecord 4)
  return {
    id := ← j.required Json.word? "id" 0
    status := ← j.optional Json.nullableText? none "status" 1
    conclusion := ← j.optional Json.nullableText? none "conclusion" 2
    url := ← j.optional Json.text? "" "html_url" 3 }

def Job.ofJson? (j : Json) : Option Job := do
  guard (j.isRecord 3)
  return {
    id := ← j.required Json.word? "id" 0
    name := ← j.required Json.text? "name" 1
    conclusion := ← j.optional Json.nullableText? none "conclusion" 2 }

/-- The record of a request for release notes. -/
def NotesRequest.toJson (r : NotesRequest) : Json :=
  .ofMembers
    ([("tag_name", .ofText r.tag)] ++
      (r.previousTag.toList.map fun tag => ("previous_tag_name", .ofText tag)) ++
      [("configuration_file_path", .ofText r.configPath)])

/-- The record of a new release. -/
def NewRelease.toJson (r : NewRelease) : Json :=
  .ofMembers
    [("tag_name", .ofText r.tag), ("name", .ofText r.name), ("body", .ofText r.body),
      ("draft", .bool r.draft), ("prerelease", .bool r.prerelease)]

end ReleaseFlow
