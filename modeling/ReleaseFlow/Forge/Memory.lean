import ReleaseFlow.Forge.Service
import ReleaseFlow.World

/-!
# A hosting service in memory

A hosting service that lives in one value: it is set up, it answers, and it records what was asked
of it. Each operation can be made to fail.

* `Memory`: the state;
* `Memory.takeNext`: queued answers, the last of which repeats;
* `Memory.answer`: the answer to a question, and the state after it;
* `Memory.host`: the service of flows.
-/

namespace ReleaseFlow

/-- Something that was asked for and leaves a trace. -/
inductive Forge.Mark where
  | updateVariable (name value : String)
  | createTagObject (tag message sha : String)
  | createRef (ref sha : String)
  | generateNotes (request : NotesRequest)
  | createRelease (release : NewRelease)
  | dispatch (repository : Repository) (workflow ref : String) (inputs : List (String × String))
  deriving DecidableEq, Repr

/-- The state of a hosting service in memory. -/
structure Memory where
  /-- The pull requests of commits. -/
  pulls : List (String × List PullRequest) := []
  /-- The variables of the repositories. -/
  values : List (String × String) := []
  /-- The commits that refs stand for. -/
  commits : List (String × String) := []
  notes : String := "## What's Changed"
  /-- The answers about runs of a workflow to come. -/
  listings : List (List WorkflowRun) := []
  /-- The answers about a single run to come. -/
  states : List WorkflowRun := []
  jobs : List Job := []
  /-- The logs of jobs. -/
  logs : List (UInt64 × String) := []
  /-- The operations that fail. -/
  failing : List Forge.Operation := []
  /-- What was asked for, the oldest first. -/
  marks : List Forge.Mark := []
  deriving DecidableEq, Repr

namespace Memory

/-- The list with the value of a key set. -/
def set {κ υ : Type} (key : κ) (value : υ) (entries : List (κ × υ)) : List (κ × υ) :=
  (key, value) :: entries

/-- The front of a queue, and the queue after it was read: its last entry stays. -/
def takeNext {α : Type} : List α → Option α × List α
  | [] => (none, [])
  | [a] => (some a, [a])
  | a :: b :: rest => (some a, b :: rest)

def mark (m : Memory) (x : Forge.Mark) : Memory :=
  { m with marks := m.marks ++ [x] }

/-! ## Setting up -/

def setVariable (name value : String) (m : Memory) : Memory :=
  { m with values := set name value m.values }

def setCommit (ref sha : String) (m : Memory) : Memory :=
  { m with commits := set ref sha m.commits }

def setPulls (sha : String) (pulls : List PullRequest) (m : Memory) : Memory :=
  { m with pulls := set sha pulls m.pulls }

/-- Queues an answer about the runs of a workflow. -/
def pushListing (runs : List WorkflowRun) (m : Memory) : Memory :=
  { m with listings := m.listings ++ [runs] }

/-- Queues an answer about a single run. -/
def pushState (run : WorkflowRun) (m : Memory) : Memory :=
  { m with states := m.states ++ [run] }

def setLogs (job : UInt64) (text : String) (m : Memory) : Memory :=
  { m with logs := set job text m.logs }

/-- Makes an operation fail from now on. -/
def failOn (operation : Forge.Operation) (m : Memory) : Memory :=
  { m with failing := operation :: m.failing }

/-! ## Answering -/

/-- The answer to a question whose operation does not fail. -/
def reply (repository : Repository) :
    (q : Forge.Query) → Memory → Except Failure q.Answer × Memory
  | .pullRequests sha, m => (.ok ((m.pulls.lookup sha).getD []), m)
  | .getVariable name, m =>
    match m.values.lookup name with
    | some value => (.ok value, m)
    | none => (.error (.api 404 "Not Found"), m)
  | .updateVariable name value, m =>
    (.ok (), (m.setVariable name value).mark (.updateVariable name value))
  | .commitSha ref, m =>
    match m.commits.lookup ref with
    | some sha => (.ok sha, m)
    | none => (.error (.api 422 ("No commit found for SHA: " ++ ref)), m)
  | .createTagObject tag message sha, m =>
    (.ok ("tagobj-" ++ tag), m.mark (.createTagObject tag message sha))
  | .createRef ref sha, m => (.ok (), m.mark (.createRef ref sha))
  | .generateNotes request, m => (.ok m.notes, m.mark (.generateNotes request))
  | .createRelease release, m =>
    (.ok ("https://github.com/" ++ repository.owner ++ "/" ++ repository.name ++
      "/releases/tag/untagged-" ++ release.tag), m.mark (.createRelease release))
  | .dispatch workflow ref inputs, m =>
    (.ok (), m.mark (.dispatch repository workflow ref inputs))
  | .runs _ _, m =>
    let (listing, rest) := takeNext m.listings
    (.ok (listing.getD []), { m with listings := rest })
  | .run id, m =>
    match takeNext m.states with
    | (some run, rest) => (.ok run, { m with states := rest })
    | (none, _) =>
      (.error (.api 404 ("Run " ++ Text.decimal id.toNat ++ " not found")), m)
  | .jobs _, m => (.ok m.jobs, m)
  | .logs id, m =>
    match m.logs.lookup id with
    | some text => (.ok text, m)
    | none => (.error (.api 410 "Logs expired"), m)

/-- The answer to a question, and the state after it. A failing operation changes nothing. -/
def answer (c : Forge.Call) (m : Memory) : Except Failure c.query.Answer × Memory :=
  if m.failing.contains c.query.operation then
    (.error (.api 500 (c.query.operation.text ++ " failed")), m)
  else reply c.repository c.query m

/-- The service in memory as a service of flows. -/
def host : Host Forge.service Memory :=
  answer

end Memory

end ReleaseFlow
