import ReleaseFlow.Forge.Memory
import ReleaseFlow.Proofs.Flow.Run
import ReleaseFlow.Workflow.Context

/-!
# Asking the service in memory

* `run_query_of_failing`, `run_query_of_ok`, `run_query_of_error`, `run_query`: runs that begin with
  a question;
* `Memory.Change`, `reply_change`, `answer_change`: **what a question can make of the memory**;
* `Context.run_status_bind`, `Context.run_warning_if`, …: lines for the user change only the record.
-/

namespace ReleaseFlow

/-- The kinds of question that leave a trace. -/
def Forge.Operation.marking : List Forge.Operation :=
  [updateVariable, createTagObject, createRef, generateNotes, createRelease, dispatch]

/-- The kind of question that leaves a trace. -/
def Forge.Mark.operation : Forge.Mark → Forge.Operation
  | .updateVariable _ _ => .updateVariable
  | .createTagObject _ _ _ => .createTagObject
  | .createRef _ _ => .createRef
  | .generateNotes _ => .generateNotes
  | .createRelease _ => .createRelease
  | .dispatch _ _ _ _ => .dispatch

theorem Forge.Mark.operation_mem_marking (x : Forge.Mark) :
    x.operation ∈ Forge.Operation.marking := by
  cases x <;> simp [operation, Forge.Operation.marking]

namespace Memory

variable {β : Type} {repository : Repository} {q : Forge.Query} {m m' : Memory} {w : World}

theorem reply_getVariable_some {name value : String} (h : m.values.lookup name = some value) :
    reply repository (.getVariable name) m = (.ok value, m) := by
  simp only [reply, h]

theorem reply_getVariable_none {name : String} (h : m.values.lookup name = none) :
    reply repository (.getVariable name) m = (.error (.api 404 "Not Found"), m) := by
  simp only [reply, h]

theorem reply_commitSha_some {ref sha : String} (h : m.commits.lookup ref = some sha) :
    reply repository (.commitSha ref) m = (.ok sha, m) := by
  simp only [reply, h]

theorem reply_commitSha_none {ref : String} (h : m.commits.lookup ref = none) :
    reply repository (.commitSha ref) m =
      (.error (.api 422 ("No commit found for SHA: " ++ ref)), m) := by
  simp only [reply, h]

/-! ## What a question changes -/

/-- What a question of a kind can make of the memory. -/
inductive Change (op : Forge.Operation) (m : Memory) : Memory → Prop
  | nothing : Change op m m
  /-- A request leaves its mark, and nothing else. -/
  | marked (x : Forge.Mark) (hx : x.operation = op) (hop : op ≠ .updateVariable) :
      Change op m (m.mark x)
  | written (name value : String) (hop : op = .updateVariable) :
      Change op m ((m.setVariable name value).mark (.updateVariable name value))
  /-- The queues are read from the front. -/
  | listed (hop : op = .runs) (rest : List (List WorkflowRun)) :
      Change op m { m with listings := rest }
  | told (hop : op = .run) (rest : List WorkflowRun) : Change op m { m with states := rest }

theorem reply_change (repository : Repository) (q : Forge.Query) (m : Memory) :
    Change q.operation m (reply repository q m).2 := by
  cases q with
  | pullRequests sha => exact .nothing
  | getVariable name => simp only [reply]; split <;> exact .nothing
  | updateVariable name value => exact .written name value rfl
  | commitSha ref => simp only [reply]; split <;> exact .nothing
  | createTagObject tag message sha => exact .marked (.createTagObject tag message sha) rfl nofun
  | createRef ref sha => exact .marked (.createRef ref sha) rfl nofun
  | generateNotes request => exact .marked (.generateNotes request) rfl nofun
  | createRelease release => exact .marked (.createRelease release) rfl nofun
  | dispatch workflow ref inputs =>
    exact .marked (.dispatch repository workflow ref inputs) rfl nofun
  | runs workflow since => exact .listed rfl _
  | run id =>
    simp only [reply]
    split
    · exact .told rfl _
    · exact .nothing
  | jobs id => exact .nothing
  | logs id => simp only [reply]; split <;> exact .nothing

theorem answer_change (c : Forge.Call) (m : Memory) :
    Change c.query.operation m (answer c m).2 := by
  rw [answer]
  split
  · exact .nothing
  · exact reply_change _ _ _

namespace Change

variable {op : Forge.Operation}

theorem fixed (h : Change op m m') :
    m'.jobs = m.jobs ∧ m'.logs = m.logs ∧ m'.failing = m.failing := by
  cases h <;> exact ⟨rfl, rfl, rfl⟩

theorem silent (h : Change op m m') (hop : op ∉ Forge.Operation.marking) :
    m'.marks = m.marks ∧ m'.values = m.values := by
  cases h with
  | nothing | listed | told => exact ⟨rfl, rfl⟩
  | marked x hx => exact absurd (hx ▸ x.operation_mem_marking) hop
  | written name value hwrite =>
    exact absurd (hwrite ▸ (Forge.Mark.updateVariable name value).operation_mem_marking) hop

end Change

/-- Only what is not known is refused, and refusing it changes nothing. -/
theorem of_reply_error {e : Failure} (h : reply repository q m = (.error e, m')) : m' = m ∧
    q.operation ∈ [Forge.Operation.getVariable, .commitSha, .run, .logs] := by
  cases q with
  | getVariable name =>
    simp only [reply] at h
    split at h <;> cases h
    exact ⟨rfl, by simp [Forge.Query.operation]⟩
  | commitSha ref =>
    simp only [reply] at h
    split at h <;> cases h
    exact ⟨rfl, by simp [Forge.Query.operation]⟩
  | run id =>
    simp only [reply] at h
    split at h <;> cases h
    exact ⟨rfl, by simp [Forge.Query.operation]⟩
  | logs id =>
    simp only [reply] at h
    split at h <;> cases h
    exact ⟨rfl, by simp [Forge.Query.operation]⟩
  | _ => cases h

theorem answer_of_not_failing (h : q.operation ∉ m.failing) :
    answer ⟨repository, q⟩ m = reply repository q m := by
  rw [answer, if_neg]
  simpa using h

theorem answer_of_failing (h : q.operation ∈ m.failing) :
    answer ⟨repository, q⟩ m = (.error (.api 500 (q.operation.text ++ " failed")), m) := by
  rw [answer, if_pos]
  simpa using h

theorem run_query_of_failing (f : q.Answer → Flow Forge.service β)
    (h : q.operation ∈ m.failing) :
    (Forge.query repository q >>= f).run host m w =
      (.failed (.api 500 (q.operation.text ++ " failed")), m, w) :=
  Flow.run_ask_bind_of_error (S := Forge.service) (q := ⟨repository, q⟩) f (answer_of_failing h)

theorem run_query_of_ok {a : q.Answer} (f : q.Answer → Flow Forge.service β)
    (h : q.operation ∉ m.failing) (ha : reply repository q m = (.ok a, m')) :
    (Forge.query repository q >>= f).run host m w = (f a).run host m' w :=
  Flow.run_ask_bind_of_ok (S := Forge.service) (q := ⟨repository, q⟩) f
    ((answer_of_not_failing h).trans ha)

theorem run_query_of_error {e : Failure} (f : q.Answer → Flow Forge.service β)
    (h : q.operation ∉ m.failing) (ha : reply repository q m = (.error e, m')) :
    (Forge.query repository q >>= f).run host m w = (.failed e, m', w) :=
  Flow.run_ask_bind_of_error (S := Forge.service) (q := ⟨repository, q⟩) f
    ((answer_of_not_failing h).trans ha)

theorem run_query (f : q.Answer → Flow Forge.service β) :
    (Forge.query repository q >>= f).run host m w =
      match (answer ⟨repository, q⟩ m).1 with
      | .ok a => (f a).run host (answer ⟨repository, q⟩ m).2 w
      | .error e => (.failed e, (answer ⟨repository, q⟩ m).2, w) := by
  rcases h : answer ⟨repository, q⟩ m with ⟨a | e, m'⟩
  · exact Flow.run_ask_bind_of_error (S := Forge.service) (q := ⟨repository, q⟩) f h
  · exact Flow.run_ask_bind_of_ok (S := Forge.service) (q := ⟨repository, q⟩) f h

theorem run_tryQuery (f : Except Failure q.Answer → Flow Forge.service β) :
    (Forge.tryQuery repository q >>= f).run host m w =
      (f (answer ⟨repository, q⟩ m).1).run host (answer ⟨repository, q⟩ m).2 w := rfl

theorem answer_logs (repository : Repository) (id : UInt64) (m : Memory) :
    (answer ⟨repository, .logs id⟩ m).2 = m := by
  rw [answer]
  split
  · rfl
  · simp only [reply]
    split <;> rfl

end Memory

namespace Context

variable {S : Service} {σ β : Type} {host : Host S σ} {s : σ} {w : World} (ctx : Context)
  (f : Unit → Flow S β)

@[simp] theorem run_status_bind (message : String) : (ctx.status message >>= f).run host s w =
    (f ()).run host s (w.note (.print (Console.statusLine ctx.palette message))) := rfl

@[simp] theorem run_success_bind (message : String) : (ctx.success message >>= f).run host s w =
    (f ()).run host s (w.note (.print (Console.successLine ctx.palette message))) := rfl

theorem run_warning_if (c : Bool) (x : Warning) :
    (if c = true then ctx.warning x >>= f else f ()).run host s w =
      (f ()).run host s (w.noteIf c (.warn (Console.warningLine ctx.palette x))) := by
  cases c <;> rfl

end Context

end ReleaseFlow
