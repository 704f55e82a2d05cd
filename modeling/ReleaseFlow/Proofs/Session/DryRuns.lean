import ReleaseFlow.Proofs.Forge.Requests
import ReleaseFlow.Proofs.Session.Steps
import ReleaseFlow.Proofs.Workflow.Careful
import ReleaseFlow.Proofs.Workflow.Delivery

/-!
# Sessions that may change nothing

* `Session.Job`, `Session.runJobs`: workflows one after another, on one service and in one world;
* `Memory.run_careful`, `Rest.run_careful`: what careful steps do to a service in memory, and what
  they send to a server;
* `dryRuns_change_nothing`: **workflows that may change nothing leave the service as it is, send no
  request that changes it, and append nothing but outputs**.
-/

namespace ReleaseFlow

variable {ctx : Context} {α : Type}

/-! ## A service in memory -/

namespace Memory

theorem Change.careful {op : Forge.Operation} {m m' : Memory} (h : Change op m m')
    (hop : op ∈ Forge.Operation.careful) :
    m' = m ∨ ∃ request, m' = m.mark (.generateNotes request) := by
  cases h with
  | nothing => exact Or.inl rfl
  | marked x hx =>
    subst hx
    cases x with
    | generateNotes request => exact Or.inr ⟨request, rfl⟩
    | _ => exact absurd hop (by simp [Forge.Mark.operation, Forge.Operation.careful])
  | written name value h | listed h | told h => exact absurd (h ▸ hop) (by decide)

theorem run_careful {f : Flow Forge.service α} (hf : f.Acts (Act.Careful ctx)) (m : Memory)
    (w : World) :
    ∃ requests : List NotesRequest,
      (f.run host m w).2.1 = m.markAll (requests.map .generateNotes) := by
  have hasks : f.Asks fun c => Act.Careful ctx (.ask c) := hf.asks fun _ hc => hc
  refine Flow.run_keeps
    (I := fun m' => ∃ requests : List NotesRequest, m' = m.markAll (requests.map .generateNotes))
    hasks ?_ ⟨[], m.markAll_nil.symm⟩
  rintro c _ hc ⟨requests, rfl⟩
  rcases (answer_change c (m.markAll (requests.map .generateNotes))).careful hc.2 with
    h | ⟨request, h⟩
  · exact ⟨requests, h⟩
  · refine ⟨requests ++ [request], h.trans ?_⟩
    simp [markAll, mark]

end Memory

/-! ## A server -/

namespace Rest

variable (e : Endpoint)

/-- The request changes nothing: it reads, or it asks for the notes of a release. -/
def Harmless (r : Repository) (request : Http.Request) : Prop :=
  request.method = .get ∨ request.method = .post ∧
    Url.parse e.hosts (e.address r "releases/generate-notes") = some request.url

variable {e}

theorem harmless_request {r : Repository} {q : Forge.Query} {request : Http.Request}
    (h : q.operation ∈ Forge.Operation.careful) (hrequest : request? e r q = some request) :
    Harmless e r request := by
  have get : ∀ address, requestTo? e .get address none = some request → Harmless e r request := by
    intro address hto
    obtain ⟨url, -, rfl⟩ := Option.map_eq_some_iff.1 hto
    exact Or.inl rfl
  cases q with
  | pullRequests sha => exact get _ hrequest
  | getVariable name => exact get _ hrequest
  | commitSha ref => exact get _ hrequest
  | generateNotes notes =>
    obtain ⟨url, hurl, rfl⟩ := Option.map_eq_some_iff.1 hrequest
    exact Or.inr ⟨rfl, hurl⟩
  | _ => exact absurd h (by simp [Forge.Operation.careful, Forge.Query.operation])

theorem relay_careful {c : Forge.Call} (h : c.query.operation ∈ Forge.Operation.careful)
    (script : Http.Script) : ∃ sent,
      (relay e Http.Script.host c script).2.requests = script.requests ++ sent ∧
        ∀ request ∈ sent, Harmless e c.repository request := by
  obtain ⟨r, q⟩ := c
  rw [relay_eq]
  cases hrequest : request? e r q with
  | none => exact ⟨[], by simp [exchange]⟩
  | some request =>
  rw [exchange]
  split
  · refine ⟨[request], by rw [Http.Script.host_eq]; rfl, fun x hx => ?_⟩
    obtain rfl := List.mem_singleton.1 hx
    exact harmless_request h hrequest
  · exact ⟨[], by simp⟩

theorem run_careful {f : Flow Forge.service α} (hf : f.Acts (Act.Careful ctx))
    (script : Http.Script) (w : World) :
    ∃ sent, ((connect e f).run Http.Script.host script w).2.1.requests = script.requests ++ sent ∧
      ∀ request ∈ sent, Harmless e ctx.repository request := by
  have hasks : f.Asks fun c => Act.Careful ctx (.ask c) := hf.asks fun _ hc => hc
  obtain ⟨w', -, hrun⟩ : ∃ w', _ ∧ (connect e f).run Http.Script.host script w = _ :=
    run_connect f (World.Alike.refl w)
  rw [hrun]
  refine Flow.run_keeps
    (I := fun s : Http.Script => ∃ sent, s.requests = script.requests ++ sent ∧
      ∀ request ∈ sent, Harmless e ctx.repository request) hasks ?_ ⟨[], by simp⟩
  rintro c s ⟨hrepository, hc⟩ ⟨sent, hs, hsent⟩
  obtain ⟨more, hmore, hharmless⟩ := relay_careful hc s
  refine ⟨sent ++ more, by rw [hmore, hs, List.append_assoc], fun request hrequest => ?_⟩
  rcases List.mem_append.1 hrequest with h | h
  · exact hsent request h
  · exact hrepository ▸ hharmless request h

end Rest

/-! ## Sessions -/

namespace Session

/-- A workflow and all that it is given. -/
structure Job where
  ctx : Context
  task : Task

def Job.flow (job : Job) : Flow Forge.service job.task.Result :=
  job.task.flow job.ctx

/-- What workflows leave that run one after another, their questions asked by way of `via`. -/
def runJobs {S : Service} {σ : Type} (host : Host S σ)
    (via : {α : Type} → Flow Forge.service α → Flow S α) :
    List Job → σ → World → σ × World
  | [], s, w => (s, w)
  | job :: jobs, s, w =>
    let after := ((via job.flow).run host s w).2
    runJobs host via jobs after.1 after.2

theorem Job.careful {job : Job} (hdry : job.ctx.dryRun = true) :
    job.flow.Acts (Act.Careful job.ctx) := by
  obtain ⟨ctx, task⟩ := job
  cases task with
  | data sha => exact Workflow.mergeData_careful ctx sha
  | tag sha => exact Workflow.createTag_careful sha hdry
  | notes previous date => exact Workflow.createNotes_careful previous date hdry
  | regression environment => exact Workflow.regression_careful environment hdry

theorem runJobs_keeps {S : Service} {σ : Type} {host : Host S σ}
    {via : {α : Type} → Flow Forge.service α → Flow S α} {I : σ → World → Prop} {jobs : List Job}
    (hI : ∀ job ∈ jobs, ∀ s w, I s w →
      I ((via job.flow).run host s w).2.1 ((via job.flow).run host s w).2.2)
    {s : σ} {w : World} (h : I s w) :
    I (runJobs host via jobs s w).1 (runJobs host via jobs s w).2 := by
  induction jobs generalizing s w with
  | nil => exact h
  | cons job jobs ih =>
    exact ih (fun job' hjob' => hI job' (List.mem_cons_of_mem job hjob'))
      (hI job (by simp) s w h)

/-- An output of one of the workflows. -/
def IsOutput (jobs : List Job) (path text : String) : Prop :=
  ∃ job ∈ jobs, job.ctx.runner.outputFile = some path ∧
    ∃ name value, outputEntry name value = .ok text

/-- Nothing was appended to the files but outputs, and every file is as it was that is not the one
for the outputs of a workflow. -/
def OnlyOutputs (jobs : List Job) (files files' : FileTree) : Prop :=
  files.Grows (IsOutput jobs) files' ∧
  ∀ place, (∀ job ∈ jobs, ∀ path, job.ctx.runner.outputFile = some path →
    files.resolve path ≠ .ok place) → files'.node? place = files.node? place

theorem onlyOutputs_of_grows {jobs : List Job} {files files' : FileTree}
    (h : files.Grows (IsOutput jobs) files') : OnlyOutputs jobs files files' := by
  refine ⟨h, fun place hplace => h.elsewhere.2 place ?_⟩
  rintro path text ⟨job, hjob, hpath, -⟩
  exact hplace job hjob path hpath

variable {jobs : List Job}

theorem runJobs_memory (hdry : ∀ job ∈ jobs, job.ctx.dryRun = true) (m : Memory) (w : World) :
    let after := runJobs Memory.host (fun f => f) jobs m w
    (∃ requests : List NotesRequest, after.1 = m.markAll (requests.map .generateNotes)) ∧
      OnlyOutputs jobs w.files after.2.files := by
  refine (runJobs_keeps (I := fun m' w' =>
    (∃ requests : List NotesRequest, m' = m.markAll (requests.map .generateNotes)) ∧
      w.files.Grows (IsOutput jobs) w'.files) ?_ ⟨⟨[], m.markAll_nil.symm⟩, .refl⟩).imp_right
    onlyOutputs_of_grows
  rintro job hjob _ w' ⟨⟨requests, rfl⟩, hgrows⟩
  have hcareful := Job.careful (hdry job hjob)
  obtain ⟨more, hmore⟩ := Memory.run_careful hcareful (m.markAll (requests.map .generateNotes)) w'
  refine ⟨⟨requests ++ more, ?_⟩, hgrows.trans ?_⟩
  · rw [hmore, Memory.markAll_append, List.map_append]
  · exact (hcareful.grows Memory.host _ w').mono fun path text h => ⟨job, hjob, h⟩

theorem runJobs_server (hdry : ∀ job ∈ jobs, job.ctx.dryRun = true) (e : Rest.Endpoint)
    (script : Http.Script) (w : World) :
    let after := runJobs Http.Script.host (Rest.connect e) jobs script w
    (∃ sent, after.1.requests = script.requests ++ sent ∧
      ∀ request ∈ sent, ∃ job ∈ jobs, Rest.Harmless e job.ctx.repository request) ∧
      OnlyOutputs jobs w.files after.2.files := by
  refine (runJobs_keeps (I := fun (s : Http.Script) w' =>
    (∃ sent, s.requests = script.requests ++ sent ∧
      ∀ request ∈ sent, ∃ job ∈ jobs, Rest.Harmless e job.ctx.repository request) ∧
      w.files.Grows (IsOutput jobs) w'.files) ?_ ⟨⟨[], by simp⟩, .refl⟩).imp_right
    onlyOutputs_of_grows
  rintro job hjob s w' ⟨⟨sent, hs, hsent⟩, hgrows⟩
  have hcareful := Job.careful (hdry job hjob)
  obtain ⟨more, hmore, hharmless⟩ := Rest.run_careful (e := e) hcareful s w'
  obtain ⟨w'', halike, hrun⟩ : ∃ w'', _ ∧ (Rest.connect e job.flow).run Http.Script.host s w' = _ :=
    Rest.run_connect job.flow (World.Alike.refl w')
  refine ⟨⟨sent ++ more, by rw [hmore, hs, List.append_assoc], fun request hrequest => ?_⟩,
    hgrows.trans ?_⟩
  · rcases List.mem_append.1 hrequest with h | h
    · exact hsent request h
    · exact ⟨job, hjob, hharmless request h⟩
  · rw [hrun, halike.files]
    exact (hcareful.grows (Rest.relay e Http.Script.host) s w').mono fun path text h =>
      ⟨job, hjob, h⟩

/-- **Workflows that may change nothing change nothing.** However many of them run, and whatever is
answered, a service in memory is left as it is but for the record of notes, a server is sent only
requests that read or ask for notes, and nothing is appended to files but outputs. Regression runs
ask nothing at all. -/
theorem dryRuns_change_nothing (hdry : ∀ job ∈ jobs, job.ctx.dryRun = true) :
    (∀ (m : Memory) (w : World),
      let after := runJobs Memory.host (fun f => f) jobs m w
      (∃ requests : List NotesRequest, after.1 = m.markAll (requests.map .generateNotes)) ∧
        OnlyOutputs jobs w.files after.2.files) ∧
    (∀ (e : Rest.Endpoint) (script : Http.Script) (w : World),
      let after := runJobs Http.Script.host (Rest.connect e) jobs script w
      (∃ sent, after.1.requests = script.requests ++ sent ∧
        ∀ request ∈ sent, ∃ job ∈ jobs, Rest.Harmless e job.ctx.repository request) ∧
        OnlyOutputs jobs w.files after.2.files) ∧
    ∀ job ∈ jobs, ∀ environment, job.task = .regression environment →
      (∀ (m : Memory) (w : World), (job.flow.run Memory.host m w).2.1 = m) ∧
      ∀ (e : Rest.Endpoint) (script : Http.Script) (w : World),
        ((Rest.connect e job.flow).run Http.Script.host script w).2.1 = script := by
  refine ⟨runJobs_memory hdry, runJobs_server hdry, fun job hjob environment htask => ?_⟩
  obtain ⟨ctx, task⟩ := job
  obtain rfl : task = .regression environment := htask
  have hflow : (⟨ctx, .regression environment⟩ : Job).flow = _ :=
    Workflow.regression_eq_of_dry environment (hdry _ hjob)
  rw [hflow]
  exact ⟨fun m w => rfl, fun e script w => rfl⟩

/-- All four workflows, for a runner with a file for outputs and one for the summary, and a server
that answers none of them. -/
theorem dryRuns_leave_version :
    let ctx : Context :=
      ⟨⟨"acme", "notify-api"⟩, {}, ⟨some "out", some "sum"⟩, true, .plain, 0, false⟩
    let date : Date := ⟨2026, 1, 31, by decide, by decide, by decide⟩
    let jobs : List Job := [⟨ctx, .data "c0ffee"⟩, ⟨ctx, .tag "c0ffee"⟩, ⟨ctx, .notes none date⟩,
      ⟨ctx, .regression "staging"⟩]
    let m : Memory := {
      pulls := [("c0ffee", [⟨42, "https://example.com/pull/42", ["feature"]⟩])]
      values := [("RELEASE_VERSION", "1.2.3")]
      commits := [("heads/release", "f00d")] }
    let after := runJobs Memory.host (fun f => f) jobs m {}
    let e : Rest.Endpoint := ⟨"http://localhost", "token", Url.host?⟩
    let asked := runJobs Http.Script.host (Rest.connect e) jobs ⟨[], []⟩ {}
    (∀ job ∈ jobs, job.ctx.dryRun = true) ∧ after.1.values = m.values ∧
      after.2.files.node? ["sum"] = none ∧
      ∀ request ∈ asked.1.requests, request.method ≠ .patch := by
  intro ctx date jobs m after e asked
  have hdry : ∀ job ∈ jobs, job.ctx.dryRun = true := by
    intro job hjob
    simp only [jobs, List.mem_cons, List.not_mem_nil, or_false] at hjob
    rcases hjob with rfl | rfl | rfl | rfl <;> rfl
  have hout : ∀ job ∈ jobs, job.ctx.runner.outputFile = some "out" := by
    intro job hjob
    simp only [jobs, List.mem_cons, List.not_mem_nil, or_false] at hjob
    rcases hjob with rfl | rfl | rfl | rfl <;> rfl
  obtain ⟨hmemory, hserver, -⟩ := dryRuns_change_nothing hdry
  obtain ⟨⟨requests, hafter⟩, -, helsewhere⟩ := hmemory m {}
  obtain ⟨⟨sent, (hsent : asked.1.requests = sent), hharmless⟩, -⟩ :=
    hserver e ⟨[], []⟩ {}
  refine ⟨hdry, by rw [hafter]; rfl, (helsewhere ["sum"] ?_).trans rfl, fun request hrequest => ?_⟩
  · intro job hjob path hpath
    obtain rfl : "out" = path := Option.some.inj ((hout job hjob).symm.trans hpath)
    decide
  · obtain ⟨job, -, hget | ⟨hpost, -⟩⟩ := hharmless request (hsent ▸ hrequest)
    · rw [hget]
      decide
    · rw [hpost]
      decide

end Session

end ReleaseFlow
