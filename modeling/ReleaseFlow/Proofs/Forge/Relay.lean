import ReleaseFlow.Forge.Rest
import ReleaseFlow.Proofs.Flow.Run

/-!
# The hosting service as a relay

Asked by way of HTTP, the hosting service is a host of its own: every question is at most one
request to the server, and the answer is made of the response.

* `World.Logs`, `World.Alike`: worlds that differ by what is logged;
* `Rest.request?`: the request of a question, when its address is one;
* `Rest.told`: what a question is told by a response that is a success;
* `Rest.relay`: the server as a host for questions;
* `Rest.answer_run`: one question, asked by way of the server;
* `Rest.run_connect`: **a flow by way of the server is the flow with the relay as its host**.
-/

namespace ReleaseFlow

/-- The event is a line of the log. -/
def Event.isLog : Event → Bool
  | .log _ _ => true
  | _ => false

namespace World

/-- What is on record beside the log. -/
def shown (w : World) : List Event :=
  w.record.filter fun e => !e.isLog

/-- Only the log has grown. -/
def Logs (w w' : World) : Prop :=
  ∃ lines : List (Level × String),
    w' = { w with record := w.record ++ lines.map fun line => .log line.1 line.2 }

/-- The worlds differ at most by what is logged. -/
def Alike (w w' : World) : Prop :=
  ∃ record, w' = { w with record } ∧ w'.shown = w.shown

theorem filterMap_shown {α : Type} (w : World) {f : Event → Option α}
    (hf : ∀ level text, f (.log level text) = none) :
    w.shown.filterMap f = w.record.filterMap f := by
  rw [shown, List.filterMap_filter]
  refine congrArg (fun f => List.filterMap f w.record) (funext fun e => ?_)
  cases e with
  | log level text => exact (hf level text).symm
  | _ => rfl

variable {w w' w'' : World}

namespace Logs

theorem refl (w : World) : w.Logs w :=
  ⟨[], by simp⟩

theorem trans (h : w.Logs w') (h' : w'.Logs w'') : w.Logs w'' := by
  obtain ⟨lines, rfl⟩ := h
  obtain ⟨lines', rfl⟩ := h'
  exact ⟨lines ++ lines', by simp⟩

theorem log (w : World) (level : Level) (text : String) : w.Logs (w.note (.log level text)) :=
  ⟨[(level, text)], rfl⟩

theorem quiet (h : w.Logs w') : w.Quiet w' := by
  obtain ⟨lines, rfl⟩ := h
  exact ⟨_, rfl⟩

theorem shown (h : w.Logs w') : w'.shown = w.shown := by
  obtain ⟨lines, rfl⟩ := h
  have hlines : (lines.map fun line => Event.log line.1 line.2).filter (fun e => !e.isLog) = [] :=
    List.filter_eq_nil_iff.2 fun e he => by
      obtain ⟨line, -, rfl⟩ := List.mem_map.1 he
      simp [Event.isLog]
  rw [World.shown, List.filter_append, hlines, List.append_nil]
  rfl

end Logs

namespace Alike

theorem refl (w : World) : w.Alike w :=
  ⟨w.record, rfl, rfl⟩

theorem logs (h : w.Alike w') (hl : w'.Logs w'') : w.Alike w'' := by
  have hshown := hl.shown
  obtain ⟨record, rfl, h⟩ := h
  obtain ⟨lines, rfl⟩ := hl
  exact ⟨_, rfl, hshown.trans h⟩

theorem note (h : w.Alike w') (e : Event) : (w.note e).Alike (w'.note e) := by
  obtain ⟨record, rfl, h⟩ := h
  refine ⟨record ++ [e], rfl, ?_⟩
  simp only [World.shown, World.note, List.filter_append] at h ⊢
  rw [h]

theorem files (h : w.Alike w') : w'.files = w.files := by
  obtain ⟨record, rfl, -⟩ := h
  rfl

theorem output (h : w.Alike w') : w'.output = w.output := by
  obtain ⟨record, -, h⟩ := h
  rw [World.output, World.output, ← filterMap_shown w fun _ _ => rfl,
    ← filterMap_shown w' fun _ _ => rfl, h]

theorem errors (h : w.Alike w') : w'.errors = w.errors := by
  obtain ⟨record, -, h⟩ := h
  rw [World.errors, World.errors, ← filterMap_shown w fun _ _ => rfl,
    ← filterMap_shown w' fun _ _ => rfl, h]

end Alike

end World

namespace Http.Script

/-- The response to the next request. -/
def first (script : Script) : Response :=
  script.responses.headD exhausted

/-- The scripted server after one more request. -/
def after (script : Script) (request : Request) : Script :=
  ⟨script.responses.tail, script.requests ++ [request]⟩

theorem host_eq (request : Request) (script : Script) :
    host request script = (.ok script.first, script.after request) := by
  obtain ⟨responses, requests⟩ := script
  cases responses <;> rfl

end Http.Script

namespace Rest

variable (e : Endpoint) (r : Repository)

/-! ## Requests -/

/-- The request with a method, an address and perhaps a body, when the address is one. -/
def requestTo? (method : Http.Method) (address : String) (body : Option Json) :
    Option Http.Request :=
  (Url.parse e.hosts address).map fun url => ⟨method, url, e.headers body.isSome, body⟩

/-- The request of a question, when its address is one. -/
def request? : Forge.Query → Option Http.Request
  | .pullRequests sha => requestTo? e .get (e.address r ("commits/" ++ sha ++ "/pulls")) none
  | .getVariable name => requestTo? e .get (e.address r ("actions/variables/" ++ name)) none
  | .updateVariable name value =>
    requestTo? e .patch (e.address r ("actions/variables/" ++ name))
      (some (.ofMembers [("name", .ofText name), ("value", .ofText value)]))
  | .commitSha ref => requestTo? e .get (e.address r ("commits/" ++ ref)) none
  | .createTagObject tag message sha =>
    requestTo? e .post (e.address r "git/tags")
      (some (.ofMembers [("tag", .ofText tag), ("message", .ofText message),
        ("object", .ofText sha), ("type", .ofText "commit")]))
  | .createRef ref sha =>
    requestTo? e .post (e.address r "git/refs")
      (some (.ofMembers [("ref", .ofText ref), ("sha", .ofText sha)]))
  | .generateNotes request =>
    requestTo? e .post (e.address r "releases/generate-notes") (some request.toJson)
  | .createRelease release => requestTo? e .post (e.address r "releases") (some release.toJson)
  | .dispatch workflow ref inputs =>
    requestTo? e .post (e.address r ("actions/workflows/" ++ workflow ++ "/dispatches"))
      (some (.ofMembers [("ref", .ofText ref),
        ("inputs", .ofMembers (inputs.map fun i => (i.1, .ofText i.2)))]))
  | .runs workflow since =>
    (runsAddress e r workflow since).bind fun address => requestTo? e .get address none
  | .run id => requestTo? e .get (e.address r ("actions/runs/" ++ Text.decimal id.toNat)) none
  | .jobs runId =>
    requestTo? e .get (e.address r ("actions/runs/" ++ Text.decimal runId.toNat ++ "/jobs")) none
  | .logs jobId =>
    requestTo? e .get (e.address r ("actions/jobs/" ++ Text.decimal jobId.toNat ++ "/logs")) none

/-! ## Answers -/

/-- The value of a body, or the failure to decode it. -/
def decoded {α : Type} (read? : Json → Option α) (response : Http.Response) : Except Failure α :=
  match (Json.readBytes response.body.bytes).bind read? with
  | some a => .ok a
  | none => .error (.http "the response could not be decoded")

/-- What a question is told by a response that is a success. -/
def told : (q : Forge.Query) → Http.Response → Except Failure q.Answer
  | .pullRequests _ => decoded (Json.list? PullRequest.ofJson?)
  | .getVariable _ => decoded (single? Json.text? "value")
  | .updateVariable _ _ => fun _ => .ok ()
  | .commitSha ref => fun response => (decoded sha? response).bind fun sha =>
      if sha = "" then .error (.missingSha ref) else .ok sha
  | .createTagObject _ _ _ => decoded sha?
  | .createRef _ _ => fun _ => .ok ()
  | .generateNotes _ => decoded (single? Json.text? "body")
  | .createRelease _ => decoded (single? Json.text? "html_url")
  | .dispatch _ _ _ => fun _ => .ok ()
  | .runs _ _ => decoded (single? (Json.list? WorkflowRun.ofJson?) "workflow_runs")
  | .run _ => decoded WorkflowRun.ofJson?
  | .jobs _ => decoded (single? (Json.list? Job.ofJson?) "jobs")
  | .logs _ => fun response => .ok response.body.text

/-- A response that is a success, or else the failure that it stands for. -/
def accepted (response : Http.Response) : Except Failure Http.Response :=
  if response.isSuccess then .ok response
  else .error (.api response.status (errorText response.body.text))

variable {σ : Type} (host : Host Http.service σ)

/-- One exchange with the server, if there is a request and the token can be sent. -/
def exchange (request : Option Http.Request) (s : σ) : Except Failure Http.Response × σ :=
  match request with
  | none => (.error (.http "the address is not valid"), s)
  | some request =>
    if Http.isHeaderValue e.token then
      ((host request s).1.bind accepted, (host request s).2)
    else (.error (.http "the token cannot be sent"), s)

/-- The server as a host for questions. -/
def relay : Host Forge.service σ := fun (c : Forge.Call) s =>
  let result := exchange e host (request? e c.repository c.query) s
  (result.1.bind (told c.query), result.2)

theorem relay_eq (q : Forge.Query) (s : σ) : relay e host ⟨r, q⟩ s =
    ((exchange e host (request? e r q) s).1.bind (told q),
      (exchange e host (request? e r q) s).2) :=
  rfl

variable {e} in
theorem relay_unsent (htoken : Http.isHeaderValue e.token ≠ true) (q : Forge.Query) (s : σ) :
    ∃ failure, relay e host ⟨r, q⟩ s = (.error failure, s) := by
  rw [relay_eq]
  cases request? e r q with
  | none => exact ⟨_, rfl⟩
  | some request =>
    rw [exchange, if_neg htoken]
    exact ⟨_, rfl⟩

variable {e r} in
theorem relay_script {q : Forge.Query} {request : Http.Request}
    (hrequest : request? e r q = some request) (htoken : Http.isHeaderValue e.token = true)
    (script : Http.Script) : relay e Http.Script.host ⟨r, q⟩ script =
      ((accepted script.first).bind (told q), script.after request) := by
  rw [relay_eq, hrequest, exchange, if_pos htoken, Http.Script.host_eq]
  rfl

/-! ## Runs -/

variable {e host} {α β : Type} {s : σ} {w : World}

theorem log_run (level : Level) (text : String) (a : α) (s : σ) (w : World) :
    ∃ w', w.Logs w' ∧
      (Flow.log level text >>= fun _ => pure a : Flow Http.service α).run host s w =
        (.ofExcept (.ok a), s, w') :=
  ⟨_, .log w level text, rfl⟩

theorem decode_run (read? : Json → Option α) (response : Http.Response) (s : σ) (w : World) :
    (decode read? response).run host s w = (.ofExcept (decoded read? response), s, w) := by
  rw [decode, decoded]
  cases (Json.readBytes response.body.bytes).bind read? <;> rfl

theorem send_run (method : Http.Method) (address : String) (body : Option Json) :
    (send e method address body).run host s w =
      (.ofExcept (exchange e host (requestTo? e method address body) s).1,
        (exchange e host (requestTo? e method address body) s).2,
        w.note (.log .debug (method.text ++ " " ++ address))) := by
  rw [send, Flow.run_log_bind, requestTo?]
  cases Url.parse e.hosts address with
  | none => rfl
  | some url =>
  simp only [Option.map_some, exchange]
  split
  · generalize hrequest : (⟨method, url, e.headers body.isSome, body⟩ : Http.Request) = request
    rcases hreply : host request s with ⟨failure | response, s'⟩
    · exact Flow.run_ask_bind_of_error (S := Http.service) _ hreply
    · rw [Flow.run_ask_bind_of_ok (S := Http.service) _ hreply]
      simp only [Except.bind, accepted]
      split <;> rfl
  · rfl

variable {x : Except Failure Http.Response × σ} {method : Http.Method} {address : String}

/-- An exchange whose response is made into an answer without further requests. -/
-- the exchange is given by an equation: comparing two of them would parse their addresses
theorem send_bind_run {body : Option Json}
    (hx : exchange e host (requestTo? e method address body) s = x)
    {f : Http.Response → Flow Http.service α} {g : Http.Response → Except Failure α}
    (hf : ∀ response s w, ∃ w', w.Logs w' ∧
      (f response).run host s w = (.ofExcept (g response), s, w')) :
    ∃ w', w.Logs w' ∧ (send e method address body >>= f).run host s w =
      (.ofExcept (x.1.bind g), x.2, w') := by
  have hsend : (send e method address body).run host s w = _ := send_run method address body
  rw [hx] at hsend
  have hl := World.Logs.log w .debug (method.text ++ " " ++ address)
  obtain ⟨failure | response, s'⟩ := x
  · exact ⟨_, hl, Flow.run_bind_of_failed f hsend⟩
  · obtain ⟨w', hl', hrun⟩ := hf response s' _
    exact ⟨w', hl.trans hl', (Flow.run_bind_of_done f hsend).trans hrun⟩

theorem fetch_run {read? : Json → Option α}
    (hx : exchange e host (requestTo? e .get address none) s = x) :
    ∃ w', w.Logs w' ∧ (fetch e address read?).run host s w =
      (.ofExcept (x.1.bind (decoded read?)), x.2, w') :=
  send_bind_run hx fun response s w => ⟨w, .refl w, decode_run read? response s w⟩

theorem create_run {body : Json} {read? : Json → Option α}
    (hx : exchange e host (requestTo? e .post address (some body)) s = x) :
    ∃ w', w.Logs w' ∧ (create e address body read?).run host s w =
      (.ofExcept (x.1.bind (decoded read?)), x.2, w') :=
  send_bind_run hx fun response s w => ⟨w, .refl w, decode_run read? response s w⟩

/-- An exchange whose decoded response is made into an answer without further requests. -/
theorem fetch_bind_run {read? : Json → Option α}
    (hx : exchange e host (requestTo? e .get address none) s = x) {f : α → Flow Http.service β}
    {g : α → Except Failure β}
    (hf : ∀ a s w, ∃ w', w.Logs w' ∧ (f a).run host s w = (.ofExcept (g a), s, w')) :
    ∃ w', w.Logs w' ∧ (fetch e address read? >>= f).run host s w =
      (.ofExcept (x.1.bind fun response => (decoded read? response).bind g), x.2, w') := by
  rw [fetch, bind_assoc]
  refine send_bind_run hx fun response s w => ?_
  have hdecode : (decode read? response).run host s w = _ := decode_run read? response s w
  cases hdecoded : decoded read? response with
  | error failure =>
    rw [hdecoded] at hdecode
    exact ⟨w, .refl w, Flow.run_bind_of_failed f hdecode⟩
  | ok a =>
    rw [hdecoded] at hdecode
    rw [Flow.run_bind_of_done f hdecode]
    exact hf a s w

theorem bind_ok (x : Except Failure α) : x.bind .ok = x := by
  cases x <;> rfl

/-- One question by way of the server is at most one request. -/
theorem answer_logs (q : Forge.Query) (s : σ) (w : World) :
    ∃ w', w.Logs w' ∧ (answer e r q).run host s w =
      (.ofExcept (relay e host ⟨r, q⟩ s).1, (relay e host ⟨r, q⟩ s).2, w') := by
  rw [relay_eq]
  generalize hx : exchange e host (request? e r q) s = x
  cases q with
  | pullRequests sha =>
    have htold : told (.pullRequests sha) = fun response =>
        (decoded (Json.list? PullRequest.ofJson?) response).bind .ok :=
      funext fun response => (bind_ok _).symm
    rw [htold]
    exact fetch_bind_run hx fun pulls s w => log_run _ _ pulls s w
  | getVariable name => exact fetch_run hx
  | updateVariable name value => exact send_bind_run hx fun response s w => log_run _ _ () s w
  | commitSha ref =>
    refine fetch_bind_run hx fun sha s w => ⟨w, .refl w, ?_⟩
    split <;> rfl
  | createTagObject tag message sha => exact create_run hx
  | createRef ref sha => exact send_bind_run hx fun response s w => ⟨w, .refl w, rfl⟩
  | generateNotes request => exact create_run hx
  | createRelease release => exact create_run hx
  | dispatch workflow ref inputs =>
    exact send_bind_run hx fun response s w => ⟨w, .refl w, rfl⟩
  | runs workflow since =>
    have hrequest : request? e r (.runs workflow since) =
        (runsAddress e r workflow since).bind fun address => requestTo? e .get address none := rfl
    rw [hrequest] at hx
    unfold answer
    dsimp only
    cases haddress : runsAddress e r workflow since with
    | none =>
      rw [haddress] at hx
      cases hx
      exact ⟨w, .refl w, rfl⟩
    | some address =>
      rw [haddress] at hx
      exact fetch_run hx
  | run id => exact fetch_run hx
  | jobs runId => exact fetch_run hx
  | logs jobId => exact send_bind_run hx fun response s w => ⟨w, .refl w, rfl⟩

theorem answer_run (q : Forge.Query) (s : σ) (w : World) :
    ∃ w', w.Quiet w' ∧ (answer e r q).run host s w =
      (.ofExcept (relay e host ⟨r, q⟩ s).1, (relay e host ⟨r, q⟩ s).2, w') := by
  obtain ⟨w', hl, hrun⟩ : ∃ w', w.Logs w' ∧ (answer e r q).run host s w = _ := answer_logs r q s w
  exact ⟨w', hl.quiet, hrun⟩

/-- **A flow by way of the server is the flow with the relay as its host**, up to what is logged. -/
theorem run_connect (flow : Flow Forge.service α) {w₁ : World} (hw : w.Alike w₁) :
    ∃ w', (flow.run (relay e host) s w).2.2.Alike w' ∧ (connect e flow).run host s w₁ =
      ((flow.run (relay e host) s w).1, (flow.run (relay e host) s w).2.1, w') := by
  induction flow generalizing s w w₁ with
  | done a => exact ⟨w₁, hw, rfl⟩
  | failed failure => exact ⟨w₁, hw, rfl⟩
  | stalled => exact ⟨w₁, hw, rfl⟩
  | step act next ih =>
    cases act with
    | ask call =>
      obtain ⟨r, q⟩ := call
      obtain ⟨w', hl, hanswer⟩ : ∃ w', w₁.Logs w' ∧ (answer e r q).run host s w₁ = _ :=
        answer_logs r q s w₁
      change ∃ w', _ ∧ ((answer e r q).attempt >>= fun reply => (next reply).through
        fun (c : Forge.Call) => answer e c.repository c.query).run host s w₁ = _
      rw [Flow.run_bind_of_done _ (Flow.run_attempt_of_ofExcept hanswer)]
      exact ih _ (hw.logs hl)
    | print text => exact ih _ (hw.note _)
    | warn text => exact ih _ (hw.note _)
    | log level text => exact ih _ (hw.note _)
    | appendFile path text =>
      -- whether a file can be written depends on the files, in which the worlds do not differ
      obtain ⟨record, rfl, hshown⟩ := hw
      simp only [connect, Flow.through, Flow.run, Act.perform]
      split
      · exact ih _ ⟨record, rfl, hshown⟩
      · exact ih _ ⟨record, rfl, hshown⟩
    | _ =>
      obtain ⟨record, rfl, hshown⟩ := hw
      exact ih _ ⟨record, rfl, hshown⟩

end Rest

end ReleaseFlow
