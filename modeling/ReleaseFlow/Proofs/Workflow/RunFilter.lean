import ReleaseFlow.Proofs.Calendar.Instants
import ReleaseFlow.Proofs.Flow.Asked
import ReleaseFlow.Proofs.Forge.Requests
import ReleaseFlow.Proofs.Http.Forms
import ReleaseFlow.Proofs.Workflow.Questions

/-!
# The filter of runs

The run that a regression starts is found among those that were created at an instant or later.

* `Rest.runsUrl`, `Rest.request?_runs`: the address of these runs, and the request for them;
* `Workflow.SinceOnly`, `Workflow.regression_since`: the instant is the one at which the regression
  begins;
* `Rest.runs_filter`: **no run that was created at the instant or later is left out**.
-/

namespace ReleaseFlow

open ReleaseFlow.Flow hiding bind_assoc

namespace Rest

variable {e : Endpoint} {r : Repository} {root : Url} {workflow : String}

/-- The address of the runs of a workflow since an instant. -/
def runsUrl (root : Url) (r : Repository) (workflow : String) (since : Instant) : Url :=
  (root.under (partNames r ["actions", "workflows", workflow, "runs"])).addParameter "created"
    (">=" ++ since.text)

theorem isName_partNames (howner : Url.IsDotted r.owner) (hname : Url.IsDotted r.name)
    (hworkflow : Url.IsDotted workflow) :
    ∀ name ∈ partNames r ["actions", "workflows", workflow, "runs"], Url.IsName name.toList := by
  have hfixed : ∀ name ∈ ["repos", "actions", "workflows", "runs"], Url.IsDotted name :=
    fun name hmem => Url.isDotted_of_plain (by revert name; decide)
  simp only [List.forall_mem_cons] at hfixed
  simp only [partNames, List.forall_mem_cons]
  exact ⟨hfixed.1.isName, howner.isName, hname.isName, hfixed.2.1.isName, hfixed.2.2.1.isName,
    hworkflow.isName, hfixed.2.2.2.1.isName, by simp⟩

section Address

variable (hbase : Url.IsBase e.hosts e.base root) (howner : Url.IsDotted r.owner)
  (hname : Url.IsDotted r.name) (hworkflow : Url.IsDotted workflow) (since : Instant)

include hbase howner hname hworkflow

theorem runsAddress_eq :
    runsAddress e r workflow since = some (runsUrl root r workflow since).text := by
  have hpath : ("actions/workflows/" ++ workflow ++ "/runs").toList =
      List.intercalate ['/'] (["actions", "workflows", workflow, "runs"].map String.toList) := by
    have hfront : "actions/workflows/".toList =
      "actions".toList ++ '/' :: ("workflows".toList ++ ['/']) := by decide
    have hback : "/runs".toList = '/' :: "runs".toList := by decide
    simp only [String.toList_append, hfront, hback, List.map_cons, List.map_nil,
      List.intercalate_cons_cons, List.intercalate_singleton, List.append_assoc,
      List.cons_append, List.nil_append]
  rw [runsAddress, Url.parse_under hbase (List.cons_ne_nil _ _)
    (isName_partNames howner hname hworkflow) (address_text (List.cons_ne_nil _ _) hpath)]
  rfl

theorem parse_runsUrl (hhosts : Url.IsHostReader e.hosts) :
    Url.parse e.hosts (runsUrl root r workflow since).text =
      some (runsUrl root r workflow since) :=
  Url.parse_text <| ((Url.isNormal_of_parse hhosts hbase.parse).under (List.cons_ne_nil _ _)
    (isName_partNames howner hname hworkflow)).addParameter _ _

end Address

theorem parameters_runsUrl (hbase : Url.IsBase e.hosts e.base root) (since : Instant) :
    (runsUrl root r workflow since).parameters = some [("created", ">=" ++ since.text)] := by
  have hnone : (root.under (partNames r ["actions", "workflows", workflow, "runs"])).parameters =
      some [] := by
    rw [Url.parameters, Url.under, hbase.query]
    rfl
  exact Url.parameters_addParameter hnone _ _

theorem fetch_asked {α σ : Type} {address : String} {url : Url}
    (hurl : Url.parse e.hosts address = some url) (htoken : Http.isHeaderValue e.token = true)
    (read? : Json → Option α) (host : Host Http.service σ) (s : σ) (w : World) :
    (fetch e address read?).asked host s w = [⟨.get, url, e.headers false, none⟩] := by
  have hdecode : ∀ response, (decode read? response).Asks fun _ => False := fun response => by
    unfold decode
    split <;> exact trivial
  rw [fetch, send, hurl]
  simp only [bind_assoc, if_pos htoken]
  rw [asked_log_bind]
  rcases hreply : host ⟨.get, url, e.headers (none : Option Json).isSome, none⟩ s with
    ⟨failure | response, s'⟩
  · exact asked_ask_bind_of_error (S := Http.service) _ hreply
  · rw [asked_ask_bind_of_ok (S := Http.service) _ hreply, Asks.asked_eq_nil]
    · rfl
    · refine Flow.Acts.bind ?_ hdecode
      split <;> exact trivial

end Rest

namespace Workflow

variable (ctx : Context) (environment : String)

/-- A question about runs is one about those since the instant. -/
def SinceOnly (since : Instant) (c : Forge.Call) : Prop :=
  ∀ workflow t, c.query = .runs workflow t → t = since

theorem sinceOnly_of_among {kinds : List Forge.Operation} (hkinds : .runs ∉ kinds)
    (since : Instant) {c : Forge.Call} (h : Forge.Among kinds c) : SinceOnly since c := by
  intro workflow t hquery
  rw [Forge.Among, hquery] at h
  exact absurd h hkinds

theorem followRun_since (started : ℕ) (since : Instant) :
    (followRun ctx environment started since).Asks (SinceOnly since) := by
  refine (awaitStart_asks ctx fun workflow t hquery => ?_).bind fun run =>
    (acts_log (Act.silent rfl)).bind fun _ =>
      (awaitCompletion_asks ctx fun _ _ h => by cases h).bind fun completed =>
        Flow.Acts.bind ?_ fun result => trivial
  · cases hquery
    rfl
  · exact (concludeRun_asks ctx _ _ _).mono fun c => sinceOnly_of_among (by simp) since

theorem regression_since {σ : Type} (host : Host Forge.service σ) (s : σ) (w : World) :
    ∀ c ∈ (regression ctx environment).asked host s w, SinceOnly w.now c := by
  cases hdry : ctx.dryRun with
  | true =>
    intro c hc
    have hasks := regression_asks ctx environment
    rw [if_pos hdry] at hasks
    exact sinceOnly_of_among (List.not_mem_nil) w.now (hasks.of_mem_asked hc)
  | false =>
    let live (started : ℕ) (since : Instant) : Flow Forge.service (Option RegressionResult) := do
      ctx.status ("Triggering workflow: " ++ ctx.config.regression.workflow ++ " on " ++
        ctx.regressionRepository.text)
      let _ ← Forge.query ctx.regressionRepository (.dispatch ctx.config.regression.workflow
        ctx.config.regression.ref [("environment", environment)])
      Flow.sleep (millis ctx.config.regression.initialDelay)
      followRun ctx environment started since
    have hlive : (regression ctx environment).asked host s w =
        (live w.uptime w.now).asked host s w := by
      unfold regression
      rw [hdry]
      rfl
    have hasks : (live w.uptime w.now).Asks (SinceOnly w.now) := by
      refine (acts_print (Act.silent rfl)).bind fun _ => Flow.Acts.bind ?_ fun _ =>
        (acts_sleep (Act.silent rfl)).bind fun _ => followRun_since ctx environment w.uptime w.now
      exact (Forge.query_asks _ (List.mem_singleton_self Forge.Operation.dispatch)).mono fun c =>
        sinceOnly_of_among (by simp) w.now
    intro c hc
    rw [hlive] at hc
    exact hasks.of_mem_asked hc

end Workflow

/-- **No run that was created at the instant or later is left out.** Whatever the server does, the
runs of a workflow are asked for by one request. Its query is a form with a single parameter: the
text of the instant, in UTC and to the second, behind a sign for later ones. The instant that the
text denotes is never later than the one asked for, and less than a second earlier. A regression
asks in this way for the instant at which it begins. -/
theorem Rest.runs_filter {e : Rest.Endpoint} (hhosts : Url.IsHostReader e.hosts)
    {r : Repository} {root : Url} {workflow : String}
    (hbase : Url.IsBase e.hosts e.base root) (htoken : Http.isHeaderValue e.token = true)
    (howner : Url.IsDotted r.owner) (hname : Url.IsDotted r.name)
    (hworkflow : Url.IsDotted workflow) {since : Instant} (hnanos : since.nanos < 1000000000) :
    (∃ url : Url,
      (∀ {σ : Type} (host : Host Http.service σ) (s : σ) (w : World),
        (Rest.answer e r (.runs workflow since)).asked host s w =
          [⟨.get, url, e.headers false, none⟩]) ∧
      url = { root.under (Rest.partNames r ["actions", "workflows", workflow, "runs"]) with
        query := url.query } ∧
      url.parameters = some [("created", ">=" ++ since.text)]) ∧
    Instant.Denotes since.text since.seconds ∧
    (∀ n, Instant.Denotes since.text n →
      n * 1000000000 ≤ since.nanoseconds ∧ since.nanoseconds < (n + 1) * 1000000000) ∧
    ∀ (ctx : Context) (environment : String) {σ : Type} (host : Host Forge.service σ) (s : σ)
      (w : World), ∀ c ∈ (Workflow.regression ctx environment).asked host s w,
        ∀ workflow t, c.query = .runs workflow t → t = w.now := by
  refine ⟨⟨Rest.runsUrl root r workflow since, fun host s w => ?_, rfl,
    Rest.parameters_runsUrl hbase since⟩, (Instant.denotes_text_iff hnanos _).2 rfl, ?_,
    Workflow.regression_since⟩
  · have hurl := Rest.parse_runsUrl hbase howner hname hworkflow since hhosts
    rw [Rest.answer, Rest.runsAddress_eq hbase howner hname hworkflow since]
    exact Rest.fetch_asked hurl htoken _ host s w
  · intro n hn
    rw [(Instant.denotes_text_iff hnanos n).1 hn, Instant.nanoseconds]
    omega

/-- The last nanosecond before 1970 is rounded down to a second before 1970. -/
theorem Rest.runs_filter_before_epoch :
    let e : Rest.Endpoint := ⟨"http://server", "test-token", Url.host?⟩
    let r : Repository := ⟨"acme", "notify.qa"⟩
    let since : Instant := ⟨-1, 999999999⟩
    (∃ url : Url,
      (∀ {σ : Type} (host : Host Http.service σ) (s : σ) (w : World),
        (Rest.answer e r (.runs "regression.yml" since)).asked host s w =
          [⟨.get, url, e.headers false, none⟩]) ∧
      url.parameters = some [("created", ">=1969-12-31T23:59:59Z")]) ∧
    Instant.Denotes "1969-12-31T23:59:59Z" (-1) ∧ since.nanoseconds = -1 := by
  intro e r since
  have hbase : Url.IsBase e.hosts e.base
      { secure := false, host := "server".toList, path := [[]] } :=
    ⟨by decide +kernel, rfl, rfl, 'r', by decide, by decide, by decide⟩
  have hchars : ∀ name ∈ ["acme", "notify.qa", "regression.yml"], name.toList.all
      (fun c => Url.isPlain c || c == '.') = true ∧ name ≠ "." ∧ name ≠ ".." := by decide
  have hdotted : ∀ name ∈ ["acme", "notify.qa", "regression.yml"], Url.IsDotted name :=
    fun name h => ⟨by simpa using (hchars name h).1, (hchars name h).2.1, (hchars name h).2.2⟩
  have htext : since.text = "1969-12-31T23:59:59Z" := by decide +kernel
  obtain ⟨⟨url, hasked, -, hparameters⟩, hdenotes, -⟩ :=
    Rest.runs_filter Url.isHostReader_host? hbase (by decide) (hdotted r.owner (by simp [r]))
      (hdotted r.name (by simp [r])) (hdotted "regression.yml" (by simp))
      (by decide : since.nanos < 1000000000)
  rw [htext] at hparameters hdenotes
  exact ⟨⟨url, hasked, hparameters⟩, hdenotes, rfl⟩

end ReleaseFlow
