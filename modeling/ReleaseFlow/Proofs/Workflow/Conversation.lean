import ReleaseFlow.Proofs.Forge.Requests
import ReleaseFlow.Proofs.Workflow.Tagging

/-!
# Tagging by way of the server

* `Http.Script.nth`: the response to each request;
* `Http.Response.Tells`: a success whose body is decoded;
* `Converses`: a run that makes requests one after another, as long as the responses pass;
  `Converses.sent`, `Converses.ending`: what such a run sends, and how it ends;
* `tagPasses`, `tagQueries`, `tagRequests`: the responses that let tagging go on, its questions and
  their requests; `createTag_asking`: the requests of tagging, wherever they are sent to;
* `createTag_conversation`: **tagging makes the first of six requests, each only when all responses
  before it passed**.
-/

namespace ReleaseFlow

namespace Http

/-- The response to the request with this number. -/
def Script.nth (script : Script) (n : ℕ) : Response :=
  script.responses.getD n exhausted

namespace Script

theorem first_eq (script : Script) : script.first = script.nth 0 := by
  obtain ⟨responses, requests⟩ := script
  cases responses <;> rfl

theorem nth_after (script : Script) (request : Request) (n : ℕ) :
    (script.after request).nth n = script.nth (n + 1) := by
  obtain ⟨responses, requests⟩ := script
  cases responses <;> rfl

end Script

/-- The response is a success, and its body is decoded to the value. -/
def Response.Tells {α : Type} (read? : Json → Option α) (response : Response) (a : α) : Prop :=
  response.isSuccess = true ∧ (Json.readBytes response.body.bytes).bind read? = some a

theorem Response.Tells.unique {α : Type} {read? : Json → Option α} {response : Response} {a b : α}
    (ha : response.Tells read? a) (hb : response.Tells read? b) : a = b :=
  Option.some.inj (ha.2.symm.trans hb.2)

end Http

namespace Rest

variable {α : Type} {response : Http.Response} {a : α}

theorem accepted_bind_eq_ok_iff {g : Http.Response → Except Failure α} :
    (accepted response).bind g = .ok a ↔ response.isSuccess = true ∧ g response = .ok a := by
  rw [accepted]
  split
  · next h => simp [h, Except.bind]
  · next h => simp [h, Except.bind]

theorem decoded_eq_ok_iff {read? : Json → Option α} :
    decoded read? response = .ok a ↔ (Json.readBytes response.body.bytes).bind read? = some a := by
  rw [decoded]
  cases (Json.readBytes response.body.bytes).bind read? <;> simp

theorem tells_iff {read? : Json → Option α} :
    (accepted response).bind (decoded read?) = .ok a ↔ response.Tells read? a :=
  accepted_bind_eq_ok_iff.trans (and_congr_right fun _ => decoded_eq_ok_iff)

theorem exists_tells_iff {read? : Json → Option α} :
    (∃ a, response.Tells read? a) ↔ ∃ a, (accepted response).bind (decoded read?) = .ok a :=
  exists_congr fun _ => tells_iff.symm

theorem isSuccess_iff_exists : response.isSuccess = true ↔
    ∃ a, (accepted response).bind (fun _ => .ok ()) = .ok a := by
  simp only [accepted_bind_eq_ok_iff, and_true, exists_const]

theorem tells_commit_iff {ref sha : String} :
    (accepted response).bind (told (.commitSha ref)) = .ok sha ↔
      response.Tells sha? sha ∧ sha ≠ "" := by
  have htold : told (.commitSha ref) response = (decoded sha? response).bind fun sha =>
      if sha = "" then .error (.missingSha ref) else .ok sha := rfl
  rw [accepted_bind_eq_ok_iff, htold, Http.Response.Tells, and_assoc, ← decoded_eq_ok_iff]
  refine and_congr_right fun _ => ?_
  cases decoded sha? response with
  | error failure => simp [Except.bind]
  | ok sha' =>
    simp only [Except.bind, Except.ok.injEq]
    split
    · next hempty => simp only [reduceCtorEq, false_iff]; rintro ⟨rfl, hne⟩; exact hne hempty
    · next hne => simp only [Except.ok.injEq, iff_self_and]; rintro rfl; exact hne

end Rest

open Rest

namespace Workflow

variable {α : Type} {e : Endpoint}

/-- The run makes the requests in order, as long as the responses pass, and then ends in the given
way. With the first response that does not pass it fails. -/
def Converses (finish : Http.Script → Outcome α × Http.Script × World → Prop) :
    (ℕ → Prop) → List Http.Request → Http.Script → Outcome α × Http.Script × World → Prop
  | _, [], script, run => finish script run
  | passes, request :: requests, script, run =>
    passes 0 ∧ Converses finish (fun k => passes (k + 1)) requests (script.after request) run ∨
      ¬ passes 0 ∧ ∃ failure w', run = (.failed failure, script.after request, w')

namespace Converses

variable {finish : Http.Script → Outcome α × Http.Script × World → Prop} {passes : ℕ → Prop}
  {request : Http.Request} {requests : List Http.Request} {script : Http.Script} {w : World}
  {run : Outcome α × Http.Script × World}

/-- A run that begins with a question: it goes on when the question is answered. -/
theorem ask {r : Repository} {q : Forge.Query} (hrequest : request? e r q = some request)
    (htoken : Http.isHeaderValue e.token = true) {f : q.Answer → Flow Forge.service α}
    (hok : ∀ a, (accepted (script.nth 0)).bind (told q) = .ok a →
      Converses finish passes (request :: requests) script
        ((f a).run (relay e Http.Script.host) (script.after request) w))
    (hpasses : passes 0 → ∃ a, (accepted (script.nth 0)).bind (told q) = .ok a) :
    Converses finish passes (request :: requests) script
      ((Forge.query r q >>= f).run (relay e Http.Script.host) script w) := by
  have hrelay := relay_script hrequest htoken script
  rw [script.first_eq] at hrelay
  cases hanswer : (accepted (script.nth 0)).bind (told q) with
  | ok a =>
    rw [hanswer] at hrelay
    have hrun : (Forge.query r q >>= f).run (relay e Http.Script.host) script w = _ :=
      Flow.run_ask_bind_of_ok (S := Forge.service) f hrelay
    rw [hrun]
    exact hok a hanswer
  | error failure =>
    rw [hanswer] at hrelay
    refine Or.inr ⟨fun h => ?_, failure, w,
      Flow.run_ask_bind_of_error (S := Forge.service) f hrelay⟩
    obtain ⟨a, ha⟩ := hpasses h
    rw [hanswer] at ha
    cases ha

/-- A run that begins with a question whose answer is all that its response must tell. -/
theorem ask_passes {r : Repository} {q : Forge.Query} (hrequest : request? e r q = some request)
    (htoken : Http.isHeaderValue e.token = true) {f : q.Answer → Flow Forge.service α}
    (hpasses : passes 0 ↔ ∃ a, (accepted (script.nth 0)).bind (told q) = .ok a)
    (h : ∀ a, (accepted (script.nth 0)).bind (told q) = .ok a →
      Converses finish (fun k => passes (k + 1)) requests (script.after request)
        ((f a).run (relay e Http.Script.host) (script.after request) w)) :
    Converses finish passes (request :: requests) script
      ((Forge.query r q >>= f).run (relay e Http.Script.host) script w) :=
  ask hrequest htoken (fun a ha => Or.inl ⟨hpasses.2 ⟨a, ha⟩, h a ha⟩) hpasses.1

theorem sent (h : Converses finish passes requests script run)
    (hfinish : ∀ script run, finish script run → run.2.1 = script) :
    ∃ sent, run.2.1.requests = script.requests ++ sent ∧ sent <+: requests ∧
      ∀ k < requests.length, k < sent.length ↔ ∀ j < k, passes j := by
  induction requests generalizing script passes with
  | nil =>
    refine ⟨[], ?_, List.nil_prefix, fun k hk => absurd hk (Nat.not_lt_zero k)⟩
    rw [hfinish script run h, List.append_nil]
  | cons request requests ih =>
    rcases h with ⟨hpasses, h⟩ | ⟨hnot, failure, w', rfl⟩
    · obtain ⟨sent, hsent, hfirst, hcount⟩ := ih h
      refine ⟨request :: sent, ?_, List.cons_prefix_cons.2 ⟨rfl, hfirst⟩, fun k hk => ?_⟩
      · rw [hsent, Http.Script.after, List.append_assoc]
        rfl
      · cases k with
        | zero => simp
        | succ k =>
          rw [Nat.forall_lt_succ_left, List.length_cons, Nat.add_lt_add_iff_right,
            hcount k (Nat.lt_of_succ_lt_succ hk)]
          exact (and_iff_right hpasses).symm
    -- the request whose response does not pass was made, and is the last
    · refine ⟨[request], rfl, List.cons_prefix_cons.2 ⟨rfl, List.nil_prefix⟩, fun k hk => ?_⟩
      cases k with
      | zero => simp
      | succ k =>
        rw [Nat.forall_lt_succ_left]
        exact iff_of_false (by simp) fun h => hnot h.1

theorem ending (h : Converses finish passes requests script run) :
    (∀ k < requests.length, passes k) ∧ (∃ script', finish script' run) ∨
      (¬ ∀ k < requests.length, passes k) ∧ ∃ failure, run.1 = .failed failure := by
  induction requests generalizing script passes with
  | nil => exact Or.inl ⟨fun k hk => absurd hk (Nat.not_lt_zero k), script, h⟩
  | cons request requests ih =>
    rw [List.length_cons, Nat.forall_lt_succ_left]
    rcases h with ⟨hpasses, h⟩ | ⟨hnot, failure, w', rfl⟩
    · rcases ih h with ⟨hall, hend⟩ | ⟨hnot, hend⟩
      · exact Or.inl ⟨⟨hpasses, hall⟩, hend⟩
      · exact Or.inr ⟨fun hall => hnot hall.2, hend⟩
    · exact Or.inr ⟨fun hall => hnot hall.1, failure, rfl⟩

end Converses

/-! ## The conversation of tagging -/

/-- The responses tell the data of a merge. -/
def MergeTold (ctx : Context) (script : Http.Script) (d : MergeData) : Prop :=
  ∃ pulls stored head, (script.nth 0).Tells (Json.list? PullRequest.ofJson?) pulls ∧
    (script.nth 1).Tells (single? Json.text? "value") stored ∧
    (script.nth 2).Tells sha? head ∧ head ≠ "" ∧ d.MadeOf ctx pulls stored head

/-- The response to the request with this number lets tagging go on: it is a success; the first four
are decoded to what is asked for; and after the third, the first three make a merge. -/
def tagPasses (ctx : Context) (script : Http.Script) : ℕ → Prop
  | 0 => ∃ pulls, (script.nth 0).Tells (Json.list? PullRequest.ofJson?) pulls
  | 1 => ∃ stored, (script.nth 1).Tells (single? Json.text? "value") stored
  | 2 => ∃ d, MergeTold ctx script d
  | 3 => ∃ object, (script.nth 3).Tells sha? object
  | n => (script.nth n).isSuccess = true

/-- The requests of tagging. -/
def tagRequests (ctx : Context) (e : Endpoint) (root : Url) (sha tag object : String)
    (d : MergeData) : List Http.Request :=
  let part (names : List String) : Url := root.under (partNames ctx.repository names)
  let stored := ctx.config.release.versionVariable
  [⟨.get, part ["commits", sha, "pulls"], e.headers false, none⟩,
    ⟨.get, part ["actions", "variables", stored], e.headers false, none⟩,
    ⟨.get, part ["commits", "heads", ctx.config.release.branch], e.headers false, none⟩,
    ⟨.post, part ["git", "tags"], e.headers true,
      some (.ofMembers [("tag", .ofText tag),
        ("message", .ofText ("Release for version " ++ d.next.text)), ("object", .ofText d.head),
        ("type", .ofText "commit")])⟩,
    ⟨.post, part ["git", "refs"], e.headers true,
      some (.ofMembers [("ref", .ofText ("refs/tags/" ++ tag)), ("sha", .ofText object)])⟩,
    ⟨.patch, part ["actions", "variables", stored], e.headers true,
      some (.ofMembers [("name", .ofText stored), ("value", .ofText d.next.text)])⟩]

variable {ctx : Context} {root : Url} {sha : String}

/-- The names that tagging puts into addresses are plain. -/
structure PlainNames (ctx : Context) (sha : String) : Prop where
  owner : ctx.repository.owner.toList.all Url.isPlain = true
  name : ctx.repository.name.toList.all Url.isPlain = true
  stored : ctx.config.release.versionVariable.toList.all Url.isPlain = true
  branch : ctx.config.release.branch.toList.all Url.isPlain = true
  sha : sha.toList.all Url.isPlain = true

/-! The questions that tagging asks, and their requests. -/

theorem commits_request (hbase : Url.IsBase e.hosts e.base root) (hplain : PlainNames ctx sha) :
    request? e ctx.repository (.pullRequests sha) = some
      ⟨.get, root.under (partNames ctx.repository ["commits", sha, "pulls"]), e.headers false,
        none⟩ := by
  refine requestTo?_under hbase hplain.owner hplain.name (by simp) ?_ ?_ .get none
  · simp only [List.forall_mem_cons]
    exact ⟨by decide, hplain.sha, by decide, by simp⟩
  · simp

theorem variable_request (hbase : Url.IsBase e.hosts e.base root) (hplain : PlainNames ctx sha)
    (method : Http.Method) (body : Option Json) :
    requestTo? e method (e.address ctx.repository
      ("actions/variables/" ++ ctx.config.release.versionVariable)) body = some
      ⟨method, root.under (partNames ctx.repository
        ["actions", "variables", ctx.config.release.versionVariable]), e.headers body.isSome,
        body⟩ := by
  refine requestTo?_under hbase hplain.owner hplain.name (by simp) ?_ ?_ method body
  · simp only [List.forall_mem_cons]
    exact ⟨by decide, by decide, hplain.stored, by simp⟩
  · simp

theorem head_request (hbase : Url.IsBase e.hosts e.base root) (hplain : PlainNames ctx sha) :
    request? e ctx.repository (.commitSha (branchRef ctx.config.release.branch)) = some
      ⟨.get, root.under (partNames ctx.repository ["commits", "heads", ctx.config.release.branch]),
        e.headers false, none⟩ := by
  refine requestTo?_under hbase hplain.owner hplain.name (by simp) ?_ ?_ .get none
  · simp only [List.forall_mem_cons]
    exact ⟨by decide, by decide, hplain.branch, by simp⟩
  · simp [branchRef]

theorem git_request (hbase : Url.IsBase e.hosts e.base root) (hplain : PlainNames ctx sha)
    (kind : String) {path : String} (hkind : kind.toList.all Url.isPlain = true)
    (hpath : path = "git/" ++ kind) (body : Json) :
    requestTo? e .post (e.address ctx.repository path) (some body) = some
      ⟨.post, root.under (partNames ctx.repository ["git", kind]), e.headers true, some body⟩ := by
  refine requestTo?_under hbase hplain.owner hplain.name (by simp) ?_ ?_ .post (some body)
  · simp only [List.forall_mem_cons]
    exact ⟨by decide, hkind, by simp⟩
  · simp [hpath]

/-- The questions of a tag and of the new version. -/
def publishQueries (ctx : Context) (tag object : String) (d : MergeData) : List Forge.Query :=
  [.createTagObject tag (tagMessage d.next) d.head, .createRef (tagRef tag) object,
    .updateVariable ctx.config.release.versionVariable d.next.text]

/-- The questions of tagging. -/
def tagQueries (ctx : Context) (sha tag object : String) (d : MergeData) : List Forge.Query :=
  [.pullRequests sha, .getVariable ctx.config.release.versionVariable,
    .commitSha (branchRef ctx.config.release.branch)] ++ publishQueries ctx tag object d

/-- The request is that of the question. -/
def RequestOf (e : Endpoint) (ctx : Context) (q : Forge.Query) (request : Http.Request) : Prop :=
  request? e ctx.repository q = some request

theorem tagRequests_of (hbase : Url.IsBase e.hosts e.base root) (hplain : PlainNames ctx sha)
    (tag object : String) (d : MergeData) : List.Forall₂ (RequestOf e ctx)
      (tagQueries ctx sha tag object d) (tagRequests ctx e root sha tag object d) :=
  .cons (commits_request hbase hplain) <|
  .cons (variable_request hbase hplain .get none) <|
  .cons (head_request hbase hplain) <|
  .cons (git_request hbase hplain "tags" (by decide) (by decide) _) <|
  .cons (git_request hbase hplain "refs" (by decide) (by decide) _) <|
  .cons (variable_request hbase hplain .patch (some _)) .nil

theorem publishTag_asking {β : Type} (htoken : Http.isHeaderValue e.token = true)
    {requests : List Http.Request} {d : MergeData} {tag object : String}
    (hrequests : List.Forall₂ (RequestOf e ctx) (publishQueries ctx tag object d) requests)
    {script : Http.Script} {w : World} {passes : ℕ → Prop}
    (hobject : ∀ o, (script.nth 0).Tells sha? o → o = object)
    (h₀ : passes 0 ↔ ∃ o, (script.nth 0).Tells sha? o)
    (h₁ : passes 1 ↔ (script.nth 1).isSuccess = true)
    (h₂ : passes 2 ↔ (script.nth 2).isSuccess = true)
    {finish : Http.Script → Outcome β × Http.Script × World → Prop}
    {f : Unit → Flow Forge.service β} (hfinish : ∀ script' w', w'.files = w.files →
      finish script' ((f ()).run (relay e Http.Script.host) script' w')) :
    Converses finish passes requests script
      ((publishTag ctx d tag >>= f).run (relay e Http.Script.host) script w) := by
  simp only [publishTag, bind_assoc, Context.run_status_bind]
  obtain _ | ⟨htag, _ | ⟨href, _ | ⟨hwrite, ⟨⟩⟩⟩⟩ := hrequests
  refine .ask_passes htag htoken (h₀.trans exists_tells_iff) fun o ho => ?_
  obtain rfl := hobject o (tells_iff.1 ho)
  refine .ask_passes href htoken ?_ fun _ _ => ?_
  · rw [Http.Script.nth_after]
    exact h₁.trans isSuccess_iff_exists
  rw [Context.run_success_bind]
  refine .ask_passes hwrite htoken ?_ fun _ _ => hfinish _ _ rfl
  simp only [Http.Script.nth_after]
  exact h₂.trans isSuccess_iff_exists

/-- Tagging makes the requests of its questions in order, and after all of them tells its
reports. -/
theorem createTag_asking (hdry : ctx.dryRun = false) (htoken : Http.isHeaderValue e.token = true)
    {p : TagPattern} (hp : ctx.tagPattern = .ok p) (script : Http.Script) (w : World)
    {d : MergeData} {object : String} (hd : ∀ d', MergeTold ctx script d' → d' = d)
    (hobject : ∀ o, (script.nth 3).Tells sha? o → o = object) {requests : List Http.Request}
    (hrequests : List.Forall₂ (RequestOf e ctx) (tagQueries ctx sha (p.format d.next) object d)
      requests) :
    Converses (fun script' run => ∃ w', w'.files = w.files ∧
        run = (ctx.runner.tellAll (tagReports (p.format d.next) d) >>= fun _ =>
          pure (tagResult (p.format d.next) d)).run (relay e Http.Script.host) script' w')
      (tagPasses ctx script) requests script
      ((createTag ctx sha).run (relay e Http.Script.host) script w) := by
  rw [createTag_eq sha hdry, hp, Flow.run_ofExcept_ok_bind, mergeData_eq]
  simp only [bind_assoc]
  obtain _ | ⟨hcommits, _ | ⟨hread, _ | ⟨hhead, hwrites⟩⟩⟩ := hrequests
  refine .ask_passes hcommits htoken exists_tells_iff fun pulls hpulls => ?_
  refine .ask_passes hread htoken ?_ fun stored hstored => ?_
  · rw [Http.Script.nth_after]
    exact exists_tells_iff
  rw [Http.Script.nth_after] at hstored
  refine .ask hhead htoken (fun head hhead => ?_) fun ⟨d, htold⟩ => ?_
  rotate_left
  · obtain ⟨-, -, head, -, -, hhead, hne, -⟩ := htold
    simp only [Http.Script.nth_after]
    exact ⟨head, tells_commit_iff.2 ⟨hhead, hne⟩⟩
  simp only [Http.Script.nth_after] at hhead
  obtain ⟨hhead, hne⟩ := tells_commit_iff.1 hhead
  obtain ⟨w₁, hq, ⟨d', hmade, hrun⟩ | ⟨hno, failure, hrun⟩⟩ :=
    mergeDecision_made ctx (relay e Http.Script.host) sha pulls stored head
      (((script.after _).after _).after _) w
  · have htold : MergeTold ctx script d' :=
      ⟨pulls, stored, head, tells_iff.1 hpulls, tells_iff.1 hstored, hhead, hne, hmade⟩
    obtain rfl := hd d' htold
    refine Or.inl ⟨⟨d', htold⟩, ?_⟩
    rw [Flow.run_bind_of_done _ hrun]
    refine publishTag_asking htoken hwrites ?_ ?_ ?_ ?_ fun script' w' hfiles =>
      ⟨w', hfiles.trans hq.files, rfl⟩
    · simpa only [Http.Script.nth_after] using hobject
    · simp only [Http.Script.nth_after]
      exact Iff.rfl
    · simp only [Http.Script.nth_after]
      exact Iff.rfl
    · simp only [Http.Script.nth_after]
      exact Iff.rfl
  -- the third response passes, but the three together make no merge
  · refine Or.inr ⟨?_, failure, w₁, Flow.run_bind_of_failed _ hrun⟩
    rintro ⟨d', pulls', stored', head', hpulls', hstored', hhead', -, hmade⟩
    obtain rfl := hpulls'.unique (tells_iff.1 hpulls)
    obtain rfl := hstored'.unique (tells_iff.1 hstored)
    obtain rfl := hhead'.unique hhead
    exact hno d' hmade

theorem createTag_converses (hdry : ctx.dryRun = false) (hbase : Url.IsBase e.hosts e.base root)
    (hplain : PlainNames ctx sha) (htoken : Http.isHeaderValue e.token = true) {p : TagPattern}
    (hp : ctx.tagPattern = .ok p) (script : Http.Script) (w : World) {d : MergeData}
    {object : String} (hd : ∀ d', MergeTold ctx script d' → d' = d)
    (hobject : ∀ o, (script.nth 3).Tells sha? o → o = object) :
    Converses (fun script' run => ∃ w', w'.files = w.files ∧
        run = (ctx.runner.tellAll (tagReports (p.format d.next) d) >>= fun _ =>
          pure (tagResult (p.format d.next) d)).run (relay e Http.Script.host) script' w')
      (tagPasses ctx script) (tagRequests ctx e root sha (p.format d.next) object d) script
      ((createTag ctx sha).run (relay e Http.Script.host) script w) :=
  createTag_asking hdry htoken hp script w hd hobject (tagRequests_of hbase hplain _ _ _)

theorem mergeTold_unique {script : Http.Script} {d d' : MergeData} (h : MergeTold ctx script d)
    (h' : MergeTold ctx script d') : d = d' := by
  obtain ⟨pulls, stored, head, hpulls, hstored, hhead, -, hmade⟩ := h
  obtain ⟨pulls', stored', head', hpulls', hstored', hhead', -, hmade'⟩ := h'
  obtain rfl := hpulls.unique hpulls'
  obtain rfl := hstored.unique hstored'
  obtain rfl := hhead.unique hhead'
  exact madeOf_unique hmade hmade'

/-- What has at most one value has a value that is the only one, if it has any. -/
theorem exists_only {β : Type} [Nonempty β] {P : β → Prop} (h : ∀ a b, P a → P b → a = b) :
    ∃ a, ∀ b, P b → b = a :=
  ⟨Classical.epsilon P, fun b hb => h b _ hb (Classical.epsilon_spec ⟨b, hb⟩)⟩

theorem createTag_unsent (hdry : ctx.dryRun = false)
    (h : ¬ ((∃ p, ctx.tagPattern = .ok p) ∧ Http.isHeaderValue e.token = true))
    (script : Http.Script) (w : World) :
    ∃ failure, (createTag ctx sha).run (relay e Http.Script.host) script w =
      (.failed failure, script, w) := by
  rw [createTag_eq sha hdry, mergeData_eq]
  cases hp : ctx.tagPattern with
  | error failure => exact ⟨failure, rfl⟩
  | ok p =>
    have htoken : Http.isHeaderValue e.token ≠ true := fun htoken => h ⟨⟨p, hp⟩, htoken⟩
    rw [Flow.run_ofExcept_ok_bind]
    simp only [bind_assoc]
    obtain ⟨failure, hrelay⟩ := relay_unsent ctx.repository Http.Script.host htoken
      (.pullRequests sha) script
    exact ⟨failure, Flow.run_ask_bind_of_error (S := Forge.service) _ hrelay⟩

/-- **Tagging is a conversation of six requests.** They are made in order, each exactly when all
responses before it passed; the data of each comes from the responses before it. Tagging succeeds
exactly when all six responses passed and the reports can be written, and otherwise fails. -/
theorem createTag_conversation (hdry : ctx.dryRun = false) (hbase : Url.IsBase e.hosts e.base root)
    (hplain : PlainNames ctx sha) (responses : List Http.Response) (w : World) :
    let run := (connect e (createTag ctx sha)).run Http.Script.host ⟨responses, []⟩ w
    let passes := tagPasses ctx ⟨responses, []⟩
    let starts := (∃ p, ctx.tagPattern = .ok p) ∧ Http.isHeaderValue e.token = true
    ∃ d tag object,
      (∀ d', MergeTold ctx ⟨responses, []⟩ d' → d' = d) ∧
      (∀ p, ctx.tagPattern = .ok p → p.format d.next = tag) ∧
      (∀ o, (responses.getD 3 Http.exhausted).Tells sha? o → o = object) ∧
      run.2.1.requests <+: tagRequests ctx e root sha tag object d ∧
      (∀ k < 6, k < run.2.1.requests.length ↔ starts ∧ ∀ j < k, passes j) ∧
      (run.1 = .done (tagResult tag d) ↔ starts ∧ (∀ k < 6, passes k) ∧
        ∃ files, ctx.runner.writeAll w.files (tagReports tag d) = .ok files) ∧
      (run.1 ≠ .done (tagResult tag d) → ∃ failure, run.1 = .failed failure) := by
  have hd : ∃ d, ∀ d', MergeTold ctx ⟨responses, []⟩ d' → d' = d :=
    have : Nonempty MergeData := ⟨⟨"", ⟨0, 0, 0⟩, ⟨0, 0, 0⟩, .minor, none, 0, ""⟩⟩
    exists_only fun _ _ => mergeTold_unique
  have hobject : ∃ object, ∀ o, (responses.getD 3 Http.exhausted).Tells sha? o → o = object :=
    exists_only fun _ _ => Http.Response.Tells.unique
  obtain ⟨d, hd⟩ := hd
  obtain ⟨object, hobject⟩ := hobject
  intro run passes starts
  obtain ⟨w', -, hrun⟩ : ∃ w', _ ∧ run = _ :=
    run_connect (createTag ctx sha) (World.Alike.refl w)
  rw [hrun]
  by_cases hstarts : starts
  · obtain ⟨⟨p, hp⟩, htoken⟩ := hstarts
    have hconverses := createTag_converses hdry hbase hplain htoken hp ⟨responses, []⟩ w hd hobject
    obtain ⟨sent, hsent, hfirst, hcount⟩ := hconverses.sent fun script' run h => by
      obtain ⟨w', -, rfl⟩ := h
      exact (ctx.runner.run_tellAll_pure _ _ _ _ _).1
    rw [List.nil_append] at hsent
    have hpattern : ∀ p', ctx.tagPattern = .ok p' → p'.format d.next = p.format d.next := by
      intro p' hp'
      obtain rfl : p' = p := Except.ok.inj (hp'.symm.trans hp)
      rfl
    refine ⟨d, p.format d.next, object, hd, hpattern, hobject, ?_⟩
    dsimp only
    rw [hsent]
    refine ⟨hfirst, fun k hk => (hcount k hk).trans (and_iff_right ⟨⟨p, hp⟩, htoken⟩).symm, ?_⟩
    rcases hconverses.ending with ⟨hall, script', w₁, hfiles, hend⟩ | ⟨hnot, failure, hfailed⟩
    · obtain ⟨-, hdone, hfailed⟩ := ctx.runner.run_tellAll_pure (relay e Http.Script.host) script'
        w₁ (tagReports (p.format d.next) d) (tagResult (p.format d.next) d)
      rw [hend, ← hfiles]
      refine ⟨hdone.trans ⟨fun h => ⟨⟨⟨p, hp⟩, htoken⟩, hall, h⟩, fun h => h.2.2⟩, hfailed⟩
    · rw [hfailed]
      exact ⟨iff_of_false (fun h => by cases h) fun h => hnot h.2.1, fun _ => ⟨failure, rfl⟩⟩
  · obtain ⟨failure, hend⟩ := createTag_unsent hdry hstarts ⟨responses, []⟩ w
    obtain ⟨tag, htag⟩ : ∃ tag, ∀ p, ctx.tagPattern = .ok p → p.format d.next = tag := by
      cases ctx.tagPattern with
      | error failure => exact ⟨"", fun _ h => by cases h⟩
      | ok p => exact ⟨p.format d.next, fun p' h => by cases h; rfl⟩
    refine ⟨d, tag, object, hd, htag, hobject, ?_⟩
    rw [hend]
    refine ⟨List.nil_prefix, fun k hk => ?_, ?_, fun _ => ⟨failure, rfl⟩⟩
    · exact iff_of_false (Nat.not_lt_zero k) fun h => hstarts h.1
    · exact iff_of_false (fun h => by cases h) fun h => hstarts h.1

/-- A ref that is refused is the last request. -/
theorem createTag_conversation_refused :
    let ctx : Context := ⟨⟨"acme", "notify-api"⟩, {}, {}, false, .plain, 0, false⟩
    let responses : List Http.Response := [
      ⟨200, "[\x7b\"number\":42,\"html_url\":\"https://example.com/pull/42\",\"labels\":[]\x7d]"⟩,
      ⟨200, "\x7b\"value\":\"1.2.3\"\x7d"⟩, ⟨200, "\x7b\"sha\":\"f00d\"\x7d"⟩,
      ⟨201, "\x7b\"sha\":\"b0a7\"\x7d"⟩, ⟨422, "Reference already exists"⟩, ⟨204, ""⟩]
    let run := (connect ⟨publicAddress, "token", Url.host?⟩ (createTag ctx "c0ffee")).run
      Http.Script.host ⟨responses, []⟩ {}
    run.2.1.requests.length = 5 ∧ ∃ failure, run.1 = .failed failure := by
  intro ctx responses run
  have hbase : Url.IsBase Url.host? publicAddress
      { secure := true, host := "api.github.com".toList, path := [[]] } :=
    ⟨by decide +kernel, rfl, rfl, 'm', by decide, by decide, by decide⟩
  have hplain : PlainNames ctx "c0ffee" :=
    ⟨by decide, by decide, by decide, by decide, by decide⟩
  have hpulls : (Http.Script.nth ⟨responses, []⟩ 0).Tells (Json.list? PullRequest.ofJson?)
      [⟨42, "https://example.com/pull/42", []⟩] := ⟨rfl, by decide +kernel⟩
  have hstored : (Http.Script.nth ⟨responses, []⟩ 1).Tells (single? Json.text? "value") "1.2.3" :=
    ⟨rfl, by decide +kernel⟩
  have hmerge : MergeTold ctx ⟨responses, []⟩ ⟨"f00d", ⟨1, 2, 3⟩, ⟨1, 3, 0⟩, .minor, none, 42,
      "https://example.com/pull/42"⟩ :=
    ⟨_, _, "f00d", hpulls, hstored, ⟨rfl, by decide +kernel⟩, by decide,
      ⟨_, _, rfl, by decide, rfl, rfl⟩, by decide, rfl, by decide⟩
  have hpasses : ∀ j < 4, tagPasses ctx ⟨responses, []⟩ j
    | 0, _ => ⟨_, hpulls⟩
    | 1, _ => ⟨_, hstored⟩
    | 2, _ => ⟨_, hmerge⟩
    | 3, _ => ⟨"b0a7", rfl, by decide +kernel⟩
  have hrefused : ¬ tagPasses ctx ⟨responses, []⟩ 4 :=
    fun h : Http.Response.isSuccess ⟨422, "Reference already exists"⟩ = true => absurd h (by decide)
  have hpattern : ∃ p, ctx.tagPattern = .ok p := ⟨⟨"\x7bversion\x7d", by decide⟩, by decide⟩
  obtain ⟨d, tag, object, -, -, -, -, hcount, hdone, hfailed⟩ :=
    createTag_conversation (e := ⟨publicAddress, "token", Url.host?⟩) rfl hbase hplain responses {}
  have hfour : 4 < run.2.1.requests.length :=
    (hcount 4 (by decide)).2 ⟨⟨hpattern, by decide⟩, hpasses⟩
  have hfive : ¬ 5 < run.2.1.requests.length := fun h =>
    hrefused (((hcount 5 (by decide)).1 h).2 4 (by decide))
  exact ⟨by omega, hfailed fun h => hrefused ((hdone.1 h).2.1 4 (by decide))⟩

end Workflow

end ReleaseFlow
