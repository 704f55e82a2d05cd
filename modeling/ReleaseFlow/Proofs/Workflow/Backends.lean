import Mathlib.Data.List.Forall2
import ReleaseFlow.Proofs.Flow.Lockstep
import ReleaseFlow.Proofs.Forge.Served
import ReleaseFlow.Proofs.Workflow.Conversation
import ReleaseFlow.Proofs.Workflow.Questions

/-!
# Tagging beside a service in memory and beside a server

* `Carries`: a request with the data of what was asked for in memory;
* `Mirrored`: a service in memory and a server that were asked for the same changes;
* `agrees_read`, `agrees_write`: one question beside both;
* `createTag_agrees`: tagging beside both, as long as the responses tell what the memory answers;
* `createTag_by_server`: **tagging by way of a server that responds as the memory answers is tagging
  beside the memory**.
-/

namespace ReleaseFlow

open Rest

theorem Http.Response.Tells.ofJson {α : Type} {read? : Json → Option α} {j : Json} {a : α}
    (hj : j.Writable) (ha : read? j = some a) : (Http.Response.ofJson 200 j).Tells read? a :=
  ⟨rfl, by rw [Http.Response.readBytes_ofJson hj, Option.bind_some, ha]⟩

/-- The request carries what was asked for, field for field. -/
def Carries (e : Endpoint) (r : Repository) : Forge.Mark → Http.Request → Prop
  | .createTagObject tag message sha, request =>
    request.method = .post ∧ Url.parse e.hosts (e.address r "git/tags") = some request.url ∧
      request.body = some (.ofMembers [("tag", .ofText tag), ("message", .ofText message),
        ("object", .ofText sha), ("type", .ofText "commit")])
  | .createRef ref sha, request =>
    request.method = .post ∧ Url.parse e.hosts (e.address r "git/refs") = some request.url ∧
      request.body = some (.ofMembers [("ref", .ofText ref), ("sha", .ofText sha)])
  | .updateVariable name value, request =>
    request.method = .patch ∧
      Url.parse e.hosts (e.address r ("actions/variables/" ++ name)) = some request.url ∧
      request.body = some (.ofMembers [("name", .ofText name), ("value", .ofText value)])
  | _, _ => False

variable {e : Endpoint} {r : Repository}

theorem Carries.method_ne {x : Forge.Mark} {request : Http.Request} (h : Carries e r x request) :
    (request.method != .get) = true := by
  cases x with
  | createTagObject tag message sha => rw [h.1]; rfl
  | createRef ref sha => rw [h.1]; rfl
  | updateVariable name value => rw [h.1]; rfl
  | _ => exact h.elim

/-! ## A memory and a server that are asked for the same -/

/-- Since they had the marks and the requests, the memory and the server were asked for the same
changes, in the same order. -/
def Mirrored (e : Endpoint) (r : Repository) (marks : List Forge.Mark)
    (requests : List Http.Request) (m : Memory) (script : Http.Script) : Prop :=
  ∃ made sent, m.marks = marks ++ made ∧ script.requests = requests ++ sent ∧
    List.Forall₂ (Carries e r) made (sent.filter fun request => request.method != .get)

namespace Mirrored

variable {marks : List Forge.Mark} {requests : List Http.Request} {m m' : Memory}
  {script : Http.Script} {request : Http.Request}

theorem refl (e : Endpoint) (r : Repository) (m : Memory) (script : Http.Script) :
    Mirrored e r m.marks script.requests m script :=
  ⟨[], [], by simp, by simp, .nil⟩

theorem read (h : Mirrored e r marks requests m script) (hget : request.method = .get) :
    Mirrored e r marks requests m (script.after request) := by
  obtain ⟨made, sent, hmade, hsent, hcarries⟩ := h
  refine ⟨made, sent ++ [request], hmade, ?_, ?_⟩
  · rw [Http.Script.after, hsent, List.append_assoc]
  · simpa [List.filter_append, hget] using hcarries

theorem write (h : Mirrored e r marks requests m script) {x : Forge.Mark}
    (hx : Carries e r x request) (hmark : m'.marks = m.marks ++ [x]) :
    Mirrored e r marks requests m' (script.after request) := by
  obtain ⟨made, sent, hmade, hsent, hcarries⟩ := h
  refine ⟨made ++ [x], sent ++ [request], ?_, ?_, ?_⟩
  · rw [hmark, hmade, List.append_assoc]
  · rw [Http.Script.after, hsent, List.append_assoc]
  · have hone : [request].filter (fun request => request.method != .get) = [request] :=
      List.filter_eq_self.2 fun request' h => List.mem_singleton.1 h ▸ hx.method_ne
    rw [List.filter_append, hone]
    exact List.rel_append hcarries (.cons hx .nil)

end Mirrored

/-! ## Single questions -/

section Questions

variable {marks : List Forge.Mark} {requests sent : List Http.Request} {m m' : Memory}
  {response : Http.Response} {responses : List Http.Response} {w : World} {β : Type}
  {q : Forge.Query} {a : q.Answer} {path : String} {f : q.Answer → Flow Forge.service β}

/-- The runs of a flow beside the memory and beside the server agree. -/
abbrev AgreesFrom (e : Endpoint) (r : Repository) (marks : List Forge.Mark)
    (requests : List Http.Request) (flow : Flow Forge.service β) (m : Memory)
    (script : Http.Script) (w : World) : Prop :=
  Flow.Agrees (Mirrored e r marks requests) (flow.run Memory.host m w)
    (flow.run (relay e Http.Script.host) script w)

/-- One question, after which the memory and the server still were asked for the same changes. -/
theorem agrees_query (he : e.Usable) (hfailing : m.failing = []) {method : Http.Method}
    {body : Option Json}
    (hrequest : request? e r q = requestTo? e method (e.address r path) body)
    (hanswer : Memory.reply r q m = (.ok a, m'))
    (htold : (accepted response).bind (told q) = .ok a)
    (hR : ∀ url, Url.parse e.hosts (e.address r path) = some url → Mirrored e r marks requests m'
      (Http.Script.after ⟨response :: responses, sent⟩ ⟨method, url, e.headers body.isSome, body⟩))
    (h : ∀ sent', Mirrored e r marks requests m' ⟨responses, sent'⟩ →
      AgreesFrom e r marks requests (f a) m' ⟨responses, sent'⟩ w) :
    AgreesFrom e r marks requests (Forge.query r q >>= f) m ⟨response :: responses, sent⟩ w := by
  obtain ⟨url, hurl, hto⟩ := he.request r method path body
  have hmemory : Memory.host ⟨r, q⟩ m = (.ok a, m') :=
    (Memory.answer_of_not_failing (by simp [hfailing])).trans hanswer
  have hserver := relay_script (hrequest.trans hto) he.token ⟨response :: responses, sent⟩
  rw [Http.Script.first, List.headD_cons, htold] at hserver
  exact .ask (S := Forge.service) hmemory hserver (h _ (hR url hurl))

theorem agrees_read (he : e.Usable) (hfailing : m.failing = [])
    (hR : Mirrored e r marks requests m ⟨response :: responses, sent⟩)
    (hrequest : request? e r q = requestTo? e .get (e.address r path) none)
    (hanswer : Memory.reply r q m = (.ok a, m))
    (htold : (accepted response).bind (told q) = .ok a)
    (h : ∀ sent', Mirrored e r marks requests m ⟨responses, sent'⟩ →
      AgreesFrom e r marks requests (f a) m ⟨responses, sent'⟩ w) :
    AgreesFrom e r marks requests (Forge.query r q >>= f) m ⟨response :: responses, sent⟩ w :=
  agrees_query he hfailing hrequest hanswer htold (fun _ _ => hR.read rfl) h

theorem agrees_write (he : e.Usable) (hfailing : m.failing = []) {x : Forge.Mark}
    {method : Http.Method} {body : Json}
    (hR : Mirrored e r marks requests m ⟨response :: responses, sent⟩)
    (hrequest : request? e r q = requestTo? e method (e.address r path) (some body))
    (hcarries : ∀ url headers, Url.parse e.hosts (e.address r path) = some url →
      Carries e r x ⟨method, url, headers, some body⟩)
    (hanswer : Memory.reply r q m = (.ok a, m')) (hmark : m'.marks = m.marks ++ [x])
    (htold : (accepted response).bind (told q) = .ok a)
    (h : ∀ sent', Mirrored e r marks requests m' ⟨responses, sent'⟩ →
      AgreesFrom e r marks requests (f a) m' ⟨responses, sent'⟩ w) :
    AgreesFrom e r marks requests (Forge.query r q >>= f) m ⟨response :: responses, sent⟩ w :=
  agrees_query he hfailing hrequest hanswer htold
    (fun url hurl => hR.write (hcarries url _ hurl) hmark) h

end Questions

namespace Workflow

variable {ctx : Context} {sha : String} {m : Memory} {stored head : String} {w : World}

/-! ## Tagging -/

theorem publishTag_agrees (he : e.Usable) (hfailing : m.failing = []) {d : MergeData}
    {tag : String} {object ref update : Http.Response} {more : List Http.Response}
    {marks : List Forge.Mark} {requests sent : List Http.Request} {β : Type}
    {f : Unit → Flow Forge.service β}
    (hR : Mirrored e ctx.repository marks requests m ⟨object :: ref :: update :: more, sent⟩)
    (hobject : object.Tells sha? ("tagobj-" ++ tag)) (href : ref.isSuccess = true)
    (hupdate : update.isSuccess = true)
    (h : ∀ m' sent' w', Mirrored e ctx.repository marks requests m' ⟨more, sent'⟩ →
      AgreesFrom e ctx.repository marks requests (f ()) m' ⟨more, sent'⟩ w') :
    AgreesFrom e ctx.repository marks requests (publishTag ctx d tag >>= f) m
      ⟨object :: ref :: update :: more, sent⟩ w := by
  simp only [AgreesFrom, publishTag, bind_assoc, Context.run_status_bind]
  refine agrees_write he hfailing hR rfl (x := .createTagObject tag (tagMessage d.next) d.head)
    (fun url headers hurl => ⟨rfl, hurl, rfl⟩) rfl rfl (tells_iff.2 hobject) fun sent₁ hR₁ => ?_
  refine agrees_write he hfailing hR₁ rfl (x := .createRef (tagRef tag) ("tagobj-" ++ tag))
    (fun url headers hurl => ⟨rfl, hurl, rfl⟩) rfl rfl (accepted_bind_eq_ok_iff.2 ⟨href, rfl⟩)
    fun sent₂ hR₂ => ?_
  simp only [AgreesFrom, Context.run_success_bind]
  refine agrees_write he hfailing hR₂ rfl
    (x := .updateVariable ctx.config.release.versionVariable d.next.text)
    (fun url headers hurl => ⟨rfl, hurl, rfl⟩) rfl rfl (accepted_bind_eq_ok_iff.2 ⟨hupdate, rfl⟩)
    fun sent₃ hR₃ => ?_
  exact h _ _ _ hR₃

theorem createTag_agrees (hdry : ctx.dryRun = false) (he : e.Usable) (hfailing : m.failing = [])
    (hstored : m.values.lookup ctx.config.release.versionVariable = some stored)
    (hhead : m.commits.lookup (branchRef ctx.config.release.branch) = some head) (hne : head ≠ "")
    {pulls value commit object ref update : Http.Response}
    (hpulls : pulls.Tells (Json.list? PullRequest.ofJson?) ((m.pulls.lookup sha).getD []))
    (hvalue : value.Tells (single? Json.text? "value") stored)
    (hcommit : commit.Tells sha? head)
    (hobject : ∀ p d, ctx.tagPattern = .ok p → MergeData.Read ctx sha m d →
      object.Tells sha? ("tagobj-" ++ p.format d.next))
    (href : ref.isSuccess = true) (hupdate : update.isSuccess = true) (more : List Http.Response)
    (requests : List Http.Request) (w : World) :
    AgreesFrom e ctx.repository m.marks requests (createTag ctx sha) m
      ⟨pulls :: value :: commit :: object :: ref :: update :: more, requests⟩ w := by
  have hR := Mirrored.refl e ctx.repository m
    ⟨pulls :: value :: commit :: object :: ref :: update :: more, requests⟩
  rw [createTag_eq sha hdry, mergeData_eq]
  cases hp : ctx.tagPattern with
  | error failure => exact ⟨rfl, rfl, hR⟩
  | ok p =>
  simp only [AgreesFrom, Flow.run_ofExcept_ok_bind, bind_assoc]
  refine agrees_read he hfailing hR rfl rfl (tells_iff.2 hpulls) fun sent₁ hR₁ => ?_
  refine agrees_read he hfailing hR₁ rfl (Memory.reply_getVariable_some hstored)
    (tells_iff.2 hvalue) fun sent₂ hR₂ => ?_
  refine agrees_read he hfailing hR₂ rfl (Memory.reply_commitSha_some hhead)
    (tells_commit_iff.2 ⟨hcommit, hne⟩) fun sent₃ hR₃ => ?_
  refine .silent_bind (mergeDecision_tells ctx sha _ _ _).asks_of_tells hR₃ fun d w₁ hd => ?_
  have hread : d.Read ctx sha m :=
    (read_iff_madeOf (by simp [hfailing]) hstored hhead).2 (madeOf_of_run hd)
  refine publishTag_agrees he hfailing hR₃ (hobject p d hp hread) href hupdate
    fun m' sent' w' hR' => ?_
  exact .silent ((ctx.runner.tellAll_asks _).bind fun _ => trivial) hR'

/-- **Tagging by way of a server that responds as the memory answers is tagging beside the memory.**
Both runs end in the same way; they print, warn and write the same; and what the memory is asked to
change, the server is requested to change, in the same order and with the same data. -/
theorem createTag_by_server (hdry : ctx.dryRun = false) (he : e.Usable) (hfailing : m.failing = [])
    (hstored : m.values.lookup ctx.config.release.versionVariable = some stored)
    (hhead : m.commits.lookup (branchRef ctx.config.release.branch) = some head) (hne : head ≠ "")
    {tag : String} (htag : ∀ p d, ctx.tagPattern = .ok p → MergeData.Read ctx sha m d →
      tag = p.format d.next)
    {ref update : Http.Response} (href : ref.isSuccess = true) (hupdate : update.isSuccess = true)
    (more : List Http.Response) (requests : List Http.Request) (w : World) :
    let script : Http.Script := {
      responses :=
        .ofJson 200 (.array (((m.pulls.lookup sha).getD []).map PullRequest.toJson)) ::
        .ofJson 200 (.ofMembers [("value", .ofText stored)]) ::
        .ofJson 200 (.ofMembers [("sha", .ofText head)]) ::
        .ofJson 200 (.ofMembers [("sha", .ofText ("tagobj-" ++ tag))]) :: ref :: update :: more
      requests }
    let inMemory := (createTag ctx sha).run Memory.host m w
    let byServer := (connect e (createTag ctx sha)).run Http.Script.host script w
    byServer.1 = inMemory.1 ∧ byServer.2.2.output = inMemory.2.2.output ∧
      byServer.2.2.errors = inMemory.2.2.errors ∧ byServer.2.2.files = inMemory.2.2.files ∧
      ∃ marks sent, inMemory.2.1.marks = m.marks ++ marks ∧
        byServer.2.1.requests = requests ++ sent ∧
        List.Forall₂ (Carries e ctx.repository) marks
          (sent.filter fun request => request.method != .get) := by
  intro script inMemory byServer
  have hagrees : AgreesFrom e ctx.repository m.marks requests (createTag ctx sha) m script w :=
    createTag_agrees hdry he hfailing hstored hhead hne
      (.ofJson (writable_pulls _) (list?_pulls _))
      (.ofJson (writable_textRecord _ _) (single?_textRecord _ _))
      (.ofJson (writable_textRecord _ _) (sha?_textRecord _))
      (fun p d hp hd => htag p d hp hd ▸ .ofJson (writable_textRecord _ _) (sha?_textRecord _))
      href hupdate more requests w
  obtain ⟨w', halike, hrun⟩ : ∃ w', _ ∧ byServer = _ :=
    run_connect (createTag ctx sha) (World.Alike.refl w)
  rw [hrun]
  have hworld := hagrees.world
  refine ⟨hagrees.outcome.symm, ?_, ?_, ?_, hagrees.services⟩
  · exact halike.output.trans (congrArg World.output hworld.symm)
  · exact halike.errors.trans (congrArg World.errors hworld.symm)
  · exact halike.files.trans (congrArg World.files hworld.symm)

/-- A server that responds as a memory with one pull request answers. -/
theorem createTag_by_server_feature :
    let ctx : Context := ⟨⟨"acme", "notify-api"⟩, {}, {}, false, .plain, 0, false⟩
    let pull : PullRequest := ⟨42, "https://example.com/pull/42", ["feature"]⟩
    let script : Http.Script := {
      responses := [.ofJson 200 (.array [pull.toJson]),
        .ofJson 200 (.ofMembers [("value", .ofText "1.2.3")]),
        .ofJson 200 (.ofMembers [("sha", .ofText "f00d")]),
        .ofJson 200 (.ofMembers [("sha", .ofText "tagobj-1.3.0")]), ⟨201, ""⟩, ⟨204, ""⟩] }
    let run := (connect ⟨publicAddress, "token", Url.host?⟩ (createTag ctx "c0ffee")).run
      Http.Script.host script {}
    run.1 = .done ⟨⟨1, 2, 3⟩, ⟨1, 3, 0⟩, "1.3.0", "f00d", true⟩ ∧
      (run.2.1.requests.filter fun request => request.method != .get).map Http.Request.body = [
        some (.ofMembers [("tag", .ofText "1.3.0"),
          ("message", .ofText "Release for version 1.3.0"), ("object", .ofText "f00d"),
          ("type", .ofText "commit")]),
        some (.ofMembers [("ref", .ofText "refs/tags/1.3.0"), ("sha", .ofText "tagobj-1.3.0")]),
        some (.ofMembers [("name", .ofText "RELEASE_VERSION"), ("value", .ofText "1.3.0")])] := by
  intro ctx pull script run
  let m : Memory :=
    { pulls := [("c0ffee", [pull])]
      values := [("RELEASE_VERSION", "1.2.3")]
      commits := [("heads/release", "f00d")] }
  have he : Endpoint.Usable ⟨publicAddress, "token", Url.host?⟩ := ⟨by decide +kernel, by decide⟩
  have hp : ctx.tagPattern = .ok ⟨"\x7bversion\x7d", by decide⟩ := dif_pos _
  have hd : MergeData.Read ctx "c0ffee" m ⟨"f00d", ⟨1, 2, 3⟩, ⟨1, 3, 0⟩, .minor, some "feature",
      42, "https://example.com/pull/42"⟩ :=
    ⟨by decide, ⟨_, _, rfl, by decide, rfl, rfl⟩, ⟨_, rfl, by decide⟩, by decide, by decide⟩
  have htag : ∀ p d, ctx.tagPattern = .ok p → MergeData.Read ctx "c0ffee" m d →
      "1.3.0" = p.format d.next := by
    intro p d hp' hd'
    obtain rfl := Except.ok.inj (hp'.symm.trans hp)
    obtain rfl := read_unique hd' hd
    decide
  obtain ⟨hresult, -, -, -, marks, sent, hmarks, hsent, hcarries⟩ :=
    createTag_by_server (m := m) rfl he rfl rfl rfl (by decide) htag
      (show Http.Response.isSuccess ⟨201, ""⟩ = true from rfl)
      (show Http.Response.isSuccess ⟨204, ""⟩ = true from rfl) [] [] {}
  have hmade : ((createTag ctx "c0ffee").run Memory.host m {}).2.1.marks =
      [.createTagObject "1.3.0" "Release for version 1.3.0" "f00d",
        .createRef "refs/tags/1.3.0" "tagobj-1.3.0",
        .updateVariable "RELEASE_VERSION" "1.3.0"] := by decide
  obtain rfl := hmarks.symm.trans hmade
  refine ⟨hresult.trans (by decide), ?_⟩
  have hrun : run.2.1.requests = sent := hsent
  rw [hrun]
  generalize sent.filter (fun request => request.method != .get) = changes at hcarries ⊢
  obtain _ | ⟨h₁, _ | ⟨h₂, _ | ⟨h₃, _ | _⟩⟩⟩ := hcarries
  rw [List.map_cons, List.map_cons, List.map_singleton, h₁.2.2, h₂.2.2, h₃.2.2]

end Workflow

end ReleaseFlow
