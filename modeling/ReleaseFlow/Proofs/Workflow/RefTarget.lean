import Mathlib.Data.List.Forall2
import ReleaseFlow.Proofs.Forge.Responses
import ReleaseFlow.Proofs.Workflow.Conversation

/-!
# What the ref of a tag points at

* `createTag_sends`: the requests of tagging, wherever they are sent to;
* `createTag_points`: **the ref is made to point at the object that the response about the tag
  object names, and at nothing when it names none**.
-/

namespace ReleaseFlow

open ReleaseFlow.Rest

namespace Workflow

variable {e : Endpoint} {ctx : Context} {sha : String}

theorem exists_requests (ctx : Context) (sha : String) (he : e.Usable) (tag object : String)
    (d : MergeData) :
    ∃ requests, List.Forall₂ (RequestOf e ctx) (tagQueries ctx sha tag object d) requests := by
  have hrequest : ∀ method path body, ∃ request,
      requestTo? e method (e.address ctx.repository path) body = some request := by
    intro method path body
    obtain ⟨url, -, h⟩ := he.request ctx.repository method path body
    exact ⟨_, h⟩
  obtain ⟨commits, hcommits⟩ := hrequest .get ("commits/" ++ sha ++ "/pulls") none
  obtain ⟨stored, hstored⟩ := hrequest .get
    ("actions/variables/" ++ ctx.config.release.versionVariable) none
  obtain ⟨head, hhead⟩ := hrequest .get
    ("commits/" ++ branchRef ctx.config.release.branch) none
  obtain ⟨created, hcreated⟩ := hrequest .post "git/tags" (some _)
  obtain ⟨ref, href⟩ := hrequest .post "git/refs" (some _)
  obtain ⟨written, hwritten⟩ := hrequest .patch
    ("actions/variables/" ++ ctx.config.release.versionVariable) (some _)
  refine ⟨[commits, stored, head, created, ref, written], ?_⟩
  exact .cons hcommits (.cons hstored (.cons hhead
    (.cons hcreated (.cons href (.cons hwritten .nil)))))

theorem createTag_sends (sha : String) (hdry : ctx.dryRun = false) (he : e.Usable) {p : TagPattern}
    (hp : ctx.tagPattern = .ok p) (responses : List Http.Response) (w : World) :
    let run := (connect e (createTag ctx sha)).run Http.Script.host ⟨responses, []⟩ w
    ∃ d object requests,
      (∀ d', MergeTold ctx ⟨responses, []⟩ d' → d' = d) ∧
      (∀ o, (responses.getD 3 Http.exhausted).Tells sha? o → o = object) ∧
      List.Forall₂ (RequestOf e ctx) (tagQueries ctx sha (p.format d.next) object d) requests ∧
      run.2.1.requests <+: requests ∧
      ∀ k < 6, k < run.2.1.requests.length ↔ ∀ j < k, tagPasses ctx ⟨responses, []⟩ j := by
  intro run
  have : Nonempty MergeData := ⟨⟨"", ⟨0, 0, 0⟩, ⟨0, 0, 0⟩, .minor, none, 0, ""⟩⟩
  obtain ⟨d, hd⟩ : ∃ d, ∀ d', MergeTold ctx ⟨responses, []⟩ d' → d' = d :=
    exists_only fun _ _ => mergeTold_unique
  obtain ⟨object, hobject⟩ :
      ∃ object, ∀ o, (responses.getD 3 Http.exhausted).Tells sha? o → o = object :=
    exists_only fun _ _ => Http.Response.Tells.unique
  obtain ⟨requests, hrequests⟩ := exists_requests ctx sha he (p.format d.next) object d
  obtain ⟨w', -, hrun⟩ : ∃ w', _ ∧ run = _ :=
    run_connect (createTag ctx sha) (World.Alike.refl w)
  have hasking := createTag_asking hdry he.token hp ⟨responses, []⟩ w hd hobject hrequests
  obtain ⟨sent, hsent, hfirst, hcount⟩ := hasking.sent fun script' run h => by
    obtain ⟨w', -, rfl⟩ := h
    exact (ctx.runner.run_tellAll_pure _ _ _ _ _).1
  rw [List.nil_append] at hsent
  rw [← hrequests.length_eq] at hcount
  refine ⟨d, object, requests, hd, hobject, hrequests, ?_⟩
  rw [hrun]
  dsimp only
  rw [hsent]
  exact ⟨hfirst, hcount⟩

theorem passes_four_iff {script : Http.Script} : (∀ j < 4, tagPasses ctx script j) ↔
    ∃ d object, MergeTold ctx script d ∧ (script.nth 3).Tells sha? object := by
  constructor
  · intro h
    obtain ⟨d, hd⟩ := h 2 (by decide)
    obtain ⟨object, hobject⟩ := h 3 (by decide)
    exact ⟨d, object, hd, hobject⟩
  · rintro ⟨d, object, hd, hobject⟩ j hj
    have ⟨pulls, stored, head, hpulls, hstored, _⟩ := hd
    match j, hj with
    | 0, _ => exact ⟨pulls, hpulls⟩
    | 1, _ => exact ⟨stored, hstored⟩
    | 2, _ => exact ⟨d, hd⟩
    | 3, _ => exact ⟨object, hobject⟩

theorem createRef_request {ref object : String} {request : Http.Request}
    (h : RequestOf e ctx (.createRef ref object) request) : request.method = .post ∧
      Url.parse e.hosts (e.address ctx.repository "git/refs") = some request.url ∧
      request.body = some (.ofMembers [("ref", .ofText ref), ("sha", .ofText object)]) := by
  obtain ⟨url, hurl, rfl⟩ := Option.map_eq_some_iff.1 h
  exact ⟨rfl, hurl, rfl⟩

/-- **The ref points at what the response about the tag object names.** It is asked for exactly when
the responses before it passed, and these pass whether or not an object is named: when none is, the
ref is made to point at nothing, and the variable is written after it. -/
theorem createTag_points (sha : String) (hdry : ctx.dryRun = false) (he : e.Usable)
    (responses : List Http.Response) (w : World) :
    let requests :=
      ((connect e (createTag ctx sha)).run Http.Script.host ⟨responses, []⟩ w).2.1.requests
    let created := responses.getD 3 Http.exhausted
    (4 < requests.length ↔ ∃ p d object, ctx.tagPattern = .ok p ∧
      MergeTold ctx ⟨responses, []⟩ d ∧ created.Tells sha? object) ∧
    (5 < requests.length ↔
      4 < requests.length ∧ (responses.getD 4 Http.exhausted).isSuccess = true) ∧
    ∀ request, requests[4]? = some request → ∃ p d object, ctx.tagPattern = .ok p ∧
      MergeTold ctx ⟨responses, []⟩ d ∧ created.Tells sha? object ∧
      request.method = .post ∧
      Url.parse e.hosts (e.address ctx.repository "git/refs") = some request.url ∧
      request.body = some (.ofMembers
        [("ref", .ofText ("refs/tags/" ++ p.format d.next)), ("sha", .ofText object)]) ∧
      (object = "" ↔ LacksSha created.body) := by
  intro requests created
  cases hp : ctx.tagPattern with
  | error failure =>
    have hnone : ¬ ((∃ p, ctx.tagPattern = .ok p) ∧ Http.isHeaderValue e.token = true) := by
      simp [hp]
    obtain ⟨failure, hend⟩ : ∃ failure, (createTag ctx sha).run _ _ _ = (.failed failure, _, _) :=
      createTag_unsent hdry hnone ⟨responses, []⟩ w
    obtain ⟨w', -, hrun⟩ : ∃ w', _ ∧ (connect e (createTag ctx sha)).run Http.Script.host
        ⟨responses, []⟩ w = _ := run_connect (createTag ctx sha) (World.Alike.refl w)
    have hempty : requests = [] := by
      simp only [requests, hrun, hend]
    simp [hempty]
  | ok p =>
  obtain ⟨d, object, asked, hd, hobject, hasked, hfirst, hcount⟩ :=
    createTag_sends sha hdry he hp responses w
  have hfour : 4 < requests.length ↔ _ := (hcount 4 (by decide)).trans passes_four_iff
  have hfive : 5 < requests.length ↔ ∀ j < 5, tagPasses ctx ⟨responses, []⟩ j :=
    hcount 5 (by decide)
  refine ⟨hfour.trans ?_, hfive.trans ?_, fun request hrequest => ?_⟩
  · exact ⟨fun ⟨d, object, h⟩ => ⟨p, d, object, rfl, h⟩,
      fun ⟨_, d, object, _, h⟩ => ⟨d, object, h⟩⟩
  · rw [Nat.forall_lt_succ_right]
    exact and_congr_left fun _ => (hcount 4 (by decide)).symm
  · obtain ⟨hlt, hget⟩ := List.getElem?_eq_some_iff.1 hrequest
    obtain ⟨d', object', htold, hnamed⟩ := hfour.1 hlt
    obtain rfl := hd d' htold
    obtain rfl := hobject object' hnamed
    obtain _ | ⟨-, _ | ⟨-, _ | ⟨-, _ | ⟨-, _ | ⟨href, -⟩⟩⟩⟩⟩ := hasked
    have hfifth := List.prefix_iff_getElem?.1 hfirst 4 hlt
    obtain rfl := (Option.some.inj hfifth).trans hget
    obtain ⟨hmethod, hurl, hbody⟩ := createRef_request href
    refine ⟨p, d', object', rfl, htold, hnamed, hmethod, hurl, hbody, ?_⟩
    have hread : (Json.readBytes created.body.bytes).bind sha? = some object' := hnamed.2
    rw [lacksSha_iff, hread, Option.some.injEq]

/-- A response that names no object lets the ref and the variable be written. -/
theorem createTag_points_nowhere :
    let ctx : Context := ⟨⟨"acme", "notify-api"⟩, {}, {}, false, .plain, 0, false⟩
    let responses : List Http.Response := [
      ⟨200, "[\x7b\"number\":42,\"html_url\":\"https://example.com/pull/42\",\"labels\":[]\x7d]"⟩,
      ⟨200, "\x7b\"value\":\"1.2.3\"\x7d"⟩, ⟨200, "\x7b\"sha\":\"f00d\"\x7d"⟩, ⟨201, "\x7b\x7d"⟩,
      ⟨201, "\x7b\x7d"⟩, ⟨204, ""⟩]
    let requests := ((connect ⟨publicAddress, "token", Url.host?⟩ (createTag ctx "c0ffee")).run
      Http.Script.host ⟨responses, []⟩ {}).2.1.requests
    5 < requests.length ∧ ∃ request, requests[4]? = some request ∧ request.method = .post ∧
      request.body =
        some (.ofMembers [("ref", .ofText "refs/tags/1.3.0"), ("sha", .ofText "")]) := by
  intro ctx responses requests
  have hpulls : (Http.Script.nth ⟨responses, []⟩ 0).Tells (Json.list? PullRequest.ofJson?)
      [⟨42, "https://example.com/pull/42", []⟩] := ⟨rfl, by decide +kernel⟩
  have hstored : (Http.Script.nth ⟨responses, []⟩ 1).Tells (single? Json.text? "value") "1.2.3" :=
    ⟨rfl, by decide +kernel⟩
  have hmerge : MergeTold ctx ⟨responses, []⟩ ⟨"f00d", ⟨1, 2, 3⟩, ⟨1, 3, 0⟩, .minor, none, 42,
      "https://example.com/pull/42"⟩ :=
    ⟨_, _, "f00d", hpulls, hstored, ⟨rfl, by decide +kernel⟩, by decide,
      ⟨_, _, rfl, by decide, rfl, rfl⟩, by decide, rfl, by decide⟩
  have hobject : (responses.getD 3 Http.exhausted).Tells sha? "" := ⟨rfl, by decide +kernel⟩
  have hpattern : ctx.tagPattern = .ok ⟨"\x7bversion\x7d", by decide⟩ := by decide
  have husable : Endpoint.Usable ⟨publicAddress, "token", Url.host?⟩ :=
    ⟨by decide +kernel, by decide⟩
  have hdry : ctx.dryRun = false := rfl
  obtain ⟨hfour, hfive, hpoints⟩ := createTag_points "c0ffee" hdry husable responses {}
  have hasked : 4 < requests.length := hfour.2 ⟨_, _, _, hpattern, hmerge, hobject⟩
  obtain ⟨p, d, object, hp, hd, hnamed, hmethod, -, hbody, -⟩ :=
    hpoints _ (List.getElem?_eq_getElem hasked)
  obtain rfl := Except.ok.inj (hpattern.symm.trans hp)
  obtain rfl := mergeTold_unique hmerge hd
  obtain rfl := hobject.unique hnamed
  exact ⟨hfive.2 ⟨hasked, by decide⟩, _, List.getElem?_eq_getElem hasked, hmethod, hbody⟩

end Workflow

end ReleaseFlow
