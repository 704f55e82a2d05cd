import ReleaseFlow.Proofs.Flow.Race
import ReleaseFlow.Proofs.Workflow.Questions
import ReleaseFlow.Proofs.Workflow.Tagging

/-!
# The stages of tagging

* `Stage`, `Stage.question?`: how far tagging has come, and what it asks next;
* `Moves`: from stage to stage, by the answers;
* `createTag_follows`: **the questions of tagging and their answers lead from stage to stage**.
-/

namespace ReleaseFlow

open ReleaseFlow.Flow (follows_ask_bind follows_print_bind follows_of_quiet)

namespace Workflow

/-- How far tagging has come. -/
inductive Stage where
  | start
  /-- The pull requests are known. -/
  | listed (pulls : List PullRequest)
  /-- The stored version is known, too. -/
  | read (pulls : List PullRequest) (stored : String)
  /-- The merge is known. -/
  | decided (d : MergeData)
  /-- There is a tag object. -/
  | tagged (d : MergeData) (object : String)
  /-- There is a ref. -/
  | named (d : MergeData)
  /-- The version is stored. -/
  | stored (d : MergeData)
  /-- Nothing more is asked. -/
  | ended

/-- What is asked next. -/
def Stage.question? (ctx : Context) (p : TagPattern) (sha : String) : Stage → Option Forge.Query
  | start => some (.pullRequests sha)
  | listed _ => some (.getVariable ctx.config.release.versionVariable)
  | read _ _ => some (.commitSha (branchRef ctx.config.release.branch))
  | decided d => some (.createTagObject (p.format d.next) (tagMessage d.next) d.head)
  | tagged d object => some (.createRef (tagRef (p.format d.next)) object)
  | named d => some (.updateVariable ctx.config.release.versionVariable d.next.text)
  | stored _ => none
  | ended => none

variable (ctx : Context) (p : TagPattern) (sha : String)

/-- The next stage after a question and its reply. -/
inductive Moves : Stage → (c : Forge.Call) → Except Failure c.query.Answer → Stage → Prop
  | list (pulls : List PullRequest) :
    Moves .start ⟨ctx.repository, .pullRequests sha⟩ (.ok pulls) (.listed pulls)
  | read {pulls : List PullRequest} (stored : String) : Moves (.listed pulls)
    ⟨ctx.repository, .getVariable ctx.config.release.versionVariable⟩ (.ok stored)
    (.read pulls stored)
  | decide {pulls : List PullRequest} {stored head : String} {d : MergeData}
    (hd : d.MadeOf ctx pulls stored head) : Moves (.read pulls stored)
    ⟨ctx.repository, .commitSha (branchRef ctx.config.release.branch)⟩ (.ok head) (.decided d)
  /-- The answers make no merge. -/
  | giveUp {pulls : List PullRequest} {stored head : String} : Moves (.read pulls stored)
    ⟨ctx.repository, .commitSha (branchRef ctx.config.release.branch)⟩ (.ok head) .ended
  | tag {d : MergeData} (object : String) : Moves (.decided d)
    ⟨ctx.repository, .createTagObject (p.format d.next) (tagMessage d.next) d.head⟩ (.ok object)
    (.tagged d object)
  | name {d : MergeData} {object : String} : Moves (.tagged d object)
    ⟨ctx.repository, .createRef (tagRef (p.format d.next)) object⟩ (.ok ()) (.named d)
  | store {d : MergeData} : Moves (.named d)
    ⟨ctx.repository, .updateVariable ctx.config.release.versionVariable d.next.text⟩ (.ok ())
    (.stored d)
  | refuse {stage : Stage} {q : Forge.Query} (hq : stage.question? ctx p sha = some q)
    (e : Failure) : Moves stage ⟨ctx.repository, q⟩ (.error e) .ended

variable {ctx p sha}

theorem follows_query {α : Type} {stage : Stage} {q : Forge.Query}
    {f : q.Answer → Flow Forge.service α} (hq : stage.question? ctx p sha = some q)
    (hok : ∀ a : q.Answer, ∃ stage', Moves ctx p sha stage ⟨ctx.repository, q⟩ (.ok a) stage' ∧
      (f a).Follows (Moves ctx p sha) stage') :
    (Forge.query ctx.repository q >>= f).Follows (Moves ctx p sha) stage :=
  follows_ask_bind (S := Forge.service) (q := ⟨ctx.repository, q⟩)
    (fun e => ⟨.ended, .refuse hq e⟩) hok

theorem publishTag_follows {α : Type} {d : MergeData} {f : Unit → Flow Forge.service α}
    (hf : (f ()).Asks fun _ => False) : (publishTag ctx d (p.format d.next) >>= f).Follows
      (Moves ctx p sha) (.decided d) := by
  simp only [publishTag, bind_assoc, pure_bind]
  refine follows_print_bind ?_
  refine follows_query rfl fun object => ⟨.tagged d object, .tag object, ?_⟩
  refine follows_query rfl fun _ => ⟨.named d, .name, ?_⟩
  refine follows_print_bind ?_
  exact follows_query rfl fun _ => ⟨.stored d, .store, follows_of_quiet hf⟩

/-- **Tagging goes from stage to stage.** -/
theorem createTag_follows (hdry : ctx.dryRun = false) (hp : ctx.tagPattern = .ok p) :
    (createTag ctx sha).Follows (Moves ctx p sha) .start := by
  rw [createTag_eq sha hdry, hp, mergeData_eq]
  simp only [Flow.ofExcept, bind_assoc]
  change Flow.Follows _ (Forge.query ctx.repository (.pullRequests sha) >>= _) _
  refine follows_query rfl fun pulls => ⟨.listed pulls, .list pulls, ?_⟩
  refine follows_query rfl fun stored => ⟨.read pulls stored, .read stored, ?_⟩
  refine follows_query rfl fun head => ?_
  have htells := (mergeDecision_tells ctx sha pulls stored head).asks_of_tells
    (Q := fun _ => False)
  have hends := mergeDecision_ends ctx sha pulls stored head
  by_cases hmade : ∃ d, MergeData.MadeOf ctx pulls stored head d
  · obtain ⟨d, hd⟩ := hmade
    refine ⟨.decided d, .decide hd, .bind_of_quiet htells hends fun d' hd' => ?_⟩
    obtain rfl := madeOf_unique hd hd'
    exact publishTag_follows ((ctx.runner.tellAll_asks _).bind fun _ => trivial)
  · exact ⟨.ended, .giveUp, .bind_of_quiet htells hends fun d hd => absurd ⟨d, hd⟩ hmade⟩

end Workflow

end ReleaseFlow
