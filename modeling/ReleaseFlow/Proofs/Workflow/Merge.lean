import ReleaseFlow.Proofs.Flow.Acts
import ReleaseFlow.Proofs.Forge.Asking
import ReleaseFlow.Workflow.Tagging

/-!
# The data of a merge

* `MergeData.Read`: what a service in memory tells about a merge;
* `MergeData.MadeOf`: what answers to the questions about a merge make of it;
* `madeOf_unique`, `read_unique`: there is at most one such thing;
* `mergeDecision`, `mergeDecision_made`, `mergeDecision_ends`: what is made of the answers to all
  three questions, whoever gives them;
* `mergeData_run`: **the data of a merge is found exactly when the memory tells it**, and finding it
  changes nothing.
-/

namespace ReleaseFlow

/-- The memory tells the data of the merge that made a commit: its first pull request, the stored
version and what the labels make of it, and the head of the release branch. -/
structure MergeData.Read (ctx : Context) (sha : String) (m : Memory) (d : MergeData) : Prop where
  answered : ∀ op ∈ [Forge.Operation.pullRequests, .getVariable, .commitSha], op ∉ m.failing
  pull : ∃ pull others, m.pulls.lookup sha = some (pull :: others) ∧
    (d.bump, d.label) = ctx.config.labels.classify pull.labels ∧
    d.number = pull.number ∧ d.url = pull.url
  current : ∃ stored, m.values.lookup ctx.config.release.versionVariable = some stored ∧
    Version.parse stored = .ok d.current
  head : m.commits.lookup (branchRef ctx.config.release.branch) = some d.head
  next : d.current.bump d.bump = .ok d.next

/-- What pull requests, a stored version and a head make of a merge. -/
structure MergeData.MadeOf (ctx : Context) (pulls : List PullRequest) (stored head : String)
    (d : MergeData) : Prop where
  pull : ∃ pull others, pulls = pull :: others ∧
    (d.bump, d.label) = ctx.config.labels.classify pull.labels ∧
    d.number = pull.number ∧ d.url = pull.url
  current : Version.parse stored = .ok d.current
  head : head = d.head
  next : d.current.bump d.bump = .ok d.next

theorem Context.warning_if_acts {α : Type} {P : Act Forge.service → Prop} (ctx : Context)
    {c : Bool} {x : Warning} (h : P (.warn (Console.warningLine ctx.palette x)))
    {f : Unit → Flow Forge.service α} (hf : ∀ u, (f u).Acts P) :
    (if c = true then ctx.warning x >>= f else f ()).Acts P := by
  split
  · exact (Flow.acts_warn h).bind hf
  · exact hf ()

namespace MergeData.Read

variable {ctx : Context} {sha : String} {m : Memory} {d : MergeData}

theorem parse_eq (h : d.Read ctx sha m) {stored : String}
    (hs : m.values.lookup ctx.config.release.versionVariable = some stored) :
    Version.parse stored = .ok d.current := by
  obtain ⟨stored', hs', hv⟩ := h.current
  obtain rfl : stored = stored' := Option.some.inj (hs.symm.trans hs')
  exact hv

end MergeData.Read

namespace Workflow

variable {ctx : Context} {sha : String} {m : Memory}

theorem madeOf_unique {pulls : List PullRequest} {stored head : String} {d d' : MergeData}
    (h : d.MadeOf ctx pulls stored head) (h' : d'.MadeOf ctx pulls stored head) : d = d' := by
  obtain ⟨⟨pull, others, hp, hc, hn, hu⟩, hv, hh, hb⟩ := h
  obtain ⟨⟨pull', others', hp', hc', hn', hu'⟩, hv', hh', hb'⟩ := h'
  obtain ⟨rfl, rfl⟩ := List.cons.inj (hp.symm.trans hp')
  obtain ⟨head, current, next, bump, label, number, url⟩ := d
  obtain ⟨head', current', next', bump', label', number', url'⟩ := d'
  simp only at *
  obtain ⟨rfl, rfl⟩ := Prod.mk.inj (hc.trans hc'.symm)
  obtain rfl : current = current' := Except.ok.inj (hv.symm.trans hv')
  obtain rfl : next = next' := Except.ok.inj (hb.symm.trans hb')
  subst hn hu hn' hu' hh hh'
  rfl

theorem read_iff_madeOf {stored head : String} {d : MergeData}
    (hanswered : ∀ op ∈ [Forge.Operation.pullRequests, .getVariable, .commitSha], op ∉ m.failing)
    (hs : m.values.lookup ctx.config.release.versionVariable = some stored)
    (hh : m.commits.lookup (branchRef ctx.config.release.branch) = some head) :
    d.Read ctx sha m ↔ d.MadeOf ctx ((m.pulls.lookup sha).getD []) stored head := by
  constructor
  · intro hd
    obtain ⟨pull, others, hpulls, hpull⟩ := hd.pull
    have hhead : head = d.head := Option.some.inj (hh.symm.trans hd.head)
    exact ⟨⟨pull, others, by rw [hpulls]; rfl, hpull⟩, hd.parse_eq hs, hhead, hd.next⟩
  · intro hd
    obtain ⟨pull, others, hpulls, hpull⟩ := hd.pull
    refine ⟨hanswered, ⟨pull, others, ?_, hpull⟩, ⟨stored, hs, hd.current⟩, hd.head ▸ hh, hd.next⟩
    cases hlookup : m.pulls.lookup sha with
    | none => rw [hlookup] at hpulls; cases hpulls
    | some pulls => rw [hlookup] at hpulls; exact congrArg some hpulls

theorem read_unique {d d' : MergeData} (h : d.Read ctx sha m) (h' : d'.Read ctx sha m) :
    d = d' := by
  obtain ⟨stored, hs, -⟩ := h.current
  exact madeOf_unique ((read_iff_madeOf h.answered hs h.head).1 h)
    ((read_iff_madeOf h.answered hs h.head).1 h')

/-- What is made of the pull requests, the stored version and the head. -/
def mergeDecision (ctx : Context) (sha : String) (pulls : List PullRequest) (stored head : String) :
    Flow Forge.service MergeData := do
  Flow.log .info ("The " ++ ctx.config.release.branch ++ " branch head SHA is: " ++ head)
  match pulls with
  | [] => Flow.failed (.pullRequest ("No pull request is associated with commit " ++ sha))
  | pull :: others =>
    if !others.isEmpty then
      ctx.warning (.multiplePullRequests (others.length + 1) pull.number)
    if pull.labels.isEmpty then
      ctx.warning (.noLabels pull.number)
    let current ← Flow.ofExcept (Version.parse stored)
    let decision ← Flow.ofExcept (ctx.config.labels.decide current pull.labels)
    Flow.log .info ("PR #" ++ Text.decimal pull.number.toNat ++ ": " ++ decision.text)
    return {
      head, current
      next := decision.next
      bump := decision.bump
      label := decision.label
      number := pull.number
      url := pull.url }

theorem mergeData_eq (ctx : Context) (sha : String) : mergeData ctx sha = (do
    let pulls : List PullRequest ← Forge.query ctx.repository (.pullRequests sha)
    let stored : String ←
      Forge.query ctx.repository (.getVariable ctx.config.release.versionVariable)
    let head : String ←
      Forge.query ctx.repository (.commitSha (branchRef ctx.config.release.branch))
    mergeDecision ctx sha pulls stored head) := rfl

/-- What is made of the answers is told, and nothing else is done. -/
theorem mergeDecision_tells (ctx : Context) (sha : String) (pulls : List PullRequest)
    (stored head : String) : (mergeDecision ctx sha pulls stored head).Acts Act.Tells := by
  refine (Flow.acts_log trivial).bind fun _ => ?_
  cases pulls with
  | nil => exact trivial
  | cons pull others =>
  refine ctx.warning_if_acts trivial fun _ => ctx.warning_if_acts trivial fun _ => ?_
  refine (Flow.acts_ofExcept _).bind fun current => (Flow.acts_ofExcept _).bind fun decision => ?_
  exact (Flow.acts_log trivial).bind fun _ => trivial

variable (ctx) in
/-- Pull requests, of which there may be none, a stored version and a head are made into the data
of a merge, if they make one. -/
theorem mergeDecision_made {σ : Type} (host : Host Forge.service σ) (sha : String)
    (pulls : List PullRequest) (stored head : String) (s : σ) (w : World) :
    ∃ w', w.Quiet w' ∧
      ((∃ d, MergeData.MadeOf ctx pulls stored head d ∧
        (mergeDecision ctx sha pulls stored head).run host s w = (.done d, s, w')) ∨
      (∀ d, ¬ MergeData.MadeOf ctx pulls stored head d) ∧ ∃ e,
        (mergeDecision ctx sha pulls stored head).run host s w = (.failed e, s, w')) := by
  simp only [mergeDecision]
  rw [Flow.run_log_bind]
  have hq := (World.Quiet.refl w).note
    (.log .info ("The " ++ ctx.config.release.branch ++ " branch head SHA is: " ++ head))
  cases pulls with
  | nil =>
    refine ⟨_, hq, Or.inr ⟨fun d hd => ?_, _, rfl⟩⟩
    obtain ⟨pull, others, h, -⟩ := hd.pull
    cases h
  | cons pull others =>
  simp only [Context.run_warning_if]
  replace hq := (hq.noteIf (!others.isEmpty) (.warn (Console.warningLine ctx.palette
    (.multiplePullRequests (others.length + 1) pull.number)))).noteIf pull.labels.isEmpty
    (.warn (Console.warningLine ctx.palette (.noLabels pull.number)))
  cases hv : Version.parse stored with
  | error e =>
    refine ⟨_, hq, Or.inr ⟨fun d hd => ?_, e, by rw [Flow.run_ofExcept_error_bind]⟩⟩
    have hcurrent := hd.current
    rw [hv] at hcurrent
    cases hcurrent
  | ok current =>
  rw [Flow.run_ofExcept_ok_bind]
  rcases hc : ctx.config.labels.classify pull.labels with ⟨bump, label⟩
  have hdecide : ctx.config.labels.decide current pull.labels =
      (current.bump bump).map fun next => ⟨bump, label, current, next⟩ := by
    rw [LabelClasses.decide, hc]
  rw [hdecide]
  cases hb : current.bump bump with
  | error e =>
    refine ⟨_, hq, Or.inr ⟨fun d hd => ?_, e, rfl⟩⟩
    obtain ⟨pull', others', hpull, hclassify, -⟩ := hd.pull
    obtain ⟨rfl, -⟩ := List.cons.inj hpull
    obtain ⟨rfl, rfl⟩ := Prod.mk.inj (hc.symm.trans hclassify.symm)
    obtain rfl : current = d.current := Except.ok.inj (hv.symm.trans hd.current)
    have hnext := hd.next
    rw [hb] at hnext
    cases hnext
  | ok next =>
    exact ⟨_, hq.note _, Or.inl ⟨⟨head, current, next, bump, label, pull.number, pull.url⟩,
      ⟨⟨pull, others, rfl, hc.symm, rfl, rfl⟩, hv, rfl, hb⟩, rfl⟩⟩

theorem madeOf_of_run {σ : Type} {host : Host Forge.service σ} {pulls : List PullRequest}
    {stored head : String} {s s' : σ} {w w' : World} {d : MergeData}
    (h : (mergeDecision ctx sha pulls stored head).run host s w = (.done d, s', w')) :
    d.MadeOf ctx pulls stored head := by
  obtain ⟨w₁, -, ⟨d', hmade, hrun⟩ | ⟨-, e, hrun⟩⟩ :=
    mergeDecision_made ctx host sha pulls stored head s w
  · rw [h] at hrun
    cases hrun
    exact hmade
  · rw [h] at hrun
    cases hrun

variable (ctx sha) in
theorem mergeDecision_ends (pulls : List PullRequest) (stored head : String) :
    (mergeDecision ctx sha pulls stored head).Ends fun d => d.MadeOf ctx pulls stored head := by
  obtain ⟨w', -, hrun⟩ := mergeDecision_made ctx Memory.host sha pulls stored head {} {}
  refine (mergeDecision_tells ctx sha pulls stored head).ends_of_run Memory.host {} {}
    (fun d hd => ?_) fun hstalled => ?_
  · exact madeOf_of_run (Prod.ext hd rfl)
  · rcases hrun with ⟨d, -, hr⟩ | ⟨-, e, hr⟩
    · rw [hr] at hstalled
      cases hstalled
    · rw [hr] at hstalled
      cases hstalled

/-- **The data of a merge is found exactly when the memory tells it.** Nothing is changed. -/
theorem mergeData_run (ctx : Context) (sha : String) (m : Memory) (w : World) :
    (∃ d w', d.Read ctx sha m ∧ w.Quiet w' ∧
      (mergeData ctx sha).run Memory.host m w = (.done d, m, w')) ∨
    (∀ d, ¬ MergeData.Read ctx sha m d) ∧ ∃ e w', w.Quiet w' ∧
      (mergeData ctx sha).run Memory.host m w = (.failed e, m, w') := by
  rw [mergeData_eq]
  by_cases hpf : Forge.Operation.pullRequests ∈ m.failing
  · exact Or.inr ⟨fun d hd => hd.answered _ (by simp) hpf, _, w, .refl w,
      Memory.run_query_of_failing _ hpf⟩
  rw [Memory.run_query_of_ok _ hpf rfl]
  by_cases hgf : Forge.Operation.getVariable ∈ m.failing
  · exact Or.inr ⟨fun d hd => hd.answered _ (by simp) hgf, _, w, .refl w,
      Memory.run_query_of_failing _ hgf⟩
  cases hs : m.values.lookup ctx.config.release.versionVariable with
  | none =>
    refine Or.inr ⟨fun d hd => ?_, _, w, .refl w,
      Memory.run_query_of_error _ hgf (Memory.reply_getVariable_none hs)⟩
    obtain ⟨stored, h, -⟩ := hd.current
    rw [hs] at h
    cases h
  | some stored =>
  rw [Memory.run_query_of_ok _ hgf (Memory.reply_getVariable_some hs)]
  by_cases hcf : Forge.Operation.commitSha ∈ m.failing
  · exact Or.inr ⟨fun d hd => hd.answered _ (by simp) hcf, _, w, .refl w,
      Memory.run_query_of_failing _ hcf⟩
  cases hh : m.commits.lookup (branchRef ctx.config.release.branch) with
  | none =>
    refine Or.inr ⟨fun d hd => ?_, _, w, .refl w,
      Memory.run_query_of_error _ hcf (Memory.reply_commitSha_none hh)⟩
    have h := hd.head
    rw [hh] at h
    cases h
  | some head =>
  rw [Memory.run_query_of_ok _ hcf (Memory.reply_commitSha_some hh)]
  have hiff : ∀ d : MergeData, d.Read ctx sha m ↔
      d.MadeOf ctx ((m.pulls.lookup sha).getD []) stored head :=
    fun d => read_iff_madeOf (by simp [hpf, hgf, hcf]) hs hh
  obtain ⟨w', hq, ⟨d, hd, hr⟩ | ⟨hno, e, hr⟩⟩ := mergeDecision_made ctx Memory.host
    sha ((m.pulls.lookup sha).getD []) stored head m w
  · exact Or.inl ⟨d, w', (hiff d).2 hd, hq, hr⟩
  · exact Or.inr ⟨fun d hd => hno d ((hiff d).1 hd), e, w', hq, hr⟩

end Workflow

end ReleaseFlow
