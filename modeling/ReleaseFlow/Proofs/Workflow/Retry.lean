import ReleaseFlow.Proofs.Workflow.Tagging

/-!
# Tagging again after a failure

* `Memory.SameMerge`: memories that tell the same about a merge;
* `createTag_again`: a run on a known merge asks for its tag and no other;
* `createTag_retry`: **after a failure the version is as it was, and a later run makes the same tag,
  unless only the runner could not be told**;
* `createTag_retry_lost`: a file that cannot be written comes too late for that.
-/

namespace ReleaseFlow

/-- The memories tell the same about a merge, up to what fails in them. -/
structure Memory.SameMerge (ctx : Context) (sha : String) (m m' : Memory) : Prop where
  pulls : m'.pulls.lookup sha = m.pulls.lookup sha
  stored : m'.values.lookup ctx.config.release.versionVariable =
    m.values.lookup ctx.config.release.versionVariable
  head : m'.commits.lookup (branchRef ctx.config.release.branch) =
    m.commits.lookup (branchRef ctx.config.release.branch)

namespace MergeData.Read

variable {ctx : Context} {sha : String} {m m' : Memory} {d : MergeData}

theorem repaired (h : d.Read ctx sha m) : d.Read ctx sha { m with failing := [] } :=
  ⟨fun _ _ hmem => (by cases hmem), h.pull, h.current, h.head, h.next⟩

theorem of_same (h : d.Read ctx sha { m with failing := [] }) (hsame : m.SameMerge ctx sha m') :
    d.Read ctx sha { m' with failing := [] } := by
  obtain ⟨pull, others, hpulls, hpull⟩ := h.pull
  obtain ⟨stored, hs, hv⟩ := h.current
  exact ⟨h.answered, ⟨pull, others, hsame.pulls.trans hpulls, hpull⟩,
    ⟨stored, hsame.stored.trans hs, hv⟩, hsame.head.trans h.head, h.next⟩

theorem of_config {ctx' : Context} (h : d.Read ctx sha m) (hc : ctx'.config = ctx.config) :
    d.Read ctx' sha m :=
  ⟨h.answered, hc ▸ h.pull, hc ▸ h.current, hc ▸ h.head, h.next⟩

end MergeData.Read

namespace Workflow

variable (ctx : Context) (sha : String) (m : Memory) (w : World)

variable {ctx} in
theorem createTag_of_dry (hdry : ctx.dryRun = true) :
    ((∀ p d, ctx.tagPattern = .ok p → ¬ MergeData.Read ctx sha m d) ∧ ∃ e w', w.Quiet w' ∧
      (createTag ctx sha).run Memory.host m w = (.failed e, m, w')) ∨
    ∃ p d, ctx.tagPattern = .ok p ∧ MergeData.Read ctx sha m d ∧
      Delivers ctx.runner m w [] m (tagResult (p.format d.next) d).outputs
        (.done { tagResult (p.format d.next) d with created := false })
        ((createTag ctx sha).run Memory.host m w) := by
  have hctx : { ctx with dryRun := true } = ctx := by rw [← hdry]
  have hruns := createTag_runs ctx sha m w
  rw [hctx] at hruns
  rcases hruns with ⟨hno, e, w', hq, hr⟩ | ⟨p, d, hp, hd, hrun, -⟩
  · exact Or.inl ⟨hno, e, w', hq, hctx ▸ hr true⟩
  · exact Or.inr ⟨p, d, hp, hd, hrun⟩

theorem writeAll_outputs {r : Runner} {files files' : FileTree} {tag : String} {d : MergeData}
    (h : r.writeAll files (tagReports tag d) = .ok files') :
    ∃ between, r.writeAll files (tagResult tag d).outputs = .ok between := by
  cases hout : r.writeAll files (tagResult tag d).outputs with
  | ok between => exact ⟨between, rfl⟩
  | error e =>
    rw [tagReports_eq, Runner.writeAll_concat, hout] at h
    cases h

/-- The run makes the version of the data and no other: it asks at most for what its tag needs, a
result is about it, and where nothing fails there is a result. -/
def MakesOnly (ctx : Context) (tag : String) (d : MergeData) (m : Memory) (w : World)
    (run : Outcome TagResult × Memory × World) : Prop :=
  (∃ made, run.2.1.marks = m.marks ++ made ∧ made <+: tagMarks ctx tag d) ∧
  (∀ r, run.1 = .done r → r.next = d.next ∧ r.tag = tag) ∧
  (m.failing = [] → (∃ files, ctx.runner.writeAll w.files (tagReports tag d) = .ok files) →
    ∃ r, run.1 = .done r)

/-- Whatever fails, a run on a known merge makes its version and no other. -/
theorem createTag_again {p : TagPattern} {d : MergeData} (hp : ctx.tagPattern = .ok p)
    (hd : d.Read ctx sha { m with failing := [] }) :
    MakesOnly ctx (p.format d.next) d m w ((createTag ctx sha).run Memory.host m w) := by
  have unique : ∀ p' d', ctx.tagPattern = .ok p' → MergeData.Read ctx sha m d' →
      p' = p ∧ d' = d := fun p' d' hp' hd' =>
    ⟨Except.ok.inj (hp'.symm.trans hp), read_unique hd'.repaired hd⟩
  -- a run that does nothing has no version of its own
  have idle : ∀ e w', (∀ p d, ctx.tagPattern = .ok p → ¬ MergeData.Read ctx sha m d) →
      MakesOnly ctx (p.format d.next) d m w (.failed e, m, w') := by
    intro e w' hno
    refine ⟨⟨[], (List.append_nil _).symm, List.nil_prefix⟩, fun r h => (by cases h),
      fun hfailing => absurd ?_ (hno p d hp)⟩
    have hm : { m with failing := [] } = m := by rw [← hfailing]
    exact hm ▸ hd
  cases hdry : ctx.dryRun with
  | true =>
    rcases createTag_of_dry sha m w hdry with ⟨hno, e, w', -, hr⟩ | ⟨p', d', hp', hd', hrun⟩
    · exact hr ▸ idle e w' hno
    · obtain ⟨rfl, rfl⟩ := unique p' d' hp' hd'
      refine ⟨⟨[], ?_, List.nil_prefix⟩, fun r hr => ?_, fun _ ⟨files, hfiles⟩ => ?_⟩
      · rw [hrun.rest_eq.1, List.append_nil]
      · cases hrun.done_eq hr
        exact ⟨rfl, rfl⟩
      · obtain ⟨between, hout⟩ := writeAll_outputs hfiles
        exact ⟨_, hrun.done_iff.2 ⟨rfl, between, hout⟩⟩
  | false =>
    rcases createTag_run ctx sha m w hdry with ⟨hno, e, w', -, hr⟩ | ⟨p', d', hp', hd', hrun⟩
    · exact hr ▸ idle e w' hno
    · obtain ⟨rfl, rfl⟩ := unique p' d' hp' hd'
      refine ⟨⟨m.accepted (tagMarks ctx (p'.format d'.next) d'), ?_, m.accepted_prefix _⟩,
        fun r hr => ?_, fun hfailing hfiles => ?_⟩
      · rw [hrun.memory]
        split
        · next hacc => rw [hacc]; rfl
        · rfl
      · cases hrun.done_eq hr
        exact ⟨rfl, rfl⟩
      · exact ⟨_, hrun.done_iff.2 ⟨Memory.accepted_of_failing_nil hfailing, hfiles⟩⟩

variable {ctx sha m w} in
/-- What a run that fails leaves behind: what a merge is made of, or all that it was to change. -/
theorem createTag_failed {e : Failure} {m' : Memory} {w' : World}
    (h : (createTag ctx sha).run Memory.host m w = (.failed e, m', w')) :
    m.SameMerge ctx sha m' ∨
    ∃ p d, ctx.tagPattern = .ok p ∧ MergeData.Read ctx sha m d ∧ ctx.dryRun = false ∧
      m' = tagged ctx (p.format d.next) d m ∧
      ctx.runner.writeAll w.files (tagReports (p.format d.next) d) = .error e := by
  cases hdry : ctx.dryRun with
  | true =>
    refine Or.inl ?_
    rcases createTag_of_dry sha m w hdry with ⟨-, e', w₁, -, hr⟩ | ⟨p, d, -, -, hrun⟩
    · cases h.symm.trans hr
      exact ⟨rfl, rfl, rfl⟩
    · rw [h] at hrun
      obtain rfl : m' = m := hrun.rest_eq.1
      exact ⟨rfl, rfl, rfl⟩
  | false =>
    rcases createTag_run ctx sha m w hdry with ⟨-, e', w₁, -, hr⟩ | ⟨p, d, hp, hd, hrun⟩
    · cases h.symm.trans hr
      exact Or.inl ⟨rfl, rfl, rfl⟩
    · rw [h] at hrun
      have hm : m' = _ := hrun.memory
      split at hm
      · next hacc =>
        refine Or.inr ⟨p, d, hp, hd, rfl, hm, ?_⟩
        have hout : Outcome.failed e = _ := (hrun.of_accepted hacc).outcome_eq
        split at hout
        · cases hout
        · next he => cases hout; exact he
      · subst hm
        exact Or.inl ⟨rfl, rfl, rfl⟩

/-- **After a failure a run can be repeated, unless only the runner could not be told.** A run that
fails leaves the release variable as it was, and a later run on the same merge makes the version and
the tag that this one would have made, and no other; or else all requests were made, the variable
holds the new version, and the failure is that of an output or of the summary. -/
theorem createTag_retry {e : Failure} {m' : Memory} {w' : World}
    (h : (createTag ctx sha).run Memory.host m w = (.failed e, m', w')) :
    (m'.values.lookup ctx.config.release.versionVariable =
        m.values.lookup ctx.config.release.versionVariable ∧
      ∀ p d, ctx.tagPattern = .ok p → d.Read ctx sha { m with failing := [] } →
        ∀ (ctx' : Context) (m₂ : Memory) (w₂ : World), ctx'.config = ctx.config →
          m'.SameMerge ctx sha m₂ → MakesOnly ctx' (p.format d.next) d m₂ w₂
            ((createTag ctx' sha).run Memory.host m₂ w₂)) ∨
    ∃ p d, ctx.tagPattern = .ok p ∧ MergeData.Read ctx sha m d ∧ ctx.dryRun = false ∧
      m' = tagged ctx (p.format d.next) d m ∧
      ctx.runner.writeAll w.files (tagReports (p.format d.next) d) = .error e := by
  rcases createTag_failed h with hsame | hlost
  · refine Or.inl ⟨hsame.stored, fun p d hp hd ctx' m₂ w₂ hconfig hagain => ?_⟩
    have hp' : ctx'.tagPattern = .ok p := by rw [Context.tagPattern, hconfig]; exact hp
    exact createTag_again ctx' sha m₂ w₂ hp' (((hd.of_same hsame).of_same hagain).of_config hconfig)
  · exact Or.inr hlost

/-- A ref that was refused is made by the next run, with the version that the first one had. -/
theorem createTag_retry_ref :
    let ctx : Context := ⟨⟨"acme", "notify-api"⟩, {}, {}, false, .plain, 0, false⟩
    let m : Memory := {
      pulls := [("c0ffee", [⟨42, "https://example.com/pull/42", ["feature"]⟩])]
      values := [("RELEASE_VERSION", "1.2.3")]
      commits := [("heads/release", "f00d")]
      failing := [.createRef] }
    let m' := ((createTag ctx "c0ffee").run Memory.host m {}).2.1
    let again := (createTag ctx "c0ffee").run Memory.host { m' with failing := [] } {}
    m'.values.lookup "RELEASE_VERSION" = some "1.2.3" ∧
      ∃ r, again.1 = .done r ∧ r.next = ⟨1, 3, 0⟩ ∧ r.tag = "1.3.0" := by
  intro ctx m m' again
  have h : (createTag ctx "c0ffee").run Memory.host m {} =
      (.failed (.api 500 "create_ref failed"), m', _) := Prod.ext (by decide) rfl
  have hd : MergeData.Read ctx "c0ffee" { m with failing := [] } ⟨"f00d", ⟨1, 2, 3⟩, ⟨1, 3, 0⟩,
      .minor, some "feature", 42, "https://example.com/pull/42"⟩ :=
    ⟨by decide, ⟨_, _, rfl, by decide, rfl, rfl⟩, ⟨_, rfl, by decide⟩, by decide, by decide⟩
  rcases createTag_retry ctx "c0ffee" m {} h with ⟨hstored, hagain⟩ | ⟨p, d, -, -, -, hm, -⟩
  · have hp : ctx.tagPattern = .ok ⟨"\x7bversion\x7d", by decide⟩ := dif_pos _
    obtain ⟨-, hresult, hdone⟩ := hagain _ _ hp hd ctx { m' with failing := [] } {} rfl
      ⟨rfl, rfl, rfl⟩
    obtain ⟨r, hr⟩ := hdone rfl ⟨_, rfl⟩
    exact ⟨hstored.trans (by decide), r, hr, hresult r hr⟩
  · have hlength : m'.marks.length = 3 := congrArg (fun m => m.marks.length) hm
    exact absurd hlength (by decide)

/-- An output that cannot be written fails too late: the version is stored, and the next run makes
another one. -/
theorem createTag_retry_lost :
    let ctx : Context := ⟨⟨"acme", "notify-api"⟩, {}, ⟨some "out", none⟩, false, .plain, 0, false⟩
    let m : Memory := {
      pulls := [("c0ffee", [⟨42, "https://example.com/pull/42", ["feature"]⟩])]
      values := [("RELEASE_VERSION", "1.2.3")]
      commits := [("heads/release", "f00d")] }
    let w : World := { files := { nodes := [(["out"], .directory)] } }
    let failed := (createTag ctx "c0ffee").run Memory.host m w
    let again := (createTag ctx "c0ffee").run Memory.host failed.2.1 {}
    failed.1 = .failed (.io "Is a directory (os error 21)") ∧
      failed.2.1.values.lookup "RELEASE_VERSION" = some "1.3.0" ∧
      again.1 = .done ⟨⟨1, 3, 0⟩, ⟨1, 4, 0⟩, "1.4.0", "f00d", true⟩ := by
  decide

end Workflow

end ReleaseFlow
