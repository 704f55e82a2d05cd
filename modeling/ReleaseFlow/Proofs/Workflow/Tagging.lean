import ReleaseFlow.Proofs.Version.Order
import ReleaseFlow.Proofs.Version.Text
import ReleaseFlow.Proofs.Workflow.Delivery
import ReleaseFlow.Proofs.Workflow.Merge

/-!
# What tagging does to a service in memory

* `tagMarks`, `tagReports`: what tagging a merge asks for, and what it tells the runner;
* `publishTag_delivers`: the requests of a tag, in order;
* `createTag_runs`, `createTag_run`: whole runs, from the data of the merge to the summary;
* `createTag_in_order`: **the tag object, the ref and the variable are written in this order, then
  the outputs and the summary are told, and the first step that fails is the last**.
-/

namespace ReleaseFlow

/-- What tagging tells the later steps of the job. -/
def TagResult.outputs (r : TagResult) : List Report :=
  [.output "previousVersion" r.previous.text, .output "newVersion" r.next.text, .output "tag" r.tag]

namespace Workflow

/-- What tagging a merge asks for: the tag object, the ref that points at it, and the new value of
the release variable. -/
def tagMarks (ctx : Context) (tag : String) (d : MergeData) : List Forge.Mark :=
  [.createTagObject tag ("Release for version " ++ d.next.text) d.head,
    .createRef ("refs/tags/" ++ tag) ("tagobj-" ++ tag),
    .updateVariable ctx.config.release.versionVariable d.next.text]

theorem operation_of_mem_tagMarks {ctx : Context} {tag : String} {d : MergeData} {x : Forge.Mark}
    (h : x ∈ tagMarks ctx tag d) :
    x.operation ∈ [Forge.Operation.createTagObject, .createRef, .updateVariable] := by
  simp only [tagMarks, List.mem_cons, List.not_mem_nil, or_false] at h
  rcases h with rfl | rfl | rfl <;> simp [Forge.Mark.operation]

/-- What tagging a merge tells the runner. -/
def tagReports (tag : String) (d : MergeData) : List Report :=
  [.output "previousVersion" d.current.text, .output "newVersion" d.next.text, .output "tag" tag,
    .summary (tagSummary d.current.text d.next.text tag d.head d.url d.label)]

/-- The block of the summary about a tag. -/
def tagBlock (tag : String) (d : MergeData) : String :=
  tagSummary d.current.text d.next.text tag d.head d.url d.label

/-- The memory after a merge was tagged. -/
def tagged (ctx : Context) (tag : String) (d : MergeData) (m : Memory) : Memory :=
  (m.setVariable ctx.config.release.versionVariable d.next.text).markAll (tagMarks ctx tag d)

def tagResult (tag : String) (d : MergeData) : TagResult :=
  ⟨d.current, d.next, tag, d.head, true⟩

variable (ctx : Context) (sha tag : String) (d : MergeData) (m : Memory) (w : World)

theorem tagReports_eq :
    tagReports tag d = (tagResult tag d).outputs ++ [.summary (tagBlock tag d)] := rfl

/-! ## Runs -/

theorem publishTag_delivers {α : Type} {reports : List Report} {outcome : Outcome α}
    {f : Unit → Flow Forge.service α}
    (hf : ∀ w, Delivers ctx.runner (tagged ctx tag d m) w [] (tagged ctx tag d m) reports outcome
      ((f ()).run Memory.host (tagged ctx tag d m) w)) :
    Delivers ctx.runner m w (tagMarks ctx tag d) (tagged ctx tag d m) reports outcome
      ((publishTag ctx d tag >>= f).run Memory.host m w) := by
  simp only [publishTag, bind_assoc]
  refine .print fun w => ?_
  refine .ask_mark rfl rfl (.ask_mark rfl rfl (.print fun w => ?_))
  refine .ask_last rfl rfl ?_
  have htagged : Memory.mark (.setVariable ctx.config.release.versionVariable d.next.text
      ((m.mark (.createTagObject tag ("Release for version " ++ d.next.text) d.head)).mark
        (.createRef ("refs/tags/" ++ tag) ("tagobj-" ++ tag))))
      (.updateVariable ctx.config.release.versionVariable d.next.text) = tagged ctx tag d m := by
    simp [tagged, tagMarks, Memory.markAll, Memory.mark, Memory.setVariable]
  rw [htagged, pure_bind]
  exact hf w

variable {ctx} in
theorem createTag_eq (hdry : ctx.dryRun = false) : createTag ctx sha = do
    let pattern ← Flow.ofExcept ctx.tagPattern
    let d ← mergeData ctx sha
    publishTag ctx d (pattern.format d.next)
    ctx.runner.tellAll (tagReports (pattern.format d.next) d)
    return tagResult (pattern.format d.next) d := by
  simp only [createTag, hdry, Runner.tellAll, tagReports, Runner.tell, tagResult, bind_assoc,
    pure_bind, Bool.not_false, if_true, if_false, Bool.false_eq_true]

variable {ctx} in
theorem createTag_eq_of_dry (hdry : ctx.dryRun = true) : createTag ctx sha = do
    let pattern ← Flow.ofExcept ctx.tagPattern
    let d ← mergeData ctx sha
    previewTag ctx d (pattern.format d.next)
    ctx.runner.tellAll (tagResult (pattern.format d.next) d).outputs
    return { tagResult (pattern.format d.next) d with created := false } := by
  simp only [createTag, hdry, Runner.tellAll, TagResult.outputs, Runner.tell, tagResult, bind_assoc,
    pure_bind, Bool.not_true, if_true, if_false, Bool.false_eq_true]

/-- Whether or not the run may change something, without the data of the merge it does nothing and
fails in the same way. Else a run that may change nothing tells its outputs; one that may makes its
requests, and after all of them it tells the outputs and the summary. -/
theorem createTag_runs :
    ((∀ p d, ctx.tagPattern = .ok p → ¬ MergeData.Read ctx sha m d) ∧ ∃ e w', w.Quiet w' ∧
      ∀ dryRun, (createTag { ctx with dryRun } sha).run Memory.host m w = (.failed e, m, w')) ∨
    ∃ p d, ctx.tagPattern = .ok p ∧ MergeData.Read ctx sha m d ∧
      Delivers ctx.runner m w [] m (tagResult (p.format d.next) d).outputs
        (.done { tagResult (p.format d.next) d with created := false })
        ((createTag { ctx with dryRun := true } sha).run Memory.host m w) ∧
      Delivers ctx.runner m w (tagMarks ctx (p.format d.next) d) (tagged ctx (p.format d.next) d m)
        (tagReports (p.format d.next) d) (.done (tagResult (p.format d.next) d))
        ((createTag { ctx with dryRun := false } sha).run Memory.host m w) := by
  have hlive : createTag { ctx with dryRun := false } sha = _ := createTag_eq sha rfl
  have hdry : createTag { ctx with dryRun := true } sha = _ := createTag_eq_of_dry sha rfl
  -- neither the pattern nor the data of the merge depends on what may be changed
  have hpattern : ∀ dryRun, Context.tagPattern { ctx with dryRun } = ctx.tagPattern := fun _ => rfl
  have hdata : ∀ dryRun, mergeData { ctx with dryRun } sha = mergeData ctx sha := fun _ => rfl
  rw [hpattern, hdata] at hlive hdry
  cases hp : ctx.tagPattern with
  | error e =>
    rw [hp] at hlive hdry
    refine Or.inl ⟨by simp, e, w, .refl w, fun dryRun => ?_⟩
    cases dryRun with
    | true => rw [hdry, Flow.run_ofExcept_error_bind]
    | false => rw [hlive, Flow.run_ofExcept_error_bind]
  | ok p =>
  rw [hp] at hlive hdry
  rcases mergeData_run ctx sha m w with ⟨d, w₁, hd, hq₁, hr₁⟩ | ⟨hno, e, w', hq, hr⟩
  · refine Or.inr ⟨p, d, rfl, hd, ?_, ?_⟩
    · rw [hdry, Flow.run_ofExcept_ok_bind, Flow.run_bind_of_done _ hr₁]
      simp only [previewTag, bind_assoc]
      refine .of_quiet hq₁ (.print fun w => .print fun w => .print fun w => ?_)
      exact .tell fun w => ⟨w, .refl w, rfl⟩
    · rw [hlive, Flow.run_ofExcept_ok_bind, Flow.run_bind_of_done _ hr₁]
      refine .of_quiet hq₁ (publishTag_delivers _ _ _ _ _ fun w => ?_)
      exact .tell fun w => ⟨w, .refl w, rfl⟩
  · refine Or.inl ⟨fun _ d _ => hno d, e, w', hq, fun dryRun => ?_⟩
    cases dryRun with
    | true => rw [hdry, Flow.run_ofExcept_ok_bind, Flow.run_bind_of_failed _ hr]
    | false => rw [hlive, Flow.run_ofExcept_ok_bind, Flow.run_bind_of_failed _ hr]

theorem createTag_run (hdry : ctx.dryRun = false) :
    ((∀ p d, ctx.tagPattern = .ok p → ¬ MergeData.Read ctx sha m d) ∧ ∃ e w', w.Quiet w' ∧
      (createTag ctx sha).run Memory.host m w = (.failed e, m, w')) ∨
    ∃ p d, ctx.tagPattern = .ok p ∧ MergeData.Read ctx sha m d ∧
      Delivers ctx.runner m w (tagMarks ctx (p.format d.next) d) (tagged ctx (p.format d.next) d m)
        (tagReports (p.format d.next) d) (.done (tagResult (p.format d.next) d))
        ((createTag ctx sha).run Memory.host m w) := by
  have hctx : { ctx with dryRun := false } = ctx := by rw [← hdry]
  have hruns := createTag_runs ctx sha m w
  rw [hctx] at hruns
  rcases hruns with ⟨hno, e, w', hq, hr⟩ | ⟨p, d, hp, hd, -, hrun⟩
  · exact Or.inl ⟨hno, e, w', hq, hctx ▸ hr false⟩
  · exact Or.inr ⟨p, d, hp, hd, hrun⟩

variable {ctx sha m w} in
theorem createTag_done (hdry : ctx.dryRun = false) {r : TagResult} {m' : Memory} {w' : World}
    (h : (createTag ctx sha).run Memory.host m w = (.done r, m', w')) :
    ∃ p d, ctx.tagPattern = .ok p ∧ MergeData.Read ctx sha m d ∧
      r = tagResult (p.format d.next) d ∧ m' = tagged ctx (p.format d.next) d m ∧
      ctx.runner.writeAll w.files (tagReports (p.format d.next) d) = .ok w'.files := by
  rcases createTag_run ctx sha m w hdry with ⟨-, e, w₁, -, hr⟩ | ⟨p, d, hp, hd, hrun⟩
  · rw [h] at hr
    cases hr
  · rw [h] at hrun
    obtain ⟨hresult, hrest⟩ := hrun.of_done
    cases hresult
    exact ⟨p, d, hp, hd, rfl, hrest⟩

/-! ## The stored version -/

theorem lookup_tagged :
    (tagged ctx tag d m).values.lookup ctx.config.release.versionVariable = some d.next.text :=
  List.lookup_cons_self

variable {ctx sha d m} in
theorem lookup_tagged_ne (hd : MergeData.Read ctx sha m d) :
    (tagged ctx tag d m).values.lookup ctx.config.release.versionVariable ≠
      m.values.lookup ctx.config.release.versionVariable := by
  intro h
  have hparse := hd.parse_eq (h.symm.trans (lookup_tagged ctx tag d m))
  rw [Version.parse_text] at hparse
  exact Version.ne_of_lt (Version.lt_of_bump hd.next) (Except.ok.inj hparse).symm

variable {tag d} in
theorem eq_of_summary_mem {told : List Report} {block : String}
    (hpre : told <+: tagReports tag d) (h : .summary block ∈ told) : told = tagReports tag d := by
  rw [tagReports_eq] at hpre ⊢
  rcases List.prefix_concat_iff.1 hpre with h' | h'
  · exact h'
  · exact absurd (h'.subset h) (by simp [TagResult.outputs])

/-- **Tagging goes in order.** The tag object, the ref and the variable are written one after
another, up to the first that fails. The variable changes exactly when all three were written; only
then are outputs told, in order, and the summary after all of them. The run succeeds exactly when
nothing failed. Without a pattern or the data of the merge, it fails and changes nothing. -/
theorem createTag_in_order (hdry : ctx.dryRun = false) :
    ∃ o m' w', (createTag ctx sha).run Memory.host m w = (o, m', w') ∧
      ((∀ p d, ctx.tagPattern = .ok p → ¬ MergeData.Read ctx sha m d) →
        (∃ e, o = .failed e) ∧ m' = m ∧ w'.files = w.files) ∧
      ∀ p d, ctx.tagPattern = .ok p → MergeData.Read ctx sha m d →
        let requests := tagMarks ctx (p.format d.next) d
        let reports := tagReports (p.format d.next) d
        m'.marks = m.marks ++ m.accepted requests ∧ m.accepted requests <+: requests ∧
        (m'.values.lookup ctx.config.release.versionVariable ≠
          m.values.lookup ctx.config.release.versionVariable ↔ m.accepted requests = requests) ∧
        (∃ told, told <+: reports ∧ ctx.runner.writeAll w.files told = .ok w'.files ∧
          (told ≠ [] → m.accepted requests = requests) ∧
          ∀ block, .summary block ∈ told → told = reports) ∧
        (o = .done (tagResult (p.format d.next) d) ↔ m.accepted requests = requests ∧
          ∃ files, ctx.runner.writeAll w.files reports = .ok files) ∧
        (o ≠ .done (tagResult (p.format d.next) d) → ∃ e, o = .failed e) := by
  rcases createTag_run ctx sha m w hdry with ⟨hno, e, w', hq, hr⟩ | ⟨p, d, hp, hd, hrun⟩
  · exact ⟨_, _, _, hr, fun _ => ⟨⟨e, rfl⟩, rfl, hq.files⟩,
      fun p d hp hd => absurd hd (hno p d hp)⟩
  refine ⟨_, _, _, rfl, fun h => absurd hd (h p d hp), fun p' d' hp' hd' => ?_⟩
  obtain rfl : p' = p := Except.ok.inj (hp'.symm.trans hp)
  obtain rfl : d' = d := read_unique hd' hd
  obtain ⟨told, hpre, hfiles, hlate⟩ := hrun.told
  refine ⟨?_, m.accepted_prefix _, ?_, ⟨told, hpre, hfiles, hlate,
    fun _ h => eq_of_summary_mem hpre h⟩, hrun.done_iff, hrun.failed_of_ne⟩
  · rw [hrun.memory]
    split
    · next hacc => rw [hacc]; rfl
    · rfl
  · rw [hrun.memory]
    split
    · next hacc => exact iff_of_true (lookup_tagged_ne _ hd) hacc
    · next hacc => exact iff_of_false (fun h => h rfl) hacc

/-- A ref that is refused leaves the tag object behind and the version as it was. -/
theorem createTag_stops_at_ref :
    ∃ e m' w', (createTag ⟨⟨"acme", "notify-api"⟩, {}, {}, false, .plain, 0, false⟩ "c0ffee").run
        Memory.host
        { pulls := [("c0ffee", [⟨42, "https://example.com/pull/42", ["feature"]⟩])]
          values := [("RELEASE_VERSION", "1.2.3")]
          commits := [("heads/release", "f00d")]
          failing := [.createRef] } {} = (.failed e, m', w') ∧
      m'.marks = [.createTagObject "1.3.0" "Release for version 1.3.0" "f00d"] ∧
      m'.values.lookup "RELEASE_VERSION" = some "1.2.3" := by
  obtain ⟨o, m', w', hr, -, h⟩ := createTag_in_order
    ⟨⟨"acme", "notify-api"⟩, {}, {}, false, .plain, 0, false⟩ "c0ffee"
    { pulls := [("c0ffee", [⟨42, "https://example.com/pull/42", ["feature"]⟩])]
      values := [("RELEASE_VERSION", "1.2.3")]
      commits := [("heads/release", "f00d")]
      failing := [.createRef] } {} rfl
  obtain ⟨hm, -, hv, -, ho, he⟩ := h ⟨"\x7bversion\x7d", by decide⟩
    ⟨"f00d", ⟨1, 2, 3⟩, ⟨1, 3, 0⟩, .minor, some "feature", 42, "https://example.com/pull/42"⟩ rfl
    ⟨by decide, ⟨_, _, rfl, by decide, rfl, rfl⟩, ⟨_, rfl, by decide⟩, by decide, by decide⟩
  obtain ⟨e, rfl⟩ := he fun ho' => absurd (ho.1 ho').1 (by decide)
  refine ⟨e, m', w', hr, hm.trans (by decide), ?_⟩
  by_contra hne
  exact absurd (hv.1 hne) (by decide)

end Workflow

end ReleaseFlow
