import ReleaseFlow.Proofs.Workflow.Notes

/-!
# Notes in order

* `createNotes_warnings`: notes warn that no previous version was given, and of nothing else;
* `createNotes_in_order`: **the notes are asked for, then the release is made of them, then its page
  is told, and the first step that fails is the last**.
-/

namespace ReleaseFlow

open ReleaseFlow.Flow

section Parts

variable {S : Service}

theorem Runner.setOutput_unwarned (r : Runner) (name value : String) :
    (r.setOutput name value : Flow S Unit).Acts fun act => ∀ text, act ≠ .warn text :=
  r.setOutput_acts (fun _ _ _ => by simp) fun _ _ _ _ _ => by simp

theorem Runner.appendSummary_unwarned (r : Runner) (markdown : String) :
    (r.appendSummary markdown : Flow S Unit).Acts fun act => ∀ text, act ≠ .warn text :=
  r.appendSummary_acts (fun _ _ _ => by simp) fun _ _ _ => by simp

end Parts

namespace Workflow

variable (ctx : Context) (previous : Option String) (date : Date) (m : Memory) (w : World)

theorem publishNotes_unwarned (tag title notes : String) (previousTag : Option String) :
    (publishNotes ctx tag title notes previousTag).Acts fun act => ∀ text, act ≠ .warn text := by
  refine (acts_ask fun _ => by simp).bind fun url => ?_
  refine (acts_print fun _ => by simp).bind fun _ => ?_
  refine (ctx.runner.setOutput_unwarned _ _).bind fun _ => ?_
  exact (ctx.runner.appendSummary_unwarned _).bind fun _ => trivial

theorem notesAbout_unwarned (tags : String × Option String) :
    (notesAbout ctx date tags).Acts fun act => ∀ text, act ≠ .warn text := by
  simp only [notesAbout, pure_bind]
  refine (acts_ask fun _ => by simp).bind fun notes => ?_
  refine (acts_log fun _ => by simp).bind fun _ => ?_
  split
  · refine (acts_print fun _ => by simp).bind fun _ => ?_
    exact (acts_log fun _ => by simp).bind fun _ => trivial
  · refine (publishNotes_unwarned ctx _ _ _ _).bind fun url => ?_
    exact (acts_log fun _ => by simp).bind fun _ => trivial

/-- Notes whose tags are known warn that no previous version was given, and of nothing else; other
notes warn of nothing. -/
theorem createNotes_warnings :
    (∀ tag previousTag, NotesRead ctx previous m tag previousTag →
      ((createNotes ctx previous date).run Memory.host m w).2.2.warnings = w.warnings ++
        if previousTag.isNone then
          [Console.warningLine ctx.palette (.missingPreviousVersion tag)] else []) ∧
    ((∀ tag previousTag, ¬ NotesRead ctx previous m tag previousTag) →
      ((createNotes ctx previous date).run Memory.host m w).2.2.warnings = w.warnings) := by
  rw [createNotes_eq]
  rcases notesTags_run ctx previous m w with ⟨tag, previousTag, hread, hr⟩ | ⟨hno, e, hr⟩
  · refine ⟨fun tag' previousTag' hread' => ?_, fun h => absurd hread (h tag previousTag)⟩
    obtain ⟨rfl, rfl⟩ := notesRead_unique hread' hread
    rw [Flow.run_bind_of_done _ hr, Context.run_warning_if,
      (notesAbout_unwarned ctx date _).warnings, World.warnings_noteIf_warn]
  · refine ⟨fun tag previousTag hread => absurd hread (hno tag previousTag), fun _ => ?_⟩
    rw [Flow.run_bind_of_failed _ hr]

theorem NotesRead.isNone_eq {ctx : Context} {previous : Option String} {m : Memory} {tag : String}
    {previousTag : Option String} (h : NotesRead ctx previous m tag previousTag) :
    previousTag.isNone = previous.isNone := by
  obtain ⟨p, -, -, -, -, -, -, hprev⟩ := h.named
  cases previous with
  | none =>
    cases hprev
    rfl
  | some text =>
    obtain ⟨t, -, rfl⟩ := TagPattern.mapM_previousTag_some_iff.1 hprev
    rfl

/-- **Notes go in order.** The notes of the stored version's tag are asked for, compared with the
tag that the previous version names, and then the release of that tag is made of them, up to the
first request that fails. Only after both its page is told, as an output and then in the summary.
The run succeeds exactly when nothing failed. Without a previous version, and only then, there is a
warning. If the tags are not known, the run fails and does nothing. -/
theorem createNotes_in_order (hdry : ctx.dryRun = false) :
    ∃ o m' w', (createNotes ctx previous date).run Memory.host m w = (o, m', w') ∧
      m'.values = m.values ∧
      ((∀ tag previousTag, ¬ NotesRead ctx previous m tag previousTag) →
        (∃ e, o = .failed e) ∧ m' = m ∧ w'.files = w.files ∧ w'.warnings = w.warnings) ∧
      ∀ tag previousTag, NotesRead ctx previous m tag previousTag →
        let notes : NotesRequest := ⟨tag, previousTag, ctx.config.release.notesConfig⟩
        let release : NewRelease :=
          ⟨tag, releaseTitle tag date, m.notes, ctx.config.release.draft, false⟩
        let requests : List Forge.Mark := [.generateNotes notes, .createRelease release]
        (Forge.Operation.generateNotes ∉ m.failing →
          (Memory.answer ⟨ctx.repository, .generateNotes notes⟩ m).1 = .ok m.notes) ∧
        ∃ url, (Forge.Operation.createRelease ∉ m.failing → (Memory.answer
            ⟨ctx.repository, .createRelease release⟩ (m.mark (.generateNotes notes))).1 = .ok url) ∧
          let reports : List Report :=
            [.output "releaseUrl" url, .summary (notesSummary url tag previousTag)]
          let result : NotesResult :=
            ⟨tag, previousTag, releaseTitle tag date, m.notes, some url⟩
          m'.marks = m.marks ++ m.accepted requests ∧ m.accepted requests <+: requests ∧
          (previousTag = none ↔ previous = none) ∧
          (w'.warnings = w.warnings ++ if previous.isNone then
            [Console.warningLine ctx.palette (.missingPreviousVersion tag)] else []) ∧
          (∃ told, told <+: reports ∧ ctx.runner.writeAll w.files told = .ok w'.files ∧
            (told ≠ [] → m.accepted requests = requests) ∧
            ∀ block, .summary block ∈ told → told = reports) ∧
          (o = .done result ↔ m.accepted requests = requests ∧
            ∃ files, ctx.runner.writeAll w.files reports = .ok files) ∧
          (o ≠ .done result → ∃ e, o = .failed e) := by
  obtain ⟨hwarned, hunwarned⟩ := createNotes_warnings ctx previous date m w
  rcases createNotes_run ctx previous date m w with
    ⟨hno, e, w', hq, hr⟩ | ⟨tag, previousTag, hread, hrun⟩
  · refine ⟨_, _, _, hr, rfl, fun _ => ⟨⟨e, rfl⟩, rfl, hq.files, ?_⟩,
      fun tag previousTag hread => absurd hread (hno tag previousTag)⟩
    rw [hr] at hunwarned
    exact hunwarned hno
  have hmarks : notesMarks ctx tag previousTag date m =
      [.generateNotes ⟨tag, previousTag, ctx.config.release.notesConfig⟩, .createRelease
        ⟨tag, releaseTitle tag date, m.notes, ctx.config.release.draft, false⟩] := by
    rw [notesMarks, hdry]
    rfl
  have hreports : notesReports ctx tag previousTag =
      [.output "releaseUrl" (releaseUrl ctx tag),
        .summary (notesSummary (releaseUrl ctx tag) tag previousTag)] := by
    rw [notesReports, hdry]
    rfl
  have hresult : notesResult ctx tag previousTag date m =
      ⟨tag, previousTag, releaseTitle tag date, m.notes, some (releaseUrl ctx tag)⟩ := by
    rw [notesResult, hdry]
    rfl
  rw [hmarks, hreports, hresult] at hrun
  have hmemory := hrun.memory
  obtain ⟨told, hpre, hfiles, hlate⟩ := hrun.told
  refine ⟨_, _, _, rfl, ?_, fun h => absurd hread (h tag previousTag),
    fun tag' previousTag' hread' => ?_⟩
  · rw [hmemory]
    split <;> rfl
  obtain ⟨rfl, rfl⟩ := notesRead_unique hread' hread
  refine ⟨fun hf => ?_, releaseUrl ctx tag', fun hf => ?_, ?_, m.accepted_prefix _, ?_, ?_,
    ⟨told, hpre, hfiles, hlate, fun block hblock => ?_⟩, hrun.done_iff, hrun.failed_of_ne⟩
  · rw [Memory.answer_of_not_failing hf]
    rfl
  · rw [Memory.answer_of_not_failing hf]
    rfl
  · rw [hmemory]
    split
    · next hacc => rw [hacc]; rfl
    · rfl
  · rw [← Option.isNone_iff_eq_none, hread.isNone_eq, Option.isNone_iff_eq_none]
  · rw [hwarned _ _ hread, hread.isNone_eq]
  -- the summary is the last of the reports
  · rcases (@List.prefix_concat_iff _ told [_] _).1 hpre with h | h
    · exact h
    · exact absurd (h.subset hblock) (by simp)

/-- A release that is refused leaves the notes asked for, and the warning. -/
theorem createNotes_in_order_refused :
    ∃ e m' w', (createNotes
          ⟨⟨"acme", "notify-api"⟩, {}, ⟨some "out", none⟩, false, .plain, 0, false⟩ none
          ⟨2026, 1, 31, by decide, by decide, by decide⟩).run Memory.host
        { values := [("RELEASE_VERSION", "1.3.0")], failing := [.createRelease] } {} =
          (.failed e, m', w') ∧
      m'.marks = [.generateNotes ⟨"1.3.0", none, ".github/release.yaml"⟩] ∧
      w'.warnings = ["⚠ WARNING: No previous version given, " ++
        "notes for '1.3.0' cover the full history\n"] ∧
      w'.files = {} := by
  obtain ⟨o, m', w', hr, -, -, h⟩ := createNotes_in_order
    ⟨⟨"acme", "notify-api"⟩, {}, ⟨some "out", none⟩, false, .plain, 0, false⟩ none
    ⟨2026, 1, 31, by decide, by decide, by decide⟩
    { values := [("RELEASE_VERSION", "1.3.0")], failing := [.createRelease] } {} rfl
  have hread : NotesRead
      ⟨⟨"acme", "notify-api"⟩, {}, ⟨some "out", none⟩, false, .plain, 0, false⟩ none
      { values := [("RELEASE_VERSION", "1.3.0")], failing := [.createRelease] } "1.3.0" none :=
    ⟨by decide, ⟨"\x7bversion\x7d", by decide⟩, "1.3.0", ⟨1, 3, 0⟩, rfl, rfl, by decide, by decide,
      rfl⟩
  obtain ⟨-, url, -, hmarks, -, -, hwarned, ⟨told, -, hfiles, hlate, -⟩, hdone, hfailed⟩ :=
    h "1.3.0" none hread
  obtain ⟨e, rfl⟩ := hfailed fun ho => absurd (hdone.1 ho).1 (by decide)
  refine ⟨e, m', w', hr, hmarks.trans (by decide), hwarned.trans (by decide), ?_⟩
  cases told with
  | nil => exact (Except.ok.inj hfiles).symm
  | cons x told => exact absurd (hlate (List.cons_ne_nil _ _)) (by decide)

end Workflow

end ReleaseFlow
